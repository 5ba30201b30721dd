/-!
# What the program runs on

The program runs inside an interpreter, which has room for so many calls that are open at a time and
converts whole numbers of so many decimal digits between text and number.

A call of one of the functions that call themselves, directly or through others, takes one place on
the stack.  What such a function calls besides, and what returns before it goes on, is counted in
with it.

* `Stack.call?`: one more open call.
* `Stack.Holds`: whether so many calls can be open, each inside the one before.
-/

namespace TypedCalc

/-- The room for calls that are open at a time. -/
structure Stack where
  /-- The number of calls there is room for; without one there is always room. -/
  free : Option Nat
  deriving DecidableEq, Repr

namespace Stack

/-- A stack that never runs out. -/
def unlimited : Stack := ⟨none⟩

/-- The stack inside one more open call, if there is room for the call. -/
def call? : Stack → Option Stack
  | ⟨none⟩ => some ⟨none⟩
  | ⟨some 0⟩ => none
  | ⟨some (free + 1)⟩ => some ⟨some free⟩

/-- Whether there is room for so many calls, each inside the one before. -/
def Holds (stack : Stack) (calls : Nat) : Prop := ∀ free ∈ stack.free, calls ≤ free

instance (stack : Stack) (calls : Nat) : Decidable (stack.Holds calls) :=
  inferInstanceAs (Decidable (∀ free ∈ stack.free, calls ≤ free))

@[simp] theorem call?_unlimited : unlimited.call? = some unlimited := rfl

@[simp] theorem holds_unlimited (calls : Nat) : unlimited.Holds calls := nofun

theorem Holds.mono {stack : Stack} {calls more : Nat} (h : stack.Holds more) (hle : calls ≤ more) :
    stack.Holds calls :=
  fun free hfree => Nat.le_trans hle (h free hfree)

/-- Room for one call more is room for a call and for the others inside it. -/
theorem holds_succ_iff {stack : Stack} {calls : Nat} :
    stack.Holds (calls + 1) ↔ ∃ inner, stack.call? = some inner ∧ inner.Holds calls := by
  obtain ⟨free⟩ := stack
  match free with
  | none => exact ⟨fun _ => ⟨_, rfl, nofun⟩, fun _ => nofun⟩
  | some 0 => exact ⟨fun h => absurd (h 0 rfl) (Nat.not_succ_le_zero _), by rintro ⟨_, ⟨⟩, _⟩⟩
  | some (free + 1) =>
    constructor
    · refine fun h => ⟨_, rfl, ?_⟩
      rintro _ ⟨⟩
      exact Nat.le_of_succ_le_succ (h _ rfl)
    · rintro ⟨_, ⟨⟩, h⟩ _ ⟨⟩
      exact Nat.succ_le_succ (h _ rfl)

/-- What is left of the room inside a call. -/
theorem Holds.of_call? {stack inner : Stack} {calls : Nat} (h : stack.Holds (calls + 1))
    (hcall : stack.call? = some inner) : inner.Holds calls := by
  obtain ⟨found, hfound, hholds⟩ := holds_succ_iff.mp h
  obtain rfl := Option.some.inj (hcall.symm.trans hfound)
  exact hholds

end Stack

/-- What the program runs on: with nothing said, nothing runs out. -/
structure Interpreter where
  /-- The room for calls. -/
  stack : Stack := .unlimited
  /-- The largest number of decimal digits of a whole number that is converted, if there is one. -/
  digits : Option Nat := none
  deriving DecidableEq, Repr

/-- The limits that an interpreter has unless they are changed. -/
def Interpreter.standard : Interpreter := ⟨⟨some 1000⟩, some 4300⟩

end TypedCalc
