import TypedCalc.Token.Basic

/-!
# Openers

A prefix operator is open until its operand is complete, and an opening parenthesis until its
closing one.  Which openers are entered, and how many others are open around each, can be told from
the tokens alone, with a stack and one more bit: whether the last token completes an operand.

* `Openers.step`: how a token changes what is open.
* `Openers.entries`: the openers that tokens enter, each with the number of those around it.
-/

namespace TypedCalc

/-- What is entered by one token and left by a later one. -/
inductive Opener
  /-- A prefix operator, which is left when its operand is complete. -/
  | sign
  /-- The parenthesis of a group or a call. -/
  | paren
  deriving DecidableEq

/-- An opener that is entered. -/
structure Entry where
  /-- Where it stands. -/
  position : Nat
  /-- The number of others that are open around it. -/
  around : Nat
  deriving DecidableEq

/-- What is open between two tokens.  A prefix operator with a complete operand stays until the
token after the operand, since a name can still turn out to be a call. -/
structure Openers where
  /-- The openers, the innermost first. -/
  opened : List Opener := []
  /-- Whether the token before completes an operand. -/
  complete : Bool := false
  deriving DecidableEq

namespace Openers

/-- The openers without the prefix operators that a complete operand ends. -/
def settled (w : Openers) : List Opener := w.opened.dropWhile (· == .sign)

/-- What is open after a token. -/
def step (w : Openers) : TokenKind → Openers
  | .number _ | .history _ | .name _ => ⟨w.opened, true⟩
  | .operator _ => if w.complete then ⟨w.settled, false⟩ else ⟨.sign :: w.opened, false⟩
  | .openParen => ⟨.paren :: w.opened, false⟩
  | .closeParen => ⟨w.settled.tail, true⟩
  | .comma => ⟨w.settled, false⟩
  | .endOfInput => w

/-- The opener that a token enters, if it enters one: any parenthesis, and an operator where an
operand is missing. -/
def entry? (w : Openers) (token : Token) : Option Entry :=
  match token.kind with
  | .operator _ => if w.complete then none else some ⟨token.position, w.opened.length⟩
  | .openParen => some ⟨token.position, w.opened.length⟩
  | _ => none

/-- What is open after some tokens. -/
def after (w : Openers) (tokens : List Token) : Openers :=
  tokens.foldl (fun w token => w.step token.kind) w

/-- The openers that tokens enter, in their order. -/
def entries : Openers → List Token → List Entry
  | _, [] => []
  | w, token :: rest => (w.entry? token).toList ++ (w.step token.kind).entries rest

theorem after_append (w : Openers) (tokens more : List Token) :
    w.after (tokens ++ more) = (w.after tokens).after more :=
  List.foldl_append

theorem entries_append (w : Openers) (tokens more : List Token) :
    w.entries (tokens ++ more) = w.entries tokens ++ (w.after tokens).entries more := by
  induction tokens generalizing w with
  | nil => rfl
  | cons token rest ih =>
    rw [List.cons_append, entries, entries, ih, List.append_assoc]
    rfl

theorem entries_cons_of_none {w : Openers} {token : Token} (h : w.entry? token = none)
    (rest : List Token) : w.entries (token :: rest) = (w.step token.kind).entries rest := by
  rw [entries, h]
  rfl

theorem entries_cons_of_some {w : Openers} {token : Token} {entry : Entry}
    (h : w.entry? token = some entry) (rest : List Token) :
    w.entries (token :: rest) = entry :: (w.step token.kind).entries rest := by
  rw [entries, h]
  rfl

/-- Closing parentheses enter nothing. -/
theorem entries_closings {closings : List Token}
    (h : ∀ closing ∈ closings, closing.kind = .closeParen) (w : Openers) :
    w.entries closings = [] := by
  induction closings generalizing w with
  | nil => rfl
  | cons closing closings ih =>
    obtain ⟨hkind, hkinds⟩ := List.forall_mem_cons.mp h
    have hentry : w.entry? closing = none := by rw [Openers.entry?, hkind]
    rw [entries_cons_of_none hentry]
    exact ih hkinds _

/-! ## How many are open -/

theorem length_settled_le (w : Openers) : w.settled.length ≤ w.opened.length :=
  (List.dropWhile_suffix _).length_le

/-- A token opens one more only as an opener that is entered. -/
theorem length_step (w : Openers) (token : Token) :
    (w.step token.kind).opened.length ≤ w.opened.length ∨
      ∃ entry, w.entry? token = some entry ∧
        (w.step token.kind).opened.length = entry.around + 1 := by
  have hsettled := w.length_settled_le
  unfold entry?
  cases token.kind with
  | number | history | name | endOfInput => exact .inl (Nat.le_refl _)
  | openParen => exact .inr ⟨_, rfl, rfl⟩
  | comma => exact .inl hsettled
  | closeParen =>
    left
    rw [step, List.length_tail]
    omega
  | operator symbol =>
    rw [step]
    cases w.complete with
    | true => exact .inl hsettled
    | false => exact .inr ⟨_, rfl, rfl⟩

/-- An opener that is entered has all that are open around it. -/
theorem around_of_entry_eq {w : Openers} {token : Token} {entry : Entry}
    (h : w.entry? token = some entry) : entry.around = w.opened.length := by
  unfold entry? at h
  split at h
  · split at h
    · cases h
    · cases h
      rfl
  · cases h
    rfl
  · cases h

theorem mem_entries_cons_iff {w : Openers} {token : Token} {rest : List Token} {entry : Entry} :
    entry ∈ w.entries (token :: rest) ↔
      w.entry? token = some entry ∨ entry ∈ (w.step token.kind).entries rest := by
  rw [entries, List.mem_append, Option.mem_toList]

/-- As many are open as are entered inside each other. -/
theorem length_after_le {w : Openers} {tokens : List Token} {nesting : Nat}
    (h : ∀ entry ∈ w.entries tokens, entry.around < nesting) (hw : w.opened.length ≤ nesting) :
    (w.after tokens).opened.length ≤ nesting := by
  induction tokens generalizing w with
  | nil => exact hw
  | cons token rest ih =>
    refine ih (fun entry hmem => h entry (mem_entries_cons_iff.mpr (.inr hmem))) ?_
    rcases w.length_step token with hstep | ⟨entry, hentry, hstep⟩
    · exact Nat.le_trans hstep hw
    · rw [hstep]
      exact h entry (mem_entries_cons_iff.mpr (.inl hentry))

/-- None is entered inside more than so many if none is entered inside just so many. -/
theorem around_lt_of_ne {w : Openers} {tokens : List Token} {nesting : Nat}
    (h : ∀ entry ∈ w.entries tokens, entry.around ≠ nesting) (hw : w.opened.length ≤ nesting) :
    ∀ entry ∈ w.entries tokens, entry.around < nesting := by
  induction tokens generalizing w with
  | nil => exact fun _ hmem => absurd hmem List.not_mem_nil
  | cons token rest ih =>
    have hlt {entry : Entry} (hentry : w.entry? token = some entry) : entry.around < nesting :=
      Nat.lt_of_le_of_ne (around_of_entry_eq hentry ▸ hw)
        (h entry (mem_entries_cons_iff.mpr (.inl hentry)))
    have hstep : (w.step token.kind).opened.length ≤ nesting := by
      rcases w.length_step token with hstep | ⟨entry, hentry, hstep⟩
      · exact Nat.le_trans hstep hw
      · rw [hstep]
        exact hlt hentry
    intro entry hmem
    rcases mem_entries_cons_iff.mp hmem with hentry | hmem
    · exact hlt hentry
    · exact ih (fun entry hmem => h entry (mem_entries_cons_iff.mpr (.inr hmem))) hstep entry hmem

/-- Whether nothing but prefix operators is open inside some openers. -/
def IsInside (outer : List Opener) (w : Openers) : Prop :=
  ∃ signs : List Opener, (∀ opener ∈ signs, opener = .sign) ∧ w.opened = signs ++ outer

theorem IsInside.length_le {outer : List Opener} {w : Openers} (h : w.IsInside outer) :
    outer.length ≤ w.opened.length := by
  obtain ⟨signs, -, hopened⟩ := h
  rw [hopened, List.length_append]
  exact Nat.le_add_left _ _

theorem isInside_self (outer : List Opener) (complete : Bool) : IsInside outer ⟨outer, complete⟩ :=
  ⟨[], nofun, rfl⟩

/-- The operand of a prefix operator is inside what the operator is inside. -/
theorem IsInside.of_sign {outer : List Opener} {w : Openers} (h : w.IsInside (.sign :: outer)) :
    w.IsInside outer := by
  obtain ⟨signs, hsigns, hopened⟩ := h
  refine ⟨signs ++ [.sign], fun opener hmem => ?_, by rw [hopened, List.append_assoc]; rfl⟩
  rcases List.mem_append.mp hmem with hmem | hmem
  · exact hsigns opener hmem
  · exact List.mem_singleton.mp hmem

/-- Whether the innermost of some openers is no prefix operator. -/
def IsSettled (outer : List Opener) : Prop := outer.dropWhile (· == .sign) = outer

theorem isSettled_paren (outer : List Opener) : IsSettled (.paren :: outer) := rfl

/-- A complete operand leaves what is around its prefix operators. -/
theorem IsInside.settled_eq {outer : List Opener} {w : Openers} (h : w.IsInside outer)
    (houter : IsSettled outer) : w.settled = outer := by
  obtain ⟨signs, hsigns, hopened⟩ := h
  have hdrop : (signs ++ outer).dropWhile (· == .sign) = outer.dropWhile (· == .sign) :=
    List.dropWhile_append_of_pos fun opener hmem => beq_iff_eq.mpr (hsigns opener hmem)
  rw [settled, hopened, hdrop, houter]

/-- Whether the last token completes an operand, with nothing but its prefix operators open inside
some openers. -/
structure Completes (outer : List Opener) (w : Openers) : Prop where
  complete : w.complete = true
  isInside : w.IsInside outer

theorem completes_self (outer : List Opener) : Completes outer ⟨outer, true⟩ :=
  ⟨rfl, isInside_self outer true⟩

/-- An infix operator or a comma behind a complete operand ends its prefix operators. -/
theorem Completes.step_separator {outer : List Opener} {w : Openers} (h : w.Completes outer)
    (houter : IsSettled outer) {kind : TokenKind}
    (hkind : (∃ symbol, kind = .operator symbol) ∨ kind = .comma) :
    w.step kind = ⟨outer, false⟩ := by
  have hsettled := h.isInside.settled_eq houter
  rcases hkind with ⟨symbol, rfl⟩ | rfl
  · rw [step, if_pos h.complete, hsettled]
  · rw [step, hsettled]

/-- The result of a prefix operator is complete where its operand is. -/
theorem Completes.of_sign {outer : List Opener} {w : Openers} (h : w.Completes (.sign :: outer)) :
    w.Completes outer :=
  ⟨h.complete, h.isInside.of_sign⟩

end Openers

end TypedCalc
