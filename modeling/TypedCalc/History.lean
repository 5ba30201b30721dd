import TypedCalc.Value.Basic

/-!
# History of results

A history keeps the most recent results up to its capacity, which is at least one.  Result zero is
the most recent one.  Pushing onto a full history drops the oldest result.

`History.recent_push` and `History.recent_pushAll` say what an operation leaves: the newest results
of everything that was ever pushed.
-/

namespace TypedCalc

/-- The most recent results, at most `capacity` of them. -/
structure History where
  /-- How many results are kept. -/
  capacity : Nat
  /-- The results, the most recent first. -/
  recent : List Value
  /-- At least one result can be kept. -/
  capacity_pos : 0 < capacity
  /-- No more results are kept than the capacity allows. -/
  length_le : recent.length ≤ capacity

/-- A history was to keep fewer than one result. -/
structure CapacityFault where
  /-- The capacity asked for. -/
  capacity : Int
  deriving DecidableEq, Repr

/-- The wording of the fault. -/
def CapacityFault.message (fault : CapacityFault) : String :=
  "History capacity must be at least 1, got " ++ toString fault.capacity

namespace History

/-- How many results a history keeps when nothing else is said. -/
def defaultCapacity : Nat := 10

/-- A history without results. -/
def empty (capacity : Nat) (h : 0 < capacity) : History := ⟨capacity, [], h, Nat.zero_le _⟩

/-- A history without results, unless the capacity is below one. -/
def empty? (capacity : Int) : Except CapacityFault History :=
  if h : 0 < capacity.toNat then .ok (empty capacity.toNat h) else .error ⟨capacity⟩

/-- A history with one more result, which becomes the most recent. -/
def push (history : History) (value : Value) : History where
  capacity := history.capacity
  recent := (value :: history.recent).take history.capacity
  capacity_pos := history.capacity_pos
  length_le := by simp only [List.length_take]; omega

/-- A history with a list of results pushed in order, so that the last becomes the most recent. -/
def pushAll (history : History) (values : List Value) : History := values.foldl push history

/-- The same history without its results. -/
def clear (history : History) : History := empty history.capacity history.capacity_pos

/-- The number of results kept. -/
def size (history : History) : Nat := history.recent.length

/-- The result that many steps back. -/
def get? (history : History) (index : Nat) : Option Value := history.recent[index]?

/-- The results, the oldest first. -/
def toList (history : History) : List Value := history.recent.reverse

/-- A short text that says how full the history is. -/
def summary (history : History) : String :=
  "CLCHistory(capacity=" ++ toString history.capacity ++ ", size=" ++ toString history.size ++ ")"

@[simp] theorem capacity_push (history : History) (value : Value) :
    (history.push value).capacity = history.capacity := rfl

@[simp] theorem recent_push (history : History) (value : Value) :
    (history.push value).recent = (value :: history.recent).take history.capacity := rfl

@[simp] theorem capacity_pushAll (history : History) (values : List Value) :
    (history.pushAll values).capacity = history.capacity := by
  induction values generalizing history with
  | nil => rfl
  | cons value rest ih => exact (ih _).trans rfl

/-- After a list of pushes the history holds the newest of all results. -/
theorem recent_pushAll (history : History) (values : List Value) :
    (history.pushAll values).recent =
      (values.reverse ++ history.recent).take history.capacity := by
  induction values generalizing history with
  | nil => simp [pushAll, List.take_of_length_le history.length_le]
  | cons value rest ih =>
    show (pushAll (history.push value) rest).recent = _
    have hpos := history.capacity_pos
    rw [ih, capacity_push, recent_push]
    simp only [List.reverse_cons, List.append_assoc, List.singleton_append]
    rw [List.take_append, List.take_append, List.take_take, Nat.min_eq_left (Nat.sub_le _ _)]

end History

end TypedCalc
