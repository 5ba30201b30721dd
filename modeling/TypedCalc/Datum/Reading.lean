/-!
# Readings

A reader of nested data takes something off the front of a text and goes on with what is left.  A
`Reading` is such a result, and it says that the text has become shorter: that is why readers that
call each other come to an end.
-/

namespace TypedCalc

/-- A result and the text after it, which is shorter than `bound`. -/
structure Reading (α : Type) (bound : Nat) where
  /-- The result. -/
  result : α
  /-- The text after it. -/
  rest : List Char
  /-- The text has become shorter. -/
  shorter : rest.length < bound

namespace Reading

/-- A result with the text after it, if that is shorter than `bound`. -/
def of? {α : Type} {bound : Nat} (result : α) (rest : List Char) : Option (Reading α bound) :=
  if h : rest.length < bound then some ⟨result, rest, h⟩ else none

theorem of?_eq_some {α : Type} {bound : Nat} {result : α} {rest : List Char}
    (h : rest.length < bound) : of? result rest = some ⟨result, rest, h⟩ := dif_pos h

end Reading

end TypedCalc
