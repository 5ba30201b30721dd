/-!
# Pieces of a text

The texts between the places where a mark stands, one more than there are marks.
-/

namespace TypedCalc.Text

/-- The texts between marks. -/
def pieces (mark : Char) : List Char → List (List Char)
  | [] => [[]]
  | c :: rest =>
    if c = mark then [] :: pieces mark rest
    else match pieces mark rest with
      | [] => [[c]]
      | piece :: others => (c :: piece) :: others

end TypedCalc.Text
