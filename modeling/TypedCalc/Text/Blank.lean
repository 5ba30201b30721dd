/-!
# Blank characters

The characters that separate tokens and words: the spaces, the line and paragraph separators and
the control characters that move the position, including the four information separators.
`Text.squeeze` writes the words of a text with single spaces between them.
-/

namespace TypedCalc.Text

/-- Whether a character is blank. -/
def isBlank (c : Char) : Bool :=
  let n := c.toNat
  (0x09 ≤ n && n ≤ 0x0d) || (0x1c ≤ n && n ≤ 0x20) || n == 0x85 || n == 0xa0 || n == 0x1680 ||
    (0x2000 ≤ n && n ≤ 0x200a) || n == 0x2028 || n == 0x2029 || n == 0x202f || n == 0x205f ||
    n == 0x3000

/-- The words of a text, read from the end: the word being read and the finished ones. -/
def wordsStep (c : Char) (state : List Char × List (List Char)) :
    List Char × List (List Char) :=
  if isBlank c then
    if state.1.isEmpty then state else ([], state.1 :: state.2)
  else (c :: state.1, state.2)

/-- The runs of characters between blanks. -/
def words (cs : List Char) : List (List Char) :=
  let state := cs.foldr wordsStep ([], [])
  if state.1.isEmpty then state.2 else state.1 :: state.2

/-- The words of a text with one space between neighbours. -/
def squeeze (cs : List Char) : List Char := List.intercalate [' '] (words cs)

/-- Whether a character is blank and no information separator. -/
def isPadding (c : Char) : Bool := isBlank c && !(0x1c ≤ c.toNat && c.toNat ≤ 0x1f)

/-- A text without the padding at its two ends. -/
def trim (cs : List Char) : List Char :=
  ((cs.dropWhile isPadding).reverse.dropWhile isPadding).reverse

end TypedCalc.Text
