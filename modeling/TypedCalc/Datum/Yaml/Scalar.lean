import TypedCalc.Datum.Yaml.Fault
import TypedCalc.Text.Numeral

/-!
# Scalars of a YAML text

A scalar is quoted or plain.  A plain one ends where a colon or a comment begins, and inside
brackets also at a comma or a bracket.  Both may go on over line ends: a line end counts as a
space, and further empty lines count as themselves (`fold`).
-/

namespace TypedCalc.Yaml

/-! ## Characters -/

/-- Whether a character ends a line. -/
def isLineEnd (c : Char) : Bool := c == '\n' || c == '\x85' || c == '\u2028' || c == '\u2029'

/-- Whether a text is at the end of a line. -/
def atLineEnd : List Char → Bool
  | [] => true
  | c :: _ => isLineEnd c

/-- Whether a text starts with a space, a tab or the end of a line. -/
def atGap : List Char → Bool
  | [] => true
  | c :: _ => c == ' ' || c == '\t' || isLineEnd c

/-- Whether a character can stand in a YAML text. -/
def isAllowed (c : Char) : Bool :=
  let n := c.toNat
  n == 0x09 || n == 0x0a || n == 0x0d || (0x20 ≤ n && n ≤ 0x7e) || n == 0x85 ||
    (0xa0 ≤ n && n ≤ 0xd7ff) || (0xe000 ≤ n && n ≤ 0xfffd) || 0x10000 ≤ n

/-- The marks that no plain scalar starts with. -/
def marks : List Char :=
  [',', '[', ']', '\x7b', '\x7d', '#', '&', '*', '!', '|', '>', '\'', '"', '%', '@', '\x60']

/-- The marks that end a plain scalar inside brackets. -/
def flowMarks : List Char := [',', '?', '[', ']', '\x7b', '\x7d']

/-! ## Lines -/

/-- What the end of an empty line counts as. -/
def lineEnd (c : Char) : Char := if c = '\x85' then '\n' else c

/-- The line ends in front of a text, the indentation of the line after them, and that line. -/
def skipBlankLines (column : Nat) : List Char → List Char × Nat × List Char
  | [] => ([], column, [])
  | c :: rest =>
    if c = ' ' then skipBlankLines (column + 1) rest
    else if isLineEnd c then
      let (ends, line) := skipBlankLines 0 rest
      (lineEnd c :: ends, line)
    else ([], column, c :: rest)

/-- What a line end and those of the empty lines after it count as.  The first one counts as a
space or not at all, unless it is of a kind that counts as itself. -/
def fold (first : Char) (ends : List Char) : List Char :=
  if lineEnd first ≠ '\n' then first :: ends else if ends.isEmpty then [' '] else ends

/-- Whether a line is a mark between documents. -/
def isDocumentMark (column : Nat) : List Char → Bool
  | a :: b :: c :: rest =>
    column == 0 && atGap rest &&
      ([a, b, c] == ['-', '-', '-'] || [a, b, c] == ['.', '.', '.'])
  | _ => false

/-! ## Plain scalars -/

/-- Whether a colon at the front of a text ends a key. -/
def isColon (flow : Bool) : List Char → Bool
  | ':' :: rest =>
    atGap rest || (flow && match rest with
      | c :: _ => [',', '[', ']', '\x7b', '\x7d'].contains c
      | [] => true)
  | _ => false

/-- Whether a plain scalar can start at the front of a text. -/
def startsPlain (flow : Bool) : List Char → Bool
  | [] => false
  | '-' :: rest => !atGap rest
  | c :: rest =>
    if c = '?' ∨ c = ':' then !flow && !atGap rest
    else !atGap [c] && !marks.contains c

/-- Whether a plain scalar ends at the front of a text. -/
def endsPlain (flow : Bool) (cs : List Char) : Bool :=
  match cs with
  | [] => true
  | c :: _ => c == '\t' || isLineEnd c || isColon flow cs || (flow && flowMarks.contains c)

/-- The part of a plain scalar on one line, and the text after it.  Spaces belong to the scalar
if it goes on after them. -/
def plainLine (flow : Bool) : List Char → List Char × List Char
  | [] => ([], [])
  | c :: rest =>
    let next := (c :: rest).dropWhile (· == ' ')
    if endsPlain flow next || (c == ' ' && next.head? == some '#') then ([], c :: rest)
    else
      let (text, after) := plainLine flow rest
      (c :: text, after)

/-- A plain scalar and the text after it.  It goes on over a line end if the next line is
indented by `limit` or more and can belong to it. -/
def plain (flow : Bool) (limit : Nat) (cs : List Char) : List Char × List Char :=
  let (text, after) := plainLine flow cs
  match after.dropWhile (· == ' ') with
  | [] => (text, after)
  | c :: next =>
    let (ends, column, content) := skipBlankLines 0 next
    if isLineEnd c && (flow || limit ≤ column) && content.head? != some '#' &&
        !isDocumentMark column content && !endsPlain flow content then
      if _h : content.length < cs.length then
        let (more, rest) := plain flow limit content
        (text ++ fold c ends ++ more, rest)
      else (text, after)
    else (text, after)
termination_by cs.length

/-! ## Quoted scalars -/

/-- The line ends and the blanks around them at the front of a text inside quotes. -/
def lineGap (cs : List Char) : List Char :=
  cs.takeWhile fun c => c == ' ' || c == '\t' || isLineEnd c

/-- What the line ends in a gap count as. -/
def lineEnds (gap : List Char) : List Char := (gap.filter isLineEnd).map lineEnd

/-- Blanks and line ends inside quotes as they count, and the text after them: blanks around a
line end do not count. -/
def quotedGap (cs : List Char) : List Char × List Char :=
  let blanks := cs.takeWhile fun c => c == ' ' || c == '\t'
  match cs.dropWhile fun c => c == ' ' || c == '\t' with
  | c :: rest =>
    if isLineEnd c then
      let gap := lineGap rest
      (fold c (lineEnds gap), rest.drop gap.length)
    else (blanks, c :: rest)
  | [] => (blanks, [])

/-- The text of a single-quoted scalar after its opening quote, and the text after its closing
quote.  A quote inside is written twice. -/
def singleQuoted (cs : List Char) : Except Fault (List Char × List Char) :=
  match cs with
  | [] => .error .malformed
  | '\'' :: '\'' :: rest => do
    let (text, after) ← singleQuoted rest
    return ('\'' :: text, after)
  | '\'' :: rest => .ok ([], rest)
  | c :: rest =>
    if atGap [c] then
      let (gap, next) := quotedGap (c :: rest)
      if _h : next.length < rest.length + 1 then do
        let (text, after) ← singleQuoted next
        return (gap ++ text, after)
      else .error .malformed
    else do
      let (text, after) ← singleQuoted rest
      return (c :: text, after)
termination_by cs.length

/-- The character that a letter after a backslash stands for. -/
def escapes : List (Char × Char) :=
  [('0', '\x00'), ('a', '\x07'), ('b', '\x08'), ('t', '\t'), ('\t', '\t'), ('n', '\n'),
   ('v', '\x0b'), ('f', '\x0c'), ('r', '\r'), ('e', '\x1b'), (' ', ' '), ('"', '"'),
   ('\\', '\\'), ('/', '/'), ('N', '\x85'), ('_', '\xa0'), ('L', '\u2028'), ('P', '\u2029')]

/-- How many hexadecimal digits follow a letter after a backslash. -/
def escapeWidth? : Char → Option Nat
  | 'x' => some 2
  | 'u' => some 4
  | 'U' => some 8
  | _ => none

/-- The character with a number. -/
def charOf (n : Nat) : Except Fault Char :=
  if n.isValidChar then .ok (Char.ofNat n)
  else if 2 ^ 31 ≤ n then .error .escapeTooLarge
  else if 0x110000 ≤ n then .error .noCharacter
  else .error .malformed

/-- The character that an escape stands for after its backslash, and the text after it. -/
def escape : List Char → Except Fault (Char × List Char)
  | [] => .error .malformed
  | letter :: rest =>
    match escapeWidth? letter with
    | some width =>
      let digits := rest.take width
      if digits.length = width ∧ digits.all (Numeral.isDigitOf 16) then
        (charOf (Numeral.read 16 digits)).map (·, rest.drop width)
      else .error .malformed
    | none => orMalformed ((escapes.lookup letter).map (·, rest))

/-- The text of a double-quoted scalar after its opening quote, and the text after its closing
quote.  A line end after a backslash does not count, and neither do the blanks after it. -/
def doubleQuoted (cs : List Char) : Except Fault (List Char × List Char) :=
  match cs with
  | [] => .error .malformed
  | '"' :: rest => .ok ([], rest)
  | '\\' :: rest =>
    if atLineEnd rest then
      let gap := lineGap (rest.drop 1)
      let next := rest.drop (gap.length + 1)
      if _h : next.length < rest.length + 1 then do
        let (text, after) ← doubleQuoted next
        return (lineEnds gap ++ text, after)
      else .error .malformed
    else do
      let (c, next) ← escape rest
      if _h : next.length < rest.length + 1 then do
        let (text, after) ← doubleQuoted next
        return (c :: text, after)
      else .error .malformed
  | c :: rest =>
    if atGap [c] then
      let (gap, next) := quotedGap (c :: rest)
      if _h : next.length < rest.length + 1 then do
        let (text, after) ← doubleQuoted next
        return (gap ++ text, after)
      else .error .malformed
    else do
      let (text, after) ← doubleQuoted rest
      return (c :: text, after)
termination_by cs.length
decreasing_by all_goals (simp only [List.length_cons]; omega)

/-- Whether a text starts with a quote. -/
def startsQuoted (cs : List Char) : Bool := cs.head? == some '\'' || cs.head? == some '"'

/-- The text of the quoted scalar at the front of a text, and the text after it. -/
def quoted : List Char → Except Fault (List Char × List Char)
  | '\'' :: rest => singleQuoted rest
  | '"' :: rest => doubleQuoted rest
  | _ => .error .malformed

end TypedCalc.Yaml
