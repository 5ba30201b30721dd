import TypedCalc.Datum.Json
import TypedCalc.Datum.Yaml.Plain
import TypedCalc.Datum.Yaml.Scalar

/-!
# Writing YAML

A text is written plain where the plain text reads back as the same text.  Otherwise it is quoted:
between single quotes if its characters are line ends or show as themselves, and between double
quotes with escapes if they do not.  Lists and mappings are written as JSON, which a flow is too.

A line that has become longer than `lineWidth` is broken at the next space, and the text goes on
with an indentation of two.
-/

namespace TypedCalc.Yaml

/-! ## How a text can be written -/

/-- Whether a character is ASCII and shows as itself. -/
def showsPlainly (c : Char) : Bool := ' ' ≤ c && c ≤ '~'

/-- Whether a text can stand without quotes. -/
def canBePlain (cs : List Char) : Bool :=
  cs.all showsPlainly && startsPlain false cs && plainLine false cs == (cs, []) &&
    !isDocumentMark 0 (cs.take 3) && isOwnText cs

/-- Whether a space and a line end stand side by side. -/
def hasSpaceAtLineEnd : List Char → Bool
  | a :: b :: rest =>
    (a == ' ' && b == '\n') || (a == '\n' && b == ' ') || hasSpaceAtLineEnd (b :: rest)
  | _ => false

/-- Whether a text can stand between single quotes. -/
def canBeSingleQuoted (cs : List Char) : Bool :=
  cs.all (fun c => c == '\n' || showsPlainly c) && !hasSpaceAtLineEnd cs

/-! ## Lines -/

/-- The number of characters after which a line is broken. -/
def lineWidth : Nat := 80

/-- A line end and the indentation after it. -/
def brokenLine : List Char := ['\n', ' ', ' ']

/-- The number of characters of the indentation of a line that goes on. -/
def brokenColumn : Nat := 2

/-- A text without escapes, from a column on.  A single space inside it is written as a line end if
the line is too long; line ends are written with one more, which together count as their number.
Other characters are written by `inside`. -/
def writeLines (inside : Char → List Char) (column : Nat) (before : Option Char) :
    List Char → List Char
  | [] => []
  | c :: rest =>
    if c = '\n' then
      let more := if before = some '\n' then ['\n'] else ['\n', '\n']
      let indentation := if rest.head? = some '\n' then [] else [' ', ' ']
      more ++ indentation ++ writeLines inside brokenColumn (some c) rest
    else
      let isSingle := c = ' ' ∧ before ≠ some ' ' ∧ rest.head? ≠ some ' '
      if isSingle ∧ before.isSome ∧ rest ≠ [] ∧ lineWidth < column then
        brokenLine ++ writeLines inside brokenColumn (some c) rest
      else
        let written := inside c
        written ++ writeLines inside (column + written.length) (some c) rest

/-! ## Quotes -/

/-- A quote inside single quotes is written twice. -/
def doubleQuote (c : Char) : List Char := if c = '\'' then ['\'', '\''] else [c]

/-- The escape of a character between double quotes, if it has one. -/
def escapeChar? (c : Char) : Option (List Char) :=
  let hex (width : Nat) : List Char := (Numeral.writePadded 16 width c.toNat).map Char.toUpper
  if c = '"' ∨ c = '\\' then some ['\\', c]
  else if showsPlainly c then none
  else match escapes.find? fun entry => entry.2 == c && entry.1 != '\t' with
    | some (letter, _) => some ['\\', letter]
    | none =>
      if c.toNat < 0x100 then some ('\\' :: 'x' :: hex 2)
      else if c.toNat < 0x10000 then some ('\\' :: 'u' :: hex 4)
      else some ('\\' :: 'U' :: hex 8)

/-- A line break between double quotes in front of a text, which does not count.  A space after it
has to be escaped. -/
def escapedBreak (next : List Char) : List Char :=
  '\\' :: brokenLine ++ if next.head? = some ' ' then ['\\'] else []

/-- The column after a line break between double quotes. -/
def columnAfterBreak (next : List Char) : Nat := (escapedBreak next).length - brokenColumn

/-- A text with escapes, from a column on.  A line that is too long is broken in front of a space
and before and after an escape, but not next to the first or the last character. -/
def writeEscaped (column : Nat) (isFirst afterEscape : Bool) : List Char → List Char
  | [] => []
  | c :: rest =>
    match escapeChar? c with
    | some text =>
      if !isFirst && !rest.isEmpty && lineWidth < column + text.length - 1 then
        text ++ escapedBreak rest ++ writeEscaped (columnAfterBreak rest) false true rest
      else text ++ writeEscaped (column + text.length) false true rest
    | none =>
      if !isFirst && !rest.isEmpty && (c == ' ' || afterEscape) && lineWidth < column then
        escapedBreak (c :: rest) ++
          c :: writeEscaped (columnAfterBreak (c :: rest) + 1) false false rest
      else c :: writeEscaped (column + 1) false false rest

/-! ## Data -/

/-- A text as a scalar, from a column on. -/
def writeString (column : Nat) (cs : List Char) : List Char :=
  if canBePlain cs then writeLines (fun c => [c]) column none cs
  else if canBeSingleQuoted cs then
    '\'' :: writeLines doubleQuote (column + 1) none cs ++ ['\'']
  else '"' :: writeEscaped (column + 1) true false cs ++ ['"']

/-- A double as a scalar: there is always a point. -/
def writeFloat : Binary64 → List Char
  | .nan => ".nan".toList
  | .infinity negative => if negative then "-.inf".toList else ".inf".toList
  | .finite negative units _ =>
    let text := Binary64.finiteText negative units
    if text.contains '.' then text
    else text.takeWhile (· != 'e') ++ ['.', '0'] ++ text.dropWhile (· != 'e')

/-- A datum, from a column on. -/
def writeDatum (column : Nat) : Datum → List Char
  | .null => "null".toList
  | .bool flag => if flag then "true".toList else "false".toList
  | .integer n => Numeral.ofInt n
  | .float x => writeFloat x
  | .string text => writeString column text.toList
  | .list items => (Datum.list items).toJson.toList
  | .mapping entries => (Datum.mapping entries).toJson.toList

/-- An entry of a mapping, which starts a line. -/
def writeEntry (entry : String × Datum) : List Char :=
  let key := entry.1.toList ++ [':', ' ']
  key ++ writeDatum key.length entry.2 ++ ['\n']

/-- A mapping with an entry after another. -/
def writeEntries (entries : List (String × Datum)) : String :=
  String.ofList (entries.flatMap writeEntry)

end TypedCalc.Yaml
