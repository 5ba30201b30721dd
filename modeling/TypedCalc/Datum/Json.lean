import TypedCalc.Datum.Basic
import TypedCalc.Datum.Reading

/-!
# Data as JSON

Reading takes JSON with three additions: `NaN`, `Infinity` and `-Infinity` are numbers.  A number
without a point and an exponent is a whole number, and any other is a double.  A key that comes up
again replaces the earlier entry.

Writing has two layouts: one line with a space after every comma and colon, and one item a line
with four spaces of indentation for each level.  Only quotes, backslashes and control characters
are escaped.
-/

namespace TypedCalc.Datum

/-! ## Reading -/

/-- Whether a character separates the parts of a JSON text. -/
def isJsonBlank (c : Char) : Bool := c == ' ' || c == '\t' || c == '\n' || c == '\r'

/-- A text without the blanks in front. -/
def skipBlanks (cs : List Char) : List Char := cs.dropWhile isJsonBlank

theorem length_skipBlanks_le (cs : List Char) : (skipBlanks cs).length ≤ cs.length :=
  (List.dropWhile_suffix _).length_le

/-- The value of a hexadecimal digit. -/
def hexDigit? (c : Char) : Option Nat :=
  if Numeral.isDigitOf 16 c then some (Numeral.digitValue c) else none

/-- The number that four hexadecimal digits denote. -/
def hexUnit? (a b c d : Char) : Option Nat := do
  let a ← hexDigit? a
  let b ← hexDigit? b
  let c ← hexDigit? c
  let d ← hexDigit? d
  return ((a * 16 + b) * 16 + c) * 16 + d

/-- The character that a letter after a backslash stands for. -/
def escaped? : Char → Option Char
  | '"' => some '"'
  | '\\' => some '\\'
  | '/' => some '/'
  | 'b' => some '\x08'
  | 'f' => some '\x0c'
  | 'n' => some '\n'
  | 'r' => some '\r'
  | 't' => some '\t'
  | _ => none

/-- The units of a string up to its closing quote, and the text after the quote.  A unit is the
number of a character or half of a pair that stands for one. -/
def readUnits : List Char → Option (List Nat × List Char)
  | [] => none
  | '"' :: rest => some ([], rest)
  | '\\' :: 'u' :: a :: b :: c :: d :: rest => do
    let unit ← hexUnit? a b c d
    let (units, after) ← readUnits rest
    return (unit :: units, after)
  | '\\' :: c :: rest => do
    let unit ← escaped? c
    let (units, after) ← readUnits rest
    return (unit.toNat :: units, after)
  | c :: rest =>
    if c.toNat < 0x20 ∨ c = '\\' then none
    else do
      let (units, after) ← readUnits rest
      return (c.toNat :: units, after)

/-- The characters that units stand for, pairs joined. -/
def joinUnits : List Nat → List Char
  | high :: low :: rest =>
    if 0xd800 ≤ high ∧ high < 0xdc00 ∧ 0xdc00 ≤ low ∧ low < 0xe000 then
      Char.ofNat (0x10000 + (high - 0xd800) * 0x400 + (low - 0xdc00)) :: joinUnits rest
    else Char.ofNat high :: joinUnits (low :: rest)
  | [unit] => [Char.ofNat unit]
  | [] => []

/-- The string up to its closing quote, and the text after the quote. -/
def readString (cs : List Char) : Option (String × List Char) :=
  (readUnits cs).map fun result => (String.ofList (joinUnits result.1), result.2)

/-- The digits of an exponent with its letter and sign: the exponent and the number of
characters, or nothing if there is no digit. -/
def readExponent? : List Char → Option (Int × Nat)
  | letter :: rest =>
    if letter = 'e' ∨ letter = 'E' then
      let (negative, length, body) := match rest with
        | '-' :: body => (true, 2, body)
        | '+' :: body => (false, 2, body)
        | body => (false, 1, body)
      let digits := body.takeWhile Char.isDigit
      if digits.isEmpty then none
      else
        let exponent : Int := Numeral.read 10 digits
        some (if negative then -exponent else exponent, length + digits.length)
    else none
  | [] => none

/-- The fraction digits after a point, if there are any. -/
def readFraction : List Char → List Char
  | '.' :: rest => rest.takeWhile Char.isDigit
  | _ => []

/-- The digits before the point: a single zero, or digits that do not start with one. -/
def readWhole (cs : List Char) : List Char :=
  match cs with
  | '0' :: _ => ['0']
  | _ => cs.takeWhile Char.isDigit

/-- The number that a text starts with, and the number of its characters. -/
def readNumber? (cs : List Char) : Option (Datum × Nat) :=
  let negative := cs.head? == some '-'
  let sign := if negative then 1 else 0
  let body := cs.drop sign
  let whole := readWhole body
  if whole.isEmpty then none
  else
    let fraction := readFraction (body.drop whole.length)
    let point := if fraction.isEmpty then 0 else fraction.length + 1
    let tail := body.drop (whole.length + point)
    match readExponent? tail, fraction with
    | none, [] =>
      let n : Int := Numeral.read 10 whole
      some (.integer (if negative then -n else n), sign + whole.length)
    | exponent, fraction =>
      let power := (exponent.map (·.1)).getD 0
      let length := (exponent.map (·.2)).getD 0
      let decimal : Decimal :=
        ⟨Numeral.read 10 (whole ++ fraction), power - (fraction.length : Int)⟩
      some (.float (decimal.toBinary64 negative), sign + whole.length + point + length)

/-- The names of data, with what they stand for. -/
def names : List (List Char × Datum) :=
  [("null".toList, .null), ("true".toList, .bool true), ("false".toList, .bool false),
   ("NaN".toList, .float .nan), ("Infinity".toList, .float (.infinity false)),
   ("-Infinity".toList, .float (.infinity true))]

/-- The name or number that a text starts with, and the number of its characters. -/
def readScalar? (cs : List Char) : Option (Datum × Nat) :=
  match names.find? fun entry => entry.1.isPrefixOf cs with
  | some (name, datum) => some (datum, name.length)
  | none => readNumber? cs

mutual

/-- The datum that a text starts with. -/
def readDatum (cs : List Char) : Option (Reading Datum cs.length) :=
  match cs with
  | '"' :: rest => do
    let (text, after) ← readString rest
    Reading.of? (.string text) after
  | '[' :: rest =>
    have _hskip := length_skipBlanks_le rest
    match _hinner : skipBlanks rest with
    | ']' :: after => Reading.of? (.list []) after
    | inner => do
      let items ← readItems inner
      Reading.of? (.list items.result) items.rest
  | '\x7b' :: rest =>
    have _hskip := length_skipBlanks_le rest
    match _hinner : skipBlanks rest with
    | '\x7d' :: after => Reading.of? (.mapping []) after
    | inner => do
      let entries ← readEntries inner
      Reading.of? (ofEntries entries.result) entries.rest
  | cs => do
    let (datum, length) ← readScalar? cs
    Reading.of? datum (cs.drop length)
termination_by 2 * cs.length
decreasing_by all_goals (rw [← _hinner]; simp only [List.length_cons]; omega)

/-- The items of a list up to its closing bracket. -/
def readItems (cs : List Char) : Option (Reading (List Datum) cs.length) := do
  let first ← readDatum cs
  have hfirst := first.shorter
  have hskip := length_skipBlanks_le first.rest
  match h : skipBlanks first.rest with
  | ']' :: after => Reading.of? [first.result] after
  | ',' :: after =>
    have hafter : after.length < (skipBlanks first.rest).length := by simp [h]
    have hnext := length_skipBlanks_le after
    let others ← readItems (skipBlanks after)
    Reading.of? (first.result :: others.result) others.rest
  | _ => none
termination_by 2 * cs.length + 1
decreasing_by all_goals omega

/-- The entries of a mapping up to its closing brace. -/
def readEntries (cs : List Char) : Option (Reading (List (Datum × Datum)) cs.length) :=
  match cs with
  | '"' :: rest => do
    let (key, afterKey) ← readString rest
    match h : skipBlanks afterKey with
    | ':' :: afterColon =>
      if hlength : (skipBlanks afterColon).length ≤ rest.length then
        let value ← readDatum (skipBlanks afterColon)
        have hvalue := value.shorter
        have hskip := length_skipBlanks_le value.rest
        match hrest : skipBlanks value.rest with
        | '\x7d' :: after => Reading.of? [(.string key, value.result)] after
        | ',' :: after =>
          have hafter : after.length < (skipBlanks value.rest).length := by simp [hrest]
          have hnext := length_skipBlanks_le after
          let others ← readEntries (skipBlanks after)
          Reading.of? ((.string key, value.result) :: others.result) others.rest
        | _ => none
      else none
    | _ => none
  | _ => none
termination_by 2 * cs.length + 1
decreasing_by all_goals (simp only [List.length_cons]; omega)

end

/-- The datum that a whole text stands for. -/
def ofJson? (text : String) : Option Datum := do
  let reading ← readDatum (skipBlanks text.toList)
  if (skipBlanks reading.rest).isEmpty then some reading.result else none

/-! ## Writing -/

/-- A character inside a JSON string. -/
def jsonChar (c : Char) : List Char :=
  match c with
  | '"' => ['\\', '"']
  | '\\' => ['\\', '\\']
  | '\n' => ['\\', 'n']
  | '\r' => ['\\', 'r']
  | '\t' => ['\\', 't']
  | '\x08' => ['\\', 'b']
  | '\x0c' => ['\\', 'f']
  | c => if c.toNat < 0x20 then '\\' :: 'u' :: Numeral.writePadded 16 4 c.toNat else [c]

/-- A string between quotes. -/
def jsonString (text : String) : List Char :=
  '"' :: (text.toList.flatMap jsonChar ++ ['"'])

/-- A double in JSON. -/
def jsonFloat : Binary64 → List Char
  | .nan => "NaN".toList
  | .infinity negative => if negative then "-Infinity".toList else "Infinity".toList
  | .finite negative units _ => Binary64.finiteText negative units

/-- The text of a key. -/
def keyText : Datum → String
  | .null => "null"
  | .bool flag => if flag then "true" else "false"
  | .float x => String.ofList (jsonFloat x)
  | .string text => text
  | other => other.display

/-- The key of an entry with the colon after it.  A key that is not a text is written as the text
that it has elsewhere in JSON. -/
def writeKey (key : Datum) : List Char := jsonString (keyText key) ++ [':', ' ']

/-- A layout of lists and mappings: what follows an opening bracket, what separates items and
what precedes the closing bracket, each at a given level. -/
structure JsonLayout where
  /-- After the opening bracket. -/
  opening : Nat → List Char
  /-- Between items. -/
  between : Nat → List Char
  /-- Before the closing bracket. -/
  closing : Nat → List Char

/-- Everything on one line. -/
def JsonLayout.line : JsonLayout := ⟨fun _ => [], fun _ => [',', ' '], fun _ => []⟩

/-- A line end and the indentation of a level. -/
def newLine (level : Nat) : List Char := '\n' :: List.replicate (4 * level) ' '

/-- One item a line, indented by four spaces a level. -/
def JsonLayout.indented : JsonLayout :=
  ⟨fun level => newLine (level + 1), fun level => ',' :: newLine (level + 1), newLine⟩

mutual

/-- A datum in JSON at a level of nesting. -/
def writeAt (layout : JsonLayout) (level : Nat) : Datum → List Char
  | .null => "null".toList
  | .bool flag => if flag then "true".toList else "false".toList
  | .integer n => Numeral.ofInt n
  | .float x => jsonFloat x
  | .string text => jsonString text
  | .list [] => ['[', ']']
  | .list (first :: rest) =>
    '[' :: layout.opening level ++ writeAt layout (level + 1) first ++
      writeItems layout level rest ++ layout.closing level ++ [']']
  | .mapping [] => ['\x7b', '\x7d']
  | .mapping ((key, value) :: rest) =>
    '\x7b' :: layout.opening level ++ writeKey key ++ writeAt layout (level + 1) value ++
      writeEntries layout level rest ++ layout.closing level ++ ['\x7d']

/-- The items of a list after the first, each with what separates it from the one before. -/
def writeItems (layout : JsonLayout) (level : Nat) : List Datum → List Char
  | [] => []
  | item :: rest =>
    layout.between level ++ writeAt layout (level + 1) item ++ writeItems layout level rest

/-- The entries of a mapping after the first. -/
def writeEntries (layout : JsonLayout) (level : Nat) : List (Datum × Datum) → List Char
  | [] => []
  | (key, value) :: rest =>
    layout.between level ++ writeKey key ++ writeAt layout (level + 1) value ++
      writeEntries layout level rest

end

/-- A datum as JSON on one line. -/
def toJson (datum : Datum) : String := String.ofList (writeAt .line 0 datum)

/-- A datum as JSON with one item a line. -/
def toIndentedJson (datum : Datum) : String := String.ofList (writeAt .indented 0 datum)

end TypedCalc.Datum
