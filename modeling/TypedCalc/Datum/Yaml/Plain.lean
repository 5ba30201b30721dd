import TypedCalc.Binary64.Arithmetic
import TypedCalc.Datum.Basic
import TypedCalc.Datum.Yaml.Fault
import TypedCalc.Datum.Yaml.Timestamp
import TypedCalc.Text.Numeral
import TypedCalc.Text.Pieces

/-!
# Plain scalars

What an unquoted word of a configuration file stands for: nothing, a truth value, a number, or
else the text itself.

A whole number is decimal, octal after a zero, hexadecimal after `0x` or binary after `0b`; any
other number has a point, and an exponent only with a sign.  Underscores may stand after the first
digit.  Numbers with colons count in sixtieths, as hours, minutes and seconds do.
-/

namespace TypedCalc.Yaml

/-! ## Names -/

/-- The spellings of nothing. -/
def nullNames : List String := ["", "~", "null", "Null", "NULL"]

/-- The spellings of a true flag. -/
def trueNames : List String :=
  ["true", "True", "TRUE", "yes", "Yes", "YES", "on", "On", "ON"]

/-- The spellings of a false flag. -/
def falseNames : List String :=
  ["false", "False", "FALSE", "no", "No", "NO", "off", "Off", "OFF"]

/-- The spellings of infinity without a sign. -/
def infinityNames : List String := [".inf", ".Inf", ".INF"]

/-- The spellings of no number. -/
def nanNames : List String := [".nan", ".NaN", ".NAN"]

/-- What a name stands for. -/
def ofName? (name : String) : Option Datum :=
  if nullNames.contains name then some .null
  else if trueNames.contains name then some (.bool true)
  else if falseNames.contains name then some (.bool false)
  else if nanNames.contains name then some (.float .nan)
  else none

/-- Whether there is a minus sign, and the text after a sign. -/
def splitSign : List Char → Bool × List Char
  | '-' :: rest => (true, rest)
  | '+' :: rest => (false, rest)
  | cs => (false, cs)

/-! ## Digits -/

/-- Whether a character can stand in a group of digits. -/
def isGroupChar (c : Char) : Bool := c.isDigit || c == '_'

/-- Whether a text is a group of digits: underscores may stand after the first digit. -/
def isGroup (cs : List Char) : Bool := (cs.head?.map Char.isDigit).getD false && cs.all isGroupChar

/-- A group without its underscores. -/
def ungroup (cs : List Char) : List Char := cs.filter (· != '_')

/-- Whether a text is a number below sixty, of one digit or two. -/
def isSixtieth : List Char → Bool
  | [c] => c.isDigit
  | [tens, ones] => Numeral.isDigitOf 6 tens && ones.isDigit
  | _ => false

/-! ## Whole numbers -/

/-- The digits in a text of digits of a base and underscores. -/
def groupedDigits? (base : Nat) (cs : List Char) : Option (List Char) :=
  if !cs.isEmpty && cs.all (fun c => c == '_' || Numeral.isDigitOf base c) then some (ungroup cs)
  else none

/-- The base and the digits of a whole number without a sign. -/
def basedDigits? : List Char → Option (Nat × List Char)
  | ['0'] => some (10, ['0'])
  | '0' :: 'x' :: rest => (groupedDigits? 16 rest).map (16, ·)
  | '0' :: 'b' :: rest => (groupedDigits? 2 rest).map (2, ·)
  | '0' :: rest => (groupedDigits? 8 ('0' :: rest)).map (8, ·)
  | '_' :: _ => none
  | cs => (groupedDigits? 10 cs).map (10, ·)

/-- The whole number that a text without a sign denotes.  A base may be named without a digit. -/
def natural? (cs : List Char) : Option (Except Fault Nat) :=
  match Text.pieces ':' cs with
  | first :: second :: others =>
    if isGroup first && first.head? != some '0' && (second :: others).all isSixtieth then
      some (.ok ((second :: others).foldl (fun total part => total * 60 + Numeral.read 10 part)
        (Numeral.read 10 (ungroup first))))
    else none
  | _ =>
    (basedDigits? cs).map fun (base, digits) =>
      if digits.isEmpty then .error (.noDigits base) else .ok (Numeral.read base digits)

/-! ## Numbers with a point -/

/-- The number with digits before and after its point. -/
def decimal (whole fraction : List Char) (exponent : Int) : Decimal :=
  ⟨Numeral.read 10 (ungroup (whole ++ fraction)), exponent - ((ungroup fraction).length : Int)⟩

/-- The exponent at the end of a number: none, or a letter, a sign and digits. -/
def exponent? : List Char → Option Int
  | [] => some 0
  | letter :: sign :: digits =>
    if (letter = 'e' ∨ letter = 'E') ∧ (sign = '-' ∨ sign = '+') ∧ digits ≠ [] ∧
        digits.all Char.isDigit then
      let exponent : Int := Numeral.read 10 digits
      some (if sign = '-' then -exponent else exponent)
    else none
  | _ => none

/-- The number with a point that a text without a sign denotes.  If there is no digit before the
point, there is one right after it. -/
def decimal? (cs : List Char) : Option Decimal :=
  let whole := cs.takeWhile isGroupChar
  match cs.dropWhile isGroupChar with
  | '.' :: rest =>
    let fraction := rest.takeWhile isGroupChar
    if isGroup whole || (whole.isEmpty && isGroup fraction) then
      (exponent? (rest.dropWhile isGroupChar)).map (decimal whole fraction)
    else none
  | _ => none

/-- The sum of doubles of which each counts sixty times as much as the one after it, taken from
the last one on. -/
def sumSixtieths (parts : List Binary64) : Binary64 :=
  (parts.foldr (fun part (total, weight) =>
    (total.add (part.mul (.ofInt weight)), weight * 60)) (.zero false, 1)).1

/-- The double that groups of digits between colons denote, the last one with a point. -/
def sixtieths? (cs : List Char) : Option Binary64 :=
  let parts := Text.pieces ':' cs
  match parts.dropLast, parts.getLast? with
  | first :: middle, some last =>
    let whole := last.takeWhile Char.isDigit
    match last.dropWhile Char.isDigit with
    | '.' :: fraction =>
      if isGroup first && (middle ++ [whole]).all isSixtieth && fraction.all isGroupChar then
        let doubles := (first :: middle).map fun part => (decimal part [] 0).toBinary64 false
        some (sumSixtieths (doubles ++ [(decimal whole fraction 0).toBinary64 false]))
      else none
    | _ => none
  | _, _ => none

/-- The double that a text denotes.  A number without a digit before its point has no sign. -/
def double? (cs : List Char) : Option Binary64 :=
  let (negative, body) := splitSign cs
  if infinityNames.contains (String.ofList body) then some (.infinity negative)
  else if body.head? = some '.' ∧ body ≠ cs then none
  else
    match decimal? body with
    | some number => some (number.toBinary64 negative)
    | none => (sixtieths? body).map (Binary64.withSign negative)

/-! ## The meaning of a plain scalar -/

/-- What a plain scalar stands for. -/
def ofPlain (cs : List Char) : Except Fault Datum :=
  let (negative, body) := splitSign cs
  match ofName? (String.ofList cs), natural? body, double? cs with
  | some datum, _, _ => .ok datum
  | none, some number, _ => number.map fun n => .integer (if negative then -(n : Int) else n)
  | none, none, some x => .ok (.float x)
  | none, none, none => .ok (.string (String.ofList cs))

/-- The mark for the value of a mapping. -/
def valueMark : List Char := ['=']

/-- The mark for entries that are merged into a mapping. -/
def mergeMark : List Char := ['<', '<']

/-- Whether a plain scalar stands for its own text and for nothing else. -/
def isOwnText (cs : List Char) : Bool :=
  cs != valueMark && cs != mergeMark && !isTimestamp cs &&
    match ofPlain cs with
    | .ok (.string _) => true
    | _ => false

end TypedCalc.Yaml
