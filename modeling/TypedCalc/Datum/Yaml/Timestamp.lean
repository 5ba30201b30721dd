/-!
# Points in time

A date is a year, a month and a day; a moment is a date and a time of day, to which a fraction of a
second and the distance from the zero meridian may be added.  Here only the spellings are told
apart from other texts: a text that looks like a point in time is never written without quotes.
-/

namespace TypedCalc.Yaml

/-- The text after a given character. -/
def after? (mark : Char) : List Char → Option (List Char)
  | c :: rest => if c = mark then some rest else none
  | [] => none

/-- The text after a run of digits, as many as allowed. -/
def afterDigits? (least most : Nat) (cs : List Char) : Option (List Char) :=
  let count := (cs.takeWhile Char.isDigit).length
  if least ≤ count ∧ count ≤ most then some (cs.drop count) else none

/-- The text after a year, a month and a day with some numbers of digits. -/
def afterDate? (least : Nat) (cs : List Char) : Option (List Char) := do
  let cs ← afterDigits? 4 4 cs
  let cs ← after? '-' cs
  let cs ← afterDigits? least 2 cs
  let cs ← after? '-' cs
  afterDigits? least 2 cs

/-- Whether a character is a space or a tab. -/
def isGapChar (c : Char) : Bool := c == ' ' || c == '\t'

/-- The text after what stands between a date and a time of day. -/
def afterDateMark? : List Char → Option (List Char)
  | 'T' :: rest | 't' :: rest => some rest
  | c :: rest => if isGapChar c then some (rest.dropWhile isGapChar) else none
  | [] => none

/-- The text after an hour, a minute and a second, with a fraction or without. -/
def afterTime? (cs : List Char) : Option (List Char) := do
  let cs ← afterDigits? 1 2 cs
  let cs ← after? ':' cs
  let cs ← afterDigits? 2 2 cs
  let cs ← after? ':' cs
  let cs ← afterDigits? 2 2 cs
  match cs with
  | '.' :: rest => some (rest.dropWhile Char.isDigit)
  | rest => some rest

/-- Whether a text is a distance from the zero meridian. -/
def isZone : List Char → Bool
  | ['Z'] => true
  | sign :: rest =>
    (sign == '-' || sign == '+') &&
      match afterDigits? 1 2 rest with
      | none => false
      | some [] => true
      | some minutes => ((after? ':' minutes).bind (afterDigits? 2 2)) == some []
  | [] => false

/-- Whether a text is the spelling of a date. -/
def isDate (cs : List Char) : Bool := afterDate? 2 cs == some []

/-- Whether a text is the spelling of a moment. -/
def isMoment (cs : List Char) : Bool :=
  match (afterDate? 1 cs).bind afterDateMark? |>.bind afterTime? with
  | none => false
  | some [] => true
  | some rest => isZone (rest.dropWhile isGapChar)

/-- Whether a text is the spelling of a point in time. -/
def isTimestamp (cs : List Char) : Bool := isDate cs || isMoment cs

end TypedCalc.Yaml
