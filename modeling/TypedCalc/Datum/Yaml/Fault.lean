/-!
# Faults of YAML texts

Why a text stands for no datum.  A text can break the rules of YAML, and it can follow them and
still name a character or a number that does not exist.
-/

namespace TypedCalc.Yaml

/-- A reason why a text stands for no datum. -/
inductive Fault
  /-- The text breaks the rules of YAML. -/
  | malformed
  /-- An escape has a number above that of the last character. -/
  | noCharacter
  /-- An escape has a number that needs more than 31 bits. -/
  | escapeTooLarge
  /-- There is no digit after the letter of a base. -/
  | noDigits (base : Nat)
  deriving DecidableEq, Repr

/-- The wording of a fault. -/
def Fault.message : Fault → String
  | .malformed => "the text is not valid YAML"
  | .noCharacter => "chr() arg not in range(0x110000)"
  | .escapeTooLarge => "the number of the character needs more than 31 bits"
  | .noDigits base => "invalid literal for int() with base " ++ toString base ++ ": ''"

/-- A result, if there is one, in a text that is malformed otherwise. -/
def orMalformed {α : Type} : Option α → Except Fault α
  | some result => .ok result
  | none => .error .malformed

end TypedCalc.Yaml
