/-!
# Reports

What a user reads when something went wrong: a message, the place it happened, and up to five
further lines.  A part that is empty is left out, and a place once recorded is never replaced
(`Report.atPosition_of_some`).

A limit that was set in another way than by a number is written in messages as it was set; a
`LimitWording` says how.
-/

namespace TypedCalc

/-- The classes of errors. -/
inductive ErrorClass
  /-- Any error of the calculator. -/
  | general
  /-- The text is not made of tokens. -/
  | lexical
  /-- The tokens do not form an expression. -/
  | grammar
  /-- Operands or units do not fit an operation. -/
  | typing
  /-- An expression has no value. -/
  | evaluation
  /-- Integer division or remainder by zero. -/
  | divisionByZero
  /-- A history reference points past the history. -/
  | historyRange
  /-- A name is not built in. -/
  | unknownName
  /-- A call has the wrong number of arguments. -/
  | arity
  /-- No error of the calculator: the interpreter refuses to convert a number. -/
  | conversion
  deriving DecidableEq, Repr

/-- Whether a class is evaluation or one of its four special cases. -/
def ErrorClass.isEvaluation : ErrorClass → Bool
  | .evaluation | .divisionByZero | .historyRange | .unknownName | .arity => true
  | .general | .lexical | .grammar | .typing | .conversion => false

/-- How the limits of a calculator are written in messages: as numbers, if nothing else is said. -/
structure LimitWording where
  /-- The number of results that the history holds. -/
  capacity : Nat → String := toString
  /-- The depth of nesting. -/
  nesting : Int → String := toString

/-- An error as it is shown. -/
structure Report where
  /-- The class of the error. -/
  errorClass : ErrorClass
  /-- What went wrong. -/
  message : String
  /-- The index of the character where it happened, if it is known. -/
  position : Option Int := none
  /-- What was found. -/
  received : String := ""
  /-- What should have been there. -/
  expected : String := ""
  /-- The circumstances. -/
  context : String := ""
  /-- What to do about it. -/
  suggestion : String := ""
  /-- How it is done right. -/
  illustration : String := ""
  deriving DecidableEq, Repr

namespace Report

/-- A report with a place, unless it has one already. -/
def atPosition (report : Report) (position : Int) : Report :=
  { report with position := report.position.or (some position) }

@[simp] theorem atPosition_of_some {report : Report} {p : Int} (h : report.position = some p)
    (q : Int) : report.atPosition q = report := by
  cases report
  simp_all [atPosition]

/-- One line of a report, or none if there is nothing to say. -/
def line (label text : String) : List String :=
  if text.isEmpty then [] else [label ++ ": " ++ text]

/-- The text of a report, one part a line. -/
def text (report : Report) : String :=
  let place := match report.position with
    | some p => ["Position: " ++ toString p]
    | none => []
  String.intercalate "\n"
    (["Error: " ++ report.message] ++ place ++ line "Received" report.received ++
      line "Expected" report.expected ++ line "Context" report.context ++
      line "Suggestion" report.suggestion ++ line "Example" report.illustration)

end Report

end TypedCalc
