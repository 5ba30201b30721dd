import TypedCalc.Datum.Basic
import TypedCalc.Host.Path
import TypedCalc.Text.Quoted

/-!
# The host

What a program needs from the machine it runs on: files and directories, a line of input, the
names of the home directory and of the directory that it runs in, and a reader of YAML documents,
which is a library of the machine and no part of the program.  A program that is written for any
`Host` runs on the real machine as well as on a model of one.
-/

namespace TypedCalc

/-- Why a file cannot be used. -/
inductive FileFaultCause
  /-- There is nothing at the path. -/
  | missing
  /-- There is something at the path already. -/
  | alreadyThere
  /-- A part of the path is not a directory. -/
  | notADirectory
  /-- The path leads to a directory. -/
  | isADirectory
  /-- The path or a part of it is too long. -/
  | nameTooLong
  /-- The path holds a character with the number zero, which no name has. -/
  | nullCharacter
  /-- Another reason, with its number. -/
  | other (code : Nat) (description : String)
  deriving DecidableEq, Repr

namespace FileFaultCause

/-- The number of a cause, if the machine has one for it. -/
def code? : FileFaultCause → Option Nat
  | .missing => some 2
  | .alreadyThere => some 17
  | .notADirectory => some 20
  | .isADirectory => some 21
  | .nameTooLong => some 36
  | .nullCharacter => none
  | .other code _ => some code

/-- The wording of a cause. -/
def description : FileFaultCause → String
  | .missing => "No such file or directory"
  | .alreadyThere => "File exists"
  | .notADirectory => "Not a directory"
  | .isADirectory => "Is a directory"
  | .nameTooLong => "File name too long"
  | .nullCharacter => "embedded null byte"
  | .other _ description => description

end FileFaultCause

/-- A path that cannot be used. -/
structure FileFault where
  /-- Why. -/
  cause : FileFaultCause
  /-- The path. -/
  path : String
  deriving DecidableEq, Repr

/-- The wording of a fault. -/
def FileFault.message (fault : FileFault) : String :=
  match fault.cause.code? with
  | some code =>
    "[Errno " ++ toString code ++ "] " ++ fault.cause.description ++ ": " ++
      Text.quote fault.path
  | none => fault.cause.description

/-- What there is at a path. -/
inductive FileKind
  /-- A file. -/
  | file
  /-- A directory. -/
  | directory
  deriving DecidableEq, Repr

/-- What a program can ask of the machine it runs on. -/
class Host (m : Type → Type) where
  /-- The home directory. -/
  home : m String
  /-- The directory that paths start from unless they start at the root. -/
  currentDirectory : m String
  /-- A line of input with its end, empty if there is no more. -/
  readLine : m String
  /-- What there is at a path. -/
  kind? : String → m (Option FileKind)
  /-- The text of a file. -/
  readFile : String → m (Except FileFault String)
  /-- Put a text into a file, which need not be there yet. -/
  writeFile : String → String → m (Except FileFault Unit)
  /-- Open a file for lines to be added, which need not be there yet. -/
  openLog : String → m (Except FileFault Unit)
  /-- Make a directory. -/
  makeDirectory : String → m (Except FileFault Unit)
  /-- The datum of the YAML document that a text is. -/
  loadYaml : String → m (Except DocumentFault Datum)

namespace Host

variable {m : Type → Type} [Monad m] [Host m]

/-- A path with the home directory in place of a tilde that is its first part. -/
def expand (path : String) : m String := do return Path.expandHome (← home) path

/-- A path from the root that leads to the same place, in its shortest form. -/
def absolute (path : String) : m String := do
  return Path.normalize (Path.join (← currentDirectory) path)

/-- A text with a single character for every line end. -/
def unifyLines : List Char → List Char
  | '\r' :: '\n' :: rest => '\n' :: unifyLines rest
  | '\r' :: rest => '\n' :: unifyLines rest
  | c :: rest => c :: unifyLines rest
  | [] => []

/-- The text of a file, with a single character for every line end. -/
def readText (path : String) : m (Except FileFault String) := do
  return (← readFile path).map fun text => String.ofList (unifyLines text.toList)

/-- Whether there is a directory at a path. -/
def isDirectory (path : String) : m Bool := do return (← kind? path) == some .directory

/-- Make one directory, unless it is there already. -/
def provideDirectory (path : String) : m (Except FileFault Unit) := do
  match ← makeDirectory path with
  | .ok () => return .ok ()
  | .error fault => if ← isDirectory path then return .ok () else return .error fault

/-- The path of the directory that holds a directory, if it is named. -/
def parent (path : List Char) : List Char :=
  match Path.split path with
  | (before, []) => (Path.split before).1
  | (before, _) => before

/-- Make a directory and the directories on the way to it, unless they are there already. -/
def provideDirectories (path : List Char) : m (Except FileFault Unit) := do
  let above := parent path
  if _h : above ≠ [] ∧ above.length < path.length then
    if (← kind? (String.ofList above)).isSome then provideDirectory (String.ofList path)
    else
      match ← provideDirectories above with
      | .error ⟨.alreadyThere, _⟩ | .ok () => provideDirectory (String.ofList path)
      | .error fault => return .error fault
  else provideDirectory (String.ofList path)
termination_by path.length
decreasing_by exact _h.2

end Host

end TypedCalc
