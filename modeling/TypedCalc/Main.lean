import TypedCalc.CommandLine.Run
import TypedCalc.Datum.Yaml.Document

/-!
# The program

The real machine as a `Host`, and the entry point: the outcome of a run is printed, and its
status becomes the exit status.
-/

namespace TypedCalc

/-- The cause with a number. -/
def FileFaultCause.ofCode (code : Nat) (details : String) : FileFaultCause :=
  ([.missing, .alreadyThere, .notADirectory, .isADirectory, .nameTooLong].find? fun cause =>
    cause.code? == some code).getD (.other code details)

/-- Why a file cannot be used, from the error of the operating system. -/
def FileFaultCause.ofError : IO.Error → FileFaultCause
  | .noFileOrDirectory .. => .missing
  | .alreadyExists .. => .alreadyThere
  | .inappropriateType _ code details => .ofCode code.toNat details
  | .permissionDenied _ code details => .ofCode code.toNat details
  | .resourceExhausted _ code details => .ofCode code.toNat details
  | .invalidArgument _ code details => .ofCode code.toNat details
  | error => .other 5 error.toString

/-- An action on a path with its error as a fault. -/
def attempt {α : Type} (path : String) (action : IO α) : IO (Except FileFault α) := do
  if path.contains '\x00' then return .error ⟨.nullCharacter, path⟩
  try return .ok (← action)
  catch error => return .error ⟨.ofError error, path⟩

/-- What there is at a path: a directory cannot be read from. -/
def kindOf (path : String) : IO (Option FileKind) := do
  let first ← attempt path do
    let handle ← IO.FS.Handle.mk path .read
    discard (handle.read 1)
  match first with
  | .ok () => return some .file
  | .error ⟨.isADirectory, _⟩ => return some .directory
  | .error fault =>
    let absent : List FileFaultCause := [.missing, .notADirectory, .nameTooLong, .nullCharacter]
    return if absent.contains fault.cause then none else some .file

instance : Host IO where
  home := do return (← IO.getEnv "HOME").getD "~"
  currentDirectory := do return (← IO.currentDir).toString
  readLine := do (← IO.getStdin).getLine
  kind? := kindOf
  readFile path := attempt path (IO.FS.readFile path)
  writeFile path text := attempt path (IO.FS.writeFile path text)
  openLog path := attempt path (discard (IO.FS.Handle.mk path .append))
  makeDirectory path := attempt path (IO.FS.createDir path)
  loadYaml text := return Yaml.load text

/-- What the options of the command line are. -/
def usage : String :=
  "usage: clc [-h] [--expr EXPR | --file FILE] [--alfred] [--config CONFIG]\n" ++
  "           [--history-file HISTORY_FILE] [--history-size HISTORY_SIZE] [--no-history]\n" ++
  "           [--log-dir LOG_DIR] [--verbose]\n"

end TypedCalc

open TypedCalc in
/-- Run the program with the words of its command line. -/
def main (arguments : List String) : IO UInt32 := do
  match ← (CommandLine.run arguments .standard : IO CommandLine.Ending) with
  | .misuse cause =>
    IO.eprint (usage ++ "clc: error: " ++ cause.message ++ "\n")
    return 2
  | .help =>
    IO.print usage
    return 0
  | .finished outcome =>
    IO.print outcome.output
    IO.eprint outcome.errors
    return UInt32.ofNat outcome.status
  | .broken failure =>
    IO.eprint (failure.message ++ "\n")
    return 1
