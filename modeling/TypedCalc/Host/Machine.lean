import TypedCalc.Host.Basic

/-!
# A model of a machine

A `Machine` is a tree of directories and files, the input that is still to be read, a home
directory, the directory that it works in and a reader of YAML documents.  The tree is a list of the
places where something is; a place is the list of the parts that lead to it from the root, which is
a directory.  Any function from texts can be the reader.

`Machine.walk` follows a path step by step.  Every step but the last has to lead to a directory.
-/

namespace TypedCalc

/-- What there is at a place. -/
inductive FileNode
  /-- A directory. -/
  | directory
  /-- A file with its text. -/
  | file (text : String)
  deriving DecidableEq, Repr

/-- The kind of what there is. -/
def FileNode.kind : FileNode → FileKind
  | .directory => .directory
  | .file _ => .file

/-- A place in a tree of directories: the parts of the path that leads to it from the root. -/
abbrev Place : Type := List (List Char)

/-- A machine with files, input and a home directory. -/
structure Machine where
  /-- What there is at the places below the root. -/
  nodes : List (Place × FileNode) := []
  /-- The input that is still to be read. -/
  input : List Char := []
  /-- The home directory. -/
  home : String := "/home"
  /-- The directory that paths start from unless they start at the root. -/
  currentDirectory : Place := []
  /-- The datum of the YAML document that a text is. -/
  loadYaml : String → Except DocumentFault Datum := fun _ => .ok .null

namespace Machine

/-! ## Places -/

/-- What there is at a place. -/
def nodeAt (machine : Machine) (place : Place) : Option FileNode :=
  if place = [] then some .directory else machine.nodes.lookup place

/-- A machine with something put at a place. -/
def put (machine : Machine) (place : Place) (node : FileNode) : Machine :=
  { machine with nodes := (place, node) :: machine.nodes.filter fun entry => entry.1 != place }

/-- The number of bytes of a text. -/
def byteCount (cs : List Char) : Nat := cs.foldl (fun count c => count + c.utf8Size) 0

/-- The largest number of bytes of a part of a path. -/
def maxNameLength : Nat := 255

/-- The largest number of bytes of a path. -/
def maxPathLength : Nat := 4095

/-- The place that steps lead to. -/
def walk (machine : Machine) : Place → List (List Char) → Except FileFaultCause Place
  | place, [] => .ok place
  | place, step :: rest =>
    match machine.nodeAt place with
    | none => .error .missing
    | some (.file _) => .error .notADirectory
    | some .directory =>
      if step = ['.'] then walk machine place rest
      else if step = ['.', '.'] then walk machine place.dropLast rest
      else if maxNameLength < byteCount step then .error .nameTooLong
      else walk machine (place ++ [step]) rest

/-- The place that a path leads to. -/
def locate (machine : Machine) (path : List Char) : Except FileFaultCause Place :=
  if path.isEmpty then .error .missing
  else if path.contains '\x00' then .error .nullCharacter
  else if maxPathLength < byteCount path then .error .nameTooLong
  else
    machine.walk (if Path.isAbsolute path then [] else machine.currentDirectory) (Path.parts path)

/-! ## Operations -/

/-- What there is at the place that a path leads to. -/
def find? (machine : Machine) (path : String) : Option FileNode :=
  match machine.locate path.toList with
  | .ok place => machine.nodeAt place
  | .error _ => none

/-- The text of a file. -/
def read (machine : Machine) (path : String) : Except FileFaultCause String := do
  match machine.nodeAt (← machine.locate path.toList) with
  | some (.file text) => .ok text
  | some .directory => .error .isADirectory
  | none => .error .missing

/-- A machine with the text of a file changed by a function, an empty text if there was no file. -/
def edit (machine : Machine) (path : String) (change : String → String) :
    Except FileFaultCause Machine := do
  let place ← machine.locate path.toList
  match machine.nodeAt place with
  | some (.file text) => .ok (machine.put place (.file (change text)))
  | some .directory => .error .isADirectory
  | none => .ok (machine.put place (.file (change "")))

/-- A machine with one more directory. -/
def makeDirectory (machine : Machine) (path : String) : Except FileFaultCause Machine := do
  let place ← machine.locate (Path.withoutFinalSlashes path.toList)
  match machine.nodeAt place with
  | some _ => .error .alreadyThere
  | none => .ok (machine.put place .directory)

/-- The next line of the input with its end, and the machine after it. -/
def readLine (machine : Machine) : String × Machine :=
  let line := machine.input.takeWhile (· != '\n')
  let rest := machine.input.dropWhile (· != '\n')
  (String.ofList (line ++ rest.take 1), { machine with input := rest.drop 1 })

/-- An operation on the machine as one that answers with a fault at a path. -/
def run (path : String) (operation : Machine → Except FileFaultCause Machine) :
    StateM Machine (Except FileFault Unit) := do
  match operation (← get) with
  | .ok machine => set machine; return .ok ()
  | .error cause => return .error ⟨cause, path⟩

instance : Host (StateM Machine) where
  home := do return (← get).home
  currentDirectory := do
    return String.ofList ('/' :: List.intercalate ['/'] (← get).currentDirectory)
  readLine := modifyGet readLine
  kind? path := do return ((← get).find? path).map FileNode.kind
  readFile path := do return ((← get).read path).mapError (⟨·, path⟩)
  writeFile path text := run path fun machine => machine.edit path fun _ => text
  openLog path := run path fun machine => machine.edit path id
  makeDirectory path := run path fun machine => machine.makeDirectory path
  loadYaml text := do return (← get).loadYaml text

/-! ## Setting up -/

/-- A machine with a directory at a place and on the way to it. -/
def withDirectories (machine : Machine) (place : Place) : Machine :=
  (List.range place.length).foldl (fun machine count =>
    let step := place.take (count + 1)
    if (machine.nodeAt step).isSome then machine else machine.put step .directory) machine

/-- A machine with a file at a place and directories on the way to it. -/
def withFile (machine : Machine) (place : Place) (text : String) : Machine :=
  (machine.withDirectories place.dropLast).put place (.file text)

end Machine

end TypedCalc
