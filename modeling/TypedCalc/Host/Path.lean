import TypedCalc.Text.Pieces

/-!
# Paths

A path is a text whose parts are separated by slashes.  `Path.split` cuts off the last part, and
`Path.join` puts one after a directory; `Path.parts` lists the steps that lead along a path.
`Path.normalize` leaves out the steps that lead nowhere and those that are taken back.
-/

namespace TypedCalc.Path

/-- A text without the slashes at its end, unless it consists of slashes. -/
def withoutFinalSlashes (path : List Char) : List Char :=
  let short := (path.reverse.dropWhile (· == '/')).reverse
  if short.isEmpty then path else short

/-- What stands before the last part of a path, and the last part. -/
def split (path : List Char) : List Char × List Char :=
  let name := (path.reverse.takeWhile (· != '/')).reverse
  (withoutFinalSlashes (path.take (path.length - name.length)), name)

/-- The directory of a path, empty if the path has one part. -/
def directory (path : String) : String := String.ofList (split path.toList).1

/-- A path into a directory. -/
def join (directory name : String) : String :=
  if name.startsWith "/" then name
  else if directory.isEmpty || directory.endsWith "/" then directory ++ name
  else directory ++ "/" ++ name

/-- The steps along a path.  A slash at the end is a step that stays in place, so that what
stands before it has to be a directory. -/
def parts (path : List Char) : List (List Char) :=
  (Text.pieces '/' path).filter (fun piece => !piece.isEmpty) ++
    if path.getLast? = some '/' then [['.']] else []

/-- The steps that are left when every step back has taken away the one before it. -/
def settle (steps : List (List Char)) : List (List Char) :=
  steps.foldl (fun taken step =>
    if step = ['.', '.'] then taken.dropLast else taken ++ [step]) []

/-- The slashes in front of a path from the root: exactly two stay, any other number counts as
one. -/
def rootSlashes : List Char → List Char
  | '/' :: '/' :: '/' :: _ => ['/']
  | '/' :: '/' :: _ => ['/', '/']
  | _ => ['/']

/-- A path from the root in its shortest form. -/
def normalize (path : String) : String :=
  let cs := path.toList
  let steps := (Text.pieces '/' cs).filter fun piece => !piece.isEmpty && piece != ['.']
  String.ofList (rootSlashes cs ++ List.intercalate ['/'] (settle steps))

/-- Whether a path starts at the root. -/
def isAbsolute (path : List Char) : Bool := path.head? == some '/'

/-- A path with the home directory in place of a tilde that is its first part. -/
def expandHome (home path : String) : String :=
  let base := (home.toList.reverse.dropWhile (· == '/')).reverse
  match path.toList with
  | ['~'] => if base.isEmpty then "/" else String.ofList base
  | '~' :: '/' :: rest => String.ofList (base ++ '/' :: rest)
  | _ => path

end TypedCalc.Path
