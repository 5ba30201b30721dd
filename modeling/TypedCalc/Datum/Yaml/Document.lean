import TypedCalc.Datum.Yaml.Block

/-!
# YAML documents

A text holds at most one document.  Three dashes alone at the start of a line may open it and
three dots may end it; a byte order mark may stand in front of it all.

This is the reader that the program is given where the machine has none of its own (`Yaml.load`).
It knows a part of YAML: mappings and lists, indented or in brackets, and scalars on one line or in
quotes.  Texts with block scalars, anchors, aliases or tags are malformed for it, and dates are
texts.  What is proved of configuration files holds for any reader.
-/

namespace TypedCalc.Yaml

/-- The text after three marks that stand alone at the start of a line: dashes open a document
and dots end it. -/
def afterMarks? (mark : Char) (cs : List Char) : Option (List Char) :=
  if cs.take 3 = [mark, mark, mark] && atGap (cs.drop 3) then some (cs.drop 3) else none

/-- Whether only blank lines and comments are left from the start of a line. -/
def isDone (cs : List Char) : Bool := (nextLine false 0 cs).2.isEmpty

/-- A text cut in two where the first line with marks starts.  `lineStart` says whether the text
starts a line. -/
def cutAtMarks (lineStart : Bool) : List Char → List Char × List Char
  | [] => ([], [])
  | c :: rest =>
    if lineStart && isDocumentMark 0 (c :: rest) then ([], c :: rest)
    else
      let (before, after) := cutAtMarks (isLineEnd c) rest
      (c :: before, after)

/-- Whether only lines of dots are left besides blank lines and comments.  No second document may
open, and nothing may follow the dots on their line. -/
def isEnd (cs : List Char) : Bool :=
  let (column, content) := nextLine false 0 cs
  content.isEmpty || match if column = 0 then afterMarks? '.' content else none with
    | none => false
    | some after =>
      match lineRest? after with
      | none => false
      | some rest => if _h : rest.length < cs.length then isEnd rest else false
termination_by cs.length

/-- The node of a reading, if nothing but blank lines and comments follows it. -/
def whole {bound : Nat} (node : Reading Node bound) : Except Fault Node :=
  if isDone node.rest then .ok node.result else .error .malformed

/-- The node that a whole text consists of, from the start of a line; nothing if it is blank. -/
def readRoot (cs : List Char) : Except Fault Node := do
  let (column, content) := nextLine false 0 cs
  if content.isEmpty then return .empty
  whole (← readNode 0 column content)

/-- The node of a document after the dashes that open it, which stand on the same line. -/
def readOpened (cs : List Char) : Except Fault Node :=
  match lineRest? cs with
  | some rest => readRoot rest
  | none => do whole (← readInline 0 (cs.dropWhile (· == ' ')))

/-- The node of the document in a text. -/
def readDocument (cs : List Char) : Except Fault Node := do
  let (column, content) := nextLine false 0 cs
  let opened := if column = 0 then afterMarks? '-' content else none
  let (body, rest) := cutAtMarks opened.isNone (opened.getD cs)
  if opened.isNone && !rest.isEmpty && isDone body then throw .malformed
  let node ← if opened.isSome then readOpened body else readRoot body
  if isEnd rest then return node else throw .malformed

/-- The datum that a text stands for. -/
def ofText (text : String) : Except Fault Datum := do
  let cs := text.toList
  if !cs.all isAllowed then throw .malformed
  (← readDocument (if cs.head? = some '\ufeff' then cs.drop 1 else cs)).toDatum

/-- The datum that a text stands for, with a fault as the program is told of it. -/
def load (text : String) : Except DocumentFault Datum :=
  (ofText text).mapError fun fault => ⟨fault.message, fault != .escapeTooLarge⟩

end TypedCalc.Yaml
