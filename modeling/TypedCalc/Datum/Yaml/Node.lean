import TypedCalc.Datum.Yaml.Plain

/-!
# Nodes of a YAML text

A node is what a part of a text looks like: a scalar with or without quotes, a list or a mapping.
Reading a text gives a node first, and the datum that it stands for comes after
(`Node.toDatum`), because what a plain scalar means depends on where it is: the merge mark as a key
puts the entries of other mappings in front of those of its own mapping.
-/

namespace TypedCalc.Yaml

/-- A part of a YAML text. -/
inductive Node
  /-- A scalar without quotes. -/
  | plain (text : List Char)
  /-- A scalar between quotes. -/
  | quoted (text : List Char)
  /-- A list. -/
  | list (items : List Node)
  /-- Keys with a node each. -/
  | mapping (entries : List (Node × Node))

namespace Node

/-- The node of which nothing is written. -/
def empty : Node := .plain []

/-- Whether a key is the merge mark. -/
def isMerge : Node → Bool
  | .plain text => text == mergeMark
  | _ => false

/-- The datum that a key stands for.  A key is a scalar. -/
def toKey : Node → Except Fault Datum
  | .plain text => if text = valueMark then .ok (.string (String.ofList text)) else ofPlain text
  | .quoted text => .ok (.string (String.ofList text))
  | .list _ | .mapping _ => .error .malformed

mutual

/-- The datum that a node stands for. -/
def toDatum : Node → Except Fault Datum
  | .plain text => if text = valueMark ∨ text = mergeMark then .error .malformed else ofPlain text
  | .quoted text => .ok (.string (String.ofList text))
  | .list items => do return .list (← itemData items)
  | .mapping entries => do
    return Datum.ofEntries ((← mergedEntries entries) ++ (← ownEntries entries))

/-- The data of the items of a list. -/
def itemData : List Node → Except Fault (List Datum)
  | [] => .ok []
  | item :: rest => do return (← item.toDatum) :: (← itemData rest)

/-- The entries that a mapping has of its own. -/
def ownEntries : List (Node × Node) → Except Fault (List (Datum × Datum))
  | [] => .ok []
  | (key, value) :: rest =>
    if key.isMerge then ownEntries rest
    else do return (← key.toKey, ← value.toDatum) :: (← ownEntries rest)

/-- The entries that are merged into a mapping. -/
def mergedEntries : List (Node × Node) → Except Fault (List (Datum × Datum))
  | [] => .ok []
  | (key, value) :: rest =>
    if key.isMerge then do return (← value.mergeable) ++ (← mergedEntries rest)
    else mergedEntries rest

/-- The entries of a node after the merge mark: a mapping, or a list of mappings of which the
first one counts most. -/
def mergeable : Node → Except Fault (List (Datum × Datum))
  | .mapping entries => do return (← mergedEntries entries) ++ (← ownEntries entries)
  | .list items => mergeableItems items
  | _ => .error .malformed

/-- The entries of the items of a list after the merge mark, those of the last item first. -/
def mergeableItems : List Node → Except Fault (List (Datum × Datum))
  | [] => .ok []
  | .mapping entries :: rest => do
    let own := (← mergedEntries entries) ++ (← ownEntries entries)
    return (← mergeableItems rest) ++ own
  | _ :: _ => .error .malformed

end

end Node

end TypedCalc.Yaml
