import TypedCalc.Datum.Reading
import TypedCalc.Datum.Yaml.Node
import TypedCalc.Datum.Yaml.Scalar

/-!
# Flows

Lists and mappings between brackets, with commas between their items and entries.  The key of an
entry has a colon after it, or a question mark in front of it.  A key without a question mark has
its colon on the same line and not too far away (`isKeySpan`).
-/

namespace TypedCalc.Yaml

/-- A result with the text after it, which has to be shorter than before. -/
def reading {α : Type} {bound : Nat} (result : α) (rest : List Char) :
    Except Fault (Reading α bound) := orMalformed (Reading.of? result rest)

/-- The text after spaces, line ends and comments; `comment` says whether it starts inside a
comment. -/
def skipGap (comment : Bool) : List Char → List Char
  | [] => []
  | c :: rest =>
    if isLineEnd c then skipGap false rest
    else if comment then skipGap true rest
    else if c = ' ' then skipGap false rest
    else if c = '#' then skipGap true rest
    else c :: rest

/-- The largest distance from the first character of a key to its colon. -/
def maxKeySpan : Nat := 1024

/-- Whether a key at the front of a text can have its colon at the front of a later text. -/
def isKeySpan (cs colon : List Char) : Bool :=
  let span := cs.take (cs.length - colon.length)
  span.length ≤ maxKeySpan && !span.any isLineEnd

/-- Whether an entry of a flow ends at the front of a text. -/
def endsEntry : List Char → Bool
  | [] => true
  | c :: _ => c == ',' || c == ']' || c == '\x7d'

/-- The scalar that a flow continues with. -/
def readFlowScalar (cs : List Char) : Except Fault (Reading Node cs.length) :=
  if startsQuoted cs then do
    let (text, after) ← quoted cs
    reading (.quoted text) after
  else if startsPlain true cs then
    let (text, after) := plain true 0 cs
    reading (.plain text) after
  else .error .malformed

mutual

/-- The node that a flow continues with. -/
def readFlow (cs : List Char) : Except Fault (Reading Node cs.length) :=
  match cs with
  | '[' :: rest => do
    let items ← readFlowItems rest
    reading (.list items.result) items.rest
  | '\x7b' :: rest => do
    let entries ← readFlowEntries rest
    reading (.mapping entries.result) entries.rest
  | cs => readFlowScalar cs
termination_by 5 * cs.length + 1

/-- The items of a list up to its closing bracket.  An entry among them is a mapping. -/
def readFlowItems (cs : List Char) : Except Fault (Reading (List Node) (cs.length + 1)) := do
  let start : Reading Unit (cs.length + 1) ← reading () (skipGap false cs)
  have _hstart := start.shorter
  match start.rest with
  | ']' :: after => reading [] after
  | _ =>
    let entry ← readFlowEntry start.rest
    have _hentry := entry.shorter
    let item := match entry.result with
      | (node, none) => node
      | (key, some value) => .mapping [(key, value)]
    match _hrest : entry.rest with
    | ',' :: after =>
      let others ← readFlowItems after
      reading (item :: others.result) others.rest
    | ']' :: after => reading [item] after
    | _ => .error .malformed
termination_by 5 * cs.length + 4
decreasing_by
  · omega
  · simp_all only [List.length_cons]; omega

/-- The entries of a mapping up to its closing brace. -/
def readFlowEntries (cs : List Char) :
    Except Fault (Reading (List (Node × Node)) (cs.length + 1)) := do
  let start : Reading Unit (cs.length + 1) ← reading () (skipGap false cs)
  have _hstart := start.shorter
  match start.rest with
  | '\x7d' :: after => reading [] after
  | _ =>
    let entry ← readFlowEntry start.rest
    have _hentry := entry.shorter
    let pair := (entry.result.1, entry.result.2.getD .empty)
    match _hrest : entry.rest with
    | ',' :: after =>
      let others ← readFlowEntries after
      reading (pair :: others.result) others.rest
    | '\x7d' :: after => reading [pair] after
    | _ => .error .malformed
termination_by 5 * cs.length + 4
decreasing_by
  · omega
  · simp_all only [List.length_cons]; omega

/-- A node with the value after its colon, if it has a colon, up to the mark that follows.  After
a question mark the node is a key, with a colon or without. -/
def readFlowEntry (cs : List Char) : Except Fault (Reading (Node × Option Node) cs.length) := do
  match cs with
  | '?' :: rest =>
    let key ← readFlowPart rest
    have _hkey := key.shorter
    match _hcolon : key.rest with
    | ':' :: after =>
      let value ← readFlowPart after
      reading (key.result, some value.result) value.rest
    | after => reading (key.result, some .empty) after
  | cs =>
    let key ← readFlow cs
    have _hkey := key.shorter
    let colon : Reading Unit cs.length ← reading () (skipGap false key.rest)
    have _hcolon := colon.shorter
    match _hrest : colon.rest with
    | ':' :: after =>
      if isKeySpan cs colon.rest then
        let value ← readFlowPart after
        reading (key.result, some value.result) value.rest
      else .error .malformed
    | after => reading (key.result, none) after
termination_by 5 * cs.length + 2
decreasing_by
  · simp only [List.length_cons]; omega
  · simp_all only [List.length_cons]; omega
  · omega
  · simp_all only [List.length_cons]; omega

/-- The key after a question mark or the value after a colon, up to the mark that follows.  It can
be left out. -/
def readFlowPart (cs : List Char) : Except Fault (Reading Node (cs.length + 1)) := do
  let start : Reading Unit (cs.length + 1) ← reading () (skipGap false cs)
  have _hstart := start.shorter
  if endsEntry start.rest || start.rest.head? == some ':' then reading .empty start.rest
  else
    let node ← readFlow start.rest
    reading node.result (skipGap false node.rest)
termination_by 5 * cs.length + 3
decreasing_by all_goals omega

end

end TypedCalc.Yaml
