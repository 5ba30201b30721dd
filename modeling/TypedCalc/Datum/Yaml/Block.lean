import TypedCalc.Datum.Yaml.Flow

/-!
# Blocks

Lists and mappings whose items and entries have a line of their own at one indentation.  An item
stands after a dash.  An entry is a key with a colon after it on the same line; or the key stands
after a question mark and the value, if there is one, after a colon on a later line.  Block scalars,
anchors and tags are not read.

Readers of blocks take a text from the first character of a line and leave the text after the
last line that they took.
-/

namespace TypedCalc.Yaml

/-! ## Lines -/

/-- The text after the line, if only spaces and a comment are left on it. -/
def lineRest? (cs : List Char) : Option (List Char) :=
  match cs.dropWhile (· == ' ') with
  | [] => some []
  | c :: rest =>
    if isLineEnd c then some rest
    else if c = '#' then some ((rest.dropWhile fun c => !isLineEnd c).drop 1)
    else none

/-- The indentation of the first line that is neither blank nor a comment, and that line. -/
def nextLine (comment : Bool) : Nat → List Char → Nat × List Char
  | column, [] => (column, [])
  | column, c :: rest =>
    if isLineEnd c then nextLine false 0 rest
    else if comment then nextLine true 0 rest
    else if c = ' ' then nextLine false (column + 1) rest
    else if c = '#' then nextLine true 0 rest
    else (column, c :: rest)

/-- Whether a line starts with a mark that stands alone. -/
def startsWith (mark : Char) : List Char → Bool
  | c :: rest => c == mark && atGap rest
  | [] => false

/-! ## What stands on one line -/

/-- The key at the start of a line and the text after its colon, if there is one. -/
def readKey (cs : List Char) : Except Fault (Option (Node × List Char)) := do
  let (key, after) ←
    if startsQuoted cs then do
      let (text, after) ← quoted cs
      pure (Node.quoted text, after)
    else if startsPlain false cs then
      let (text, after) := plainLine false cs
      pure (Node.plain text, after)
    else pure (Node.empty, [])
  let colon := after.dropWhile (· == ' ')
  return if startsWith ':' colon && isKeySpan cs colon then some (key, colon.drop 1) else none

/-- A scalar or a flow, the last thing on its line. -/
def readInline (limit : Nat) (cs : List Char) : Except Fault (Reading Node cs.length) := do
  let (node, after) ←
    if startsQuoted cs then do
      let (text, after) ← quoted cs
      pure (Node.quoted text, after)
    else if startsPlain false cs then
      let (text, after) := plain false limit cs
      pure (Node.plain text, after)
    else if cs.head? = some '[' ∨ cs.head? = some '\x7b' then do
      let node ← readFlow cs
      pure (node.result, node.rest)
    else .error .malformed
  let rest ← orMalformed (lineRest? after)
  reading node rest

/-! ## Nodes over several lines -/

mutual

/-- The node at an indentation.  A plain scalar goes on over lines indented by `limit`. -/
def readNode (limit column : Nat) (cs : List Char) : Except Fault (Reading Node cs.length) := do
  if startsWith '-' cs then
    let items ← readItems column cs
    reading (.list items.result) items.rest
  else if startsWith '?' cs || (← readKey cs).isSome then
    let entries ← readEntries column cs
    reading (.mapping entries.result) entries.rest
  else readInline limit cs
termination_by 5 * cs.length + 3

/-- The node on the lines below a key or a mark of a block at an indentation: nothing if they are
not indented further.  Below a key the items of a list need not be. -/
def readBelow (ofKey : Bool) (column : Nat) (cs : List Char) :
    Except Fault (Reading Node (cs.length + 1)) := do
  let below := nextLine false 0 cs
  let inner : Reading Nat (cs.length + 1) ← reading below.1 below.2
  have _hinner := inner.shorter
  if inner.rest.isEmpty then reading .empty cs
  else if column < inner.result then
    let node ← readNode (column + 1) inner.result inner.rest
    reading node.result node.rest
  else if ofKey && inner.result == column && startsWith '-' inner.rest then
    let items ← readItems column inner.rest
    reading (.list items.result) items.rest
  else reading .empty cs
termination_by 5 * cs.length + 4
decreasing_by all_goals omega

/-- The node after a mark at an indentation, on the same line or below it. -/
def readMarked (ofKey : Bool) (column : Nat) (cs : List Char) :
    Except Fault (Reading Node cs.length) := do
  let start : Reading Unit cs.length ← reading () (cs.drop 1)
  have _hstart := start.shorter
  match lineRest? start.rest with
  | some rest =>
    let below : Reading Unit cs.length ← reading () rest
    have _hbelow := below.shorter
    let node ← readBelow ofKey column below.rest
    reading node.result node.rest
  | none =>
    let content := start.rest.dropWhile (· == ' ')
    let inner : Reading Unit cs.length ← reading () content
    have _hinner := inner.shorter
    let node ← readNode (column + 1) (column + (cs.length - content.length)) inner.rest
    reading node.result node.rest
termination_by 5 * cs.length
decreasing_by all_goals omega

/-- The items of a list at an indentation. -/
def readItems (column : Nat) (cs : List Char) : Except Fault (Reading (List Node) cs.length) := do
  let item ← readMarked false column cs
  have _hitem := item.shorter
  let below := nextLine false 0 item.rest
  let next : Reading Nat cs.length ← reading below.1 below.2
  have _hnext := next.shorter
  if next.result == column && startsWith '-' next.rest then
    let others ← readItems column next.rest
    reading (item.result :: others.result) others.rest
  else reading [item.result] item.rest
termination_by 5 * cs.length + 1
decreasing_by all_goals omega

/-- The entry at the start of a line at an indentation. -/
def readEntry (column : Nat) (cs : List Char) : Except Fault (Reading (Node × Node) cs.length) := do
  if startsWith '?' cs then
    let key ← readMarked true column cs
    have _hkey := key.shorter
    let below := nextLine false 0 key.rest
    let next : Reading Nat cs.length ← reading below.1 below.2
    have _hnext := next.shorter
    if next.result == column && startsWith ':' next.rest then
      let value ← readMarked true column next.rest
      reading (key.result, value.result) value.rest
    else reading (key.result, .empty) key.rest
  else
    let (key, after) ← orMalformed (← readKey cs)
    match lineRest? after with
    | some rest =>
      let below : Reading Unit cs.length ← reading () rest
      have _hbelow := below.shorter
      let value ← readBelow true column below.rest
      reading (key, value.result) value.rest
    | none =>
      let value ← readInline (column + 1) (after.dropWhile (· == ' '))
      reading (key, value.result) value.rest
termination_by 5 * cs.length + 1
decreasing_by all_goals omega

/-- The entries of a mapping at an indentation. -/
def readEntries (column : Nat) (cs : List Char) :
    Except Fault (Reading (List (Node × Node)) cs.length) := do
  let entry ← readEntry column cs
  have _hentry := entry.shorter
  let below := nextLine false 0 entry.rest
  let next : Reading Nat cs.length ← reading below.1 below.2
  have _hnext := next.shorter
  if next.rest.isEmpty || next.result < column then reading [entry.result] entry.rest
  else if next.result == column then
    let others ← readEntries column next.rest
    reading (entry.result :: others.result) others.rest
  else .error .malformed
termination_by 5 * cs.length + 2
decreasing_by all_goals omega

end

end TypedCalc.Yaml
