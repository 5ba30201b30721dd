/-!
# Similar names

How alike two names are: the share of their characters that lie in common runs.  The longest
common run is found first, then the parts to its left and to its right are compared in the same
way, and the lengths of all runs are added up (`matched`).  Of several longest runs the one that
starts first in the first name is taken, and then the one that starts first in the second.

A run is grown around characters that are not too frequent in the second name: in a name of 200
characters or more, one that makes up more than a hundredth of it only extends a run.

`similarNames` offers the names whose likeness to a target is at least three fifths, the most
alike first and the later in the alphabet first among equals.
-/

namespace TypedCalc.Text

/-- A run that two texts have in common. -/
structure CommonRun where
  /-- Where it starts in the first text. -/
  first : Nat
  /-- Where it starts in the second text. -/
  second : Nat
  /-- Its length. -/
  length : Nat
  deriving DecidableEq, Repr

/-- The lengths of the common runs that end at a character of the first text and at each
character of the second, from those for the character before. -/
def nextLengths (anchor : Char → Bool) (c : Char) : Nat → List Char → List Nat → List Nat
  | _, [], _ => []
  | before, d :: rest, lengths =>
    (if c = d ∧ anchor d then before + 1 else 0) ::
      nextLengths anchor c (lengths.headD 0) rest lengths.tail

/-- The better of a run and those that end at one character of the first text. -/
def improve (row : Nat) (best : CommonRun) (lengths : List Nat) : CommonRun :=
  lengths.zipIdx.foldl (fun best entry =>
    if best.length < entry.1 then
      ⟨row + 1 - entry.1, entry.2 + 1 - entry.1, entry.1⟩
    else best) best

/-- The longest run of anchors that two texts have in common, from a row on. -/
def longestAnchored (anchor : Char → Bool) (second : List Char) :
    Nat → List Char → List Nat → CommonRun → CommonRun
  | _, [], _, best => best
  | row, c :: rest, lengths, best =>
    let lengths := nextLengths anchor c 0 second lengths
    longestAnchored anchor second (row + 1) rest lengths (improve row best lengths)

/-- The length of the common beginning of two texts. -/
def commonStart : List Char → List Char → Nat
  | c :: rest, d :: others => if c = d then commonStart rest others + 1 else 0
  | _, _ => 0

/-- The longest run that two texts have in common. -/
def longestRun (anchor : Char → Bool) (first second : List Char) : CommonRun :=
  let run := longestAnchored anchor second 0 first [] ⟨0, 0, 0⟩
  let left := commonStart (first.take run.first).reverse (second.take run.second).reverse
  let right := commonStart (first.drop (run.first + run.length))
    (second.drop (run.second + run.length))
  ⟨run.first - left, run.second - left, left + run.length + right⟩

/-- The number of characters in common runs. -/
def matched (anchor : Char → Bool) (first second : List Char) : Nat :=
  match longestRun anchor first second with
  | ⟨i, j, length⟩ =>
    if _h : 0 < length ∧ i + length ≤ first.length then
      matched anchor (first.take i) (second.take j) + length +
        matched anchor (first.drop (i + length)) (second.drop (j + length))
    else 0
termination_by first.length
decreasing_by
  all_goals simp only [List.length_take, List.length_drop]; omega

/-- The characters of a text that a common run can be grown around. -/
def isAnchorOf (text : List Char) (c : Char) : Bool :=
  text.length < 200 || text.count c ≤ text.length / 100 + 1

/-- A name with twice the number of its characters in common runs with a target, over the
number of characters of both. -/
structure Likeness where
  /-- Twice the number of characters in common runs. -/
  shared : Nat
  /-- The number of characters of both names. -/
  total : Nat
  /-- The name. -/
  name : String
  deriving DecidableEq, Repr

namespace Likeness

/-- How alike a name is to a target. -/
def of (target name : String) : Likeness :=
  let first := name.toList
  let second := target.toList
  ⟨2 * matched (isAnchorOf second) first second, first.length + second.length, name⟩

/-- Whether three fifths or more is shared. -/
def isClose (likeness : Likeness) : Bool := 3 * likeness.total ≤ 5 * likeness.shared

/-- Whether one name goes before another: more alike, or as alike and not earlier in the
alphabet. -/
def before (a b : Likeness) : Bool :=
  if a.shared * b.total = b.shared * a.total then !decide (a.name < b.name)
  else decide (b.shared * a.total < a.shared * b.total)

end Likeness

/-- The names most like a target, at most `limit` of them. -/
def similarNames (target : String) (names : List String) (limit : Nat := 3) : List String :=
  if target.isEmpty then []
  else
    ((((names.map (Likeness.of target)).filter Likeness.isClose).mergeSort
      Likeness.before).take limit).map (·.name)

/-- The number of names asked for is not positive. -/
structure CountFault where
  /-- The number asked for. -/
  count : Int
  deriving DecidableEq, Repr

/-- The wording of the fault. -/
def CountFault.message (fault : CountFault) : String :=
  "n must be > 0: " ++ toString fault.count

/-- The names most like a target, at most as many as asked for.  The number must be positive
unless there is nothing to compare. -/
def similarNames? (target : String) (names : List String) (count : Int) :
    Except CountFault (List String) :=
  if target.isEmpty || names.isEmpty then .ok []
  else if count ≤ 0 then .error ⟨count⟩
  else .ok (similarNames target names count.toNat)

end TypedCalc.Text
