import TypedCalc.Proofs.Evaluation.Chain
import TypedCalc.Proofs.Expr.Grammar

/-!
# Nesting bounds depth

The parser counts the groups, calls and prefix operators that are open, the evaluator counts the
levels of the tree.  An infix operator of each level can stand to the right of one of the level
before it, and a call can hold all of that as an argument, so an open call is worth one level more
than there are levels of infix operators.

* `Expr.FitsIn`: what is true of a tree that is read at a level with some nesting left.
* `Run.fits`: every phase of the parser gives such a tree.
* `chainDepth_le_of_ofTokens?`: the depth of a tree that is read under a limit of nesting.
-/

namespace TypedCalc.Expr

/-- Whether a tree fits into some levels of infix operators and some nesting.  A tree that is no
infix operator needs none of the levels. -/
structure FitsIn (levels : Nat) (nesting : Int) (e : Expr) : Prop where
  /-- The levels are added to those of the nesting. -/
  depth_le : (e.chainDepth : Int) ≤ levels + 10 * nesting
  /-- Only infix operators need them. -/
  depth_le_of_not_infix : e.isInfix = false → (e.chainDepth : Int) ≤ 10 * nesting

section

variable {levels more : Nat} {nesting : Int} {e : Expr}

theorem FitsIn.mono (h : e.FitsIn levels nesting) (hle : levels ≤ more) :
    e.FitsIn more nesting where
  depth_le := by
    have hdepth := h.depth_le
    omega
  depth_le_of_not_infix := h.depth_le_of_not_infix

/-- A tree without depth fits everywhere. -/
theorem FitsIn.of_leaf (h : e.chainDepth = 0) (hnesting : 0 ≤ nesting) :
    e.FitsIn levels nesting where
  depth_le := by omega
  depth_le_of_not_infix := fun _ => by omega

/-- An infix operator stands one level below its right operand. -/
theorem FitsIn.binary {left right : Expr} (hleft : left.FitsIn (levels + 1) nesting)
    (hright : right.FitsIn levels nesting) (position : Nat) (op : InfixOperator) :
    (Expr.binary position op left right).FitsIn (levels + 1) nesting where
  depth_le := by
    have hleftDepth := hleft.depth_le
    have hrightDepth := hright.depth_le
    rw [chainDepth]
    cases hinfix : left.isInfix with
    | true =>
      simp only [if_true]
      omega
    | false =>
      have hleftOperand := hleft.depth_le_of_not_infix hinfix
      simp only [if_false, Bool.false_eq_true]
      omega
  depth_le_of_not_infix := nofun

theorem FitsIn.unary (h : e.FitsIn 0 (nesting - 1)) (position : Nat) (op : PrefixOperator) :
    (Expr.unary position op e).FitsIn 0 nesting := by
  have hdepth := h.depth_le
  have hunary : ((Expr.unary position op e).chainDepth : Int) ≤ 10 * nesting := by
    rw [chainDepth]
    omega
  exact ⟨by omega, fun _ => hunary⟩

theorem FitsIn.call {arguments : List Expr}
    (h : (chainDepthAll arguments : Int) ≤ 10 * nesting) (position : Nat) (name : String) :
    (Expr.call position name arguments).FitsIn 0 nesting := by
  have hcall : ((Expr.call position name arguments).chainDepth : Int) ≤ 10 * nesting := by
    rwa [chainDepth]
  exact ⟨by omega, fun _ => hcall⟩

/-- An argument is one level deeper than its call, whose levels are those of the nesting outside. -/
theorem FitsIn.chainDepthAll_cons_le (h : e.FitsIn InfixOperator.levelCount nesting)
    {rest : List Expr} (hrest : (chainDepthAll rest : Int) ≤ 10 * (nesting + 1)) :
    (chainDepthAll (e :: rest) : Int) ≤ 10 * (nesting + 1) := by
  have hdepth := h.depth_le
  have hcount := InfixOperator.levelCount_eq
  rw [chainDepthAll]
  omega

/-- Parentheses around a tree take as much nesting as a call. -/
theorem FitsIn.group (h : e.FitsIn InfixOperator.levelCount (nesting - 1)) :
    e.FitsIn 0 nesting := by
  have hdepth := h.depth_le
  have hcount := InfixOperator.levelCount_eq
  exact ⟨by omega, fun _ => by omega⟩

end

/-! ## Runs -/

/-- What a phase gives, with some nesting left, fits into that nesting and the levels of the
phase. -/
def Phase.Fits (nesting : Int) : Phase → Outcome → Prop
  | .level n, .expr e _ => e.FitsIn (InfixOperator.levelCount - n) nesting
  | .chain n left, .expr e _ => left.FitsIn (InfixOperator.levelCount - n) nesting →
      e.FitsIn (InfixOperator.levelCount - n) nesting
  | .prefixed, .expr e _ | .operand, .expr e _ => e.FitsIn 0 nesting
  | .arguments _, .arguments es _ => (chainDepthAll es : Int) ≤ 10 * (nesting + 1)
  | _, _ => True

/-- A group or a call that is closed fits if what is inside does. -/
theorem Phase.fits_close {source : Source} {after : State} {e : Expr} {nesting : Int} (opened : Nat)
    (h : e.FitsIn 0 nesting) :
    Phase.operand.Fits nesting (Outcome.close source opened e after) := by
  rcases Outcome.close_cases source opened e after with ⟨_, _, _, _, _, _, _, hclose⟩ |
    ⟨_, _, hclose, _⟩
  · rw [hclose]
    exact h
  · rw [hclose]
    trivial

theorem Phase.fits_inside {source : Source} {s : State} {rest : List Token} {opened : Nat}
    {opening : Opening} {phase : Phase} {o : Outcome}
    (h : phase.Fits (source.limit - (s.inside source rest opened opening).depth) o) :
    phase.Fits (source.limit - s.depth - 1) o := by
  have hdepth : source.limit - (s.inside source rest opened opening).depth =
      source.limit - s.depth - 1 := by
    dsimp only [State.inside]
    omega
  rwa [hdepth] at h

/-- **Every tree that is read fits** into the levels of its phase and the nesting that is left. -/
theorem Run.fits {source : Source} {phase : Phase} {s : State} {o : Outcome}
    (h : Run source phase s o) (hdepth : (s.depth : Int) ≤ source.limit) :
    phase.Fits (source.limit - s.depth) o := by
  induction h with
  | @top level s o h inner ih =>
    cases o with
    | expr e after => exact (ih hdepth).mono (Nat.zero_le _)
    | arguments | stop => trivial
  | @level level s after first o h operand chain ihoperand ihchain =>
    obtain ⟨-, hsame, -⟩ := operand.leaves
    rw [hsame] at ihchain
    cases o with
    | expr e after' => exact ihchain hdepth ((ihoperand hdepth).mono (by omega))
    | arguments | stop => trivial
  | chainEnd h => exact id
  | @chain level left right s after op position rest o h operand chain ihoperand ihchain =>
    obtain ⟨-, hsame, -⟩ := operand.leaves
    obtain ⟨_, -, -, hop⟩ := infixOfLevel?_eq_some_iff_isInfix.mp h
    have hlevels : InfixOperator.levelCount - level =
        InfixOperator.levelCount - (level + 1) + 1 := by
      have hlt : level < InfixOperator.levelCount := hop.lt_length
      omega
    rw [hsame] at ihchain
    cases o with
    | expr e after' =>
      intro hleft
      refine ihchain hdepth ?_
      rw [hlevels] at hleft ⊢
      exact hleft.binary (ihoperand hdepth) position op
    | arguments | stop => trivial
  | @unprefixed s o h operand ih =>
    cases o with
    | expr e after => exact ih hdepth
    | arguments | stop => trivial
  | @prefixed s after op position rest operand h hdeep inner ih =>
    have hinner := ih (by dsimp only; omega)
    have hnesting : source.limit - ((s.depth + 1 : Nat) : Int) = source.limit - s.depth - 1 := by
      omega
    rw [hnesting] at hinner
    exact FitsIn.unary hinner position op
  | number h | history h | constant h hnext => exact .of_leaf rfl (by omega)
  | group h hdeep inner ih =>
    have hinner := Phase.fits_inside (ih (by dsimp only [State.inside]; omega))
    exact Phase.fits_close _ (FitsIn.group hinner)
  | callEmpty h hdeep hnext =>
    refine Phase.fits_close _ (.call ?_ _ _)
    rw [chainDepthAll]
    omega
  | call h hdeep hnext inner ih =>
    have hinner := Phase.fits_inside (ih (by dsimp only [State.inside]; omega))
    rw [Phase.Fits, Int.sub_add_cancel] at hinner
    exact Phase.fits_close _ (.call hinner _ _)
  | argumentLast hcomma hclose first hnext ih =>
    refine (ih hdepth).chainDepthAll_cons_le ?_
    rw [chainDepthAll]
    omega
  | argument hcomma hclose first hnext others ihfirst ihothers =>
    obtain ⟨-, hsame, -⟩ := first.leaves
    rw [hsame] at ihothers
    exact (ihfirst hdepth).chainDepthAll_cons_le (ihothers hdepth)
  | levelStop | chainStop | prefixDeep | prefixStop | groupDeep | groupStop | callDeep | callStop
  | unexpected | argumentMissing | argumentStop | argumentsStop => trivial

/-- **Nesting bounds depth.**  A tree that is read under a limit of nesting is at most nine levels
deep, and ten more for each group, call and prefix operator that the limit allows. -/
theorem chainDepth_le_of_ofTokens? {tokens : List Token} {text : List Char} {limit : Int} {e : Expr}
    (hlimit : 0 ≤ limit) (h : ofTokens? tokens text limit = .ok e) :
    (e.chainDepth : Int) ≤ 10 * limit + 9 := by
  obtain ⟨-, after, hrun, -⟩ := ofTokens?_eq_ok_iff.mp h
  have hdepth := FitsIn.depth_le (hrun.fits hlimit)
  have hcount := InfixOperator.levelCount_eq
  dsimp only at hdepth
  omega

end TypedCalc.Expr
