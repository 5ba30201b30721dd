import TypedCalc.Proofs.Evaluation.Equations
import TypedCalc.Proofs.Evaluation.Meaning

/-!
# The loop over chains and plain recursion

The evaluator takes a chain of infix operators apart and applies the operators in a loop, and it
refuses nodes below a limit.  Neither shows in the results.

* `Expr.evaluateLeftAt_binary`: the loop does what recursion on the two operands does.
* `Expr.evaluateAt_eq_limited`: where the stack never runs out, the result is that of plain
  recursion without a limit (`Expr.meaning`), unless plain recursion visits a node below the limit
  before it ends; then it is the error at the first such node.
* `Expr.limited_meaning`: what this says about the depth of a tree, in which a chain counts as one
  level.
-/

namespace TypedCalc

open Result

/-! ## Depths -/

/-- Whether the node is an infix operator. -/
def Expr.isInfix : Expr → Bool
  | .binary .. => true
  | _ => false

/-- The depth of a left operand: an infix operator goes on with the chain of the one above it. -/
def Expr.leftDepth (depth : Nat) (left : Expr) : Nat :=
  if left.isInfix then depth else depth + 1

mutual

/-- The number of levels of an expression: one for every prefix operator, every argument of a call
and every operand of a chain of infix operators. -/
def Expr.chainDepth : Expr → Nat
  | .literal .. | .history .. | .constant .. => 0
  | .unary _ _ operand => operand.chainDepth + 1
  | .binary _ _ left right =>
    max (if left.isInfix then left.chainDepth else left.chainDepth + 1) (right.chainDepth + 1)
  | .call _ _ arguments => Expr.chainDepthAll arguments

/-- The number of levels that the arguments of a call add. -/
def Expr.chainDepthAll : List Expr → Nat
  | [] => 0
  | argument :: rest => max (argument.chainDepth + 1) (Expr.chainDepthAll rest)

end

/-- A node that an evaluation comes to. -/
structure Visit where
  /-- The number of levels above it. -/
  depth : Nat
  /-- Its position. -/
  position : Nat

mutual

/-- The nodes that plain recursion comes to before it ends, in order: after an operand without a
value it comes to no other. -/
def Expr.visits (env : Environment) (depth : Nat) : Expr → List Visit
  | .literal position _ => [⟨depth, position⟩]
  | .history position _ => [⟨depth, position⟩]
  | .constant position _ => [⟨depth, position⟩]
  | .unary position _ operand => ⟨depth, position⟩ :: operand.visits env (depth + 1)
  | .binary position _ left right =>
    ⟨depth, position⟩ :: (left.visits env (left.leftDepth depth) ++
      if (left.meaning env).isOk then right.visits env (depth + 1) else [])
  | .call position name arguments =>
    let text := (Expr.call position name arguments).describe
    ⟨depth, position⟩ ::
      if (env.resolveFunction position name text).isOk then
        Expr.visitsAll env (depth + 1) arguments
      else []

/-- The nodes of arguments that plain recursion comes to, in order. -/
def Expr.visitsAll (env : Environment) (depth : Nat) : List Expr → List Visit
  | [] => []
  | argument :: rest =>
    argument.visits env depth ++
      if (argument.meaning env).isOk then Expr.visitsAll env depth rest else []

end

/-! ## The loop over a chain -/

section

variable (env : Environment) (limit : Int) (stack : Stack)

/-- The value of an operand inside the chain that it starts: its own chain goes on, and anything
else stands one level lower. -/
def Expr.evaluateLeftAt (env : Environment) (limit : Int) (depth : Nat) (e : Expr)
    (stack : Stack := .unlimited) : Except EvaluationError Value := do
  let first ← ((e.unroll []).1).evaluateAt env limit (depth + 1) stack
  Link.evaluateAllAt env limit (depth + 1) first (e.unroll []).2 stack

theorem Expr.unroll_append (e : Expr) (links more : List Link) :
    e.unroll (links ++ more) = ((e.unroll links).1, (e.unroll links).2 ++ more) := by
  fun_induction Expr.unroll e links with
  | case1 position op left right links ih =>
    rw [Expr.unroll]
    exact ih
  | case2 links start h =>
    rw [Expr.unroll]
    exact h

theorem Link.evaluateAllAt_append (depth : Nat) (value : Value) (links more : List Link) :
    Link.evaluateAllAt env limit depth value (links ++ more) stack = (do
      let next ← Link.evaluateAllAt env limit depth value links stack
      Link.evaluateAllAt env limit depth next more stack) := by
  induction links generalizing value with
  | nil => rw [List.nil_append, Link.evaluateAllAt_nil, pure_bind]
  | cons link rest ih =>
    rw [List.cons_append, Link.evaluateAllAt_cons, Link.evaluateAllAt_cons]
    simp only [ih, bind_assoc]

/-- The loop over an unrolled chain goes on from the value of what was unrolled. -/
theorem Expr.evaluate_unroll (depth : Nat) (e : Expr) (links : List Link) :
    (do
      let first ← ((e.unroll links).1).evaluateAt env limit (depth + 1) stack
      Link.evaluateAllAt env limit (depth + 1) first (e.unroll links).2 stack) =
    (do
      let value ← e.evaluateLeftAt env limit depth stack
      Link.evaluateAllAt env limit (depth + 1) value links stack) := by
  have hunroll := e.unroll_append [] links
  rw [List.nil_append] at hunroll
  simp only [hunroll, Expr.evaluateLeftAt, Link.evaluateAllAt_append, bind_assoc]

/-- **The loop does what recursion on the two operands does.** -/
theorem Expr.evaluateLeftAt_binary (depth position : Nat) (op : InfixOperator)
    (left right : Expr) :
    (binary position op left right).evaluateLeftAt env limit depth stack = (do
      let leftValue ← left.evaluateLeftAt env limit depth stack
      let rightValue ← right.evaluateAt env limit (depth + 1) stack
      placeAt position (Operand.applyInfix op leftValue rightValue)) := by
  rw [Expr.evaluateLeftAt, Expr.unroll, Expr.evaluate_unroll]
  simp only [Link.evaluateAllAt_cons, Link.evaluateAllAt_nil, bind_pure]

theorem Expr.evaluateLeftAt_of_not_isInfix (depth : Nat) {e : Expr} (h : e.isInfix = false) :
    e.evaluateLeftAt env limit depth stack = e.evaluateAt env limit (depth + 1) stack := by
  cases e with
  | binary => cases h
  | literal | history | constant | unary | call =>
    rw [Expr.evaluateLeftAt, Expr.unroll]
    · simp only [Link.evaluateAllAt_nil, bind_pure]
    · rintro _ _ _ _ ⟨⟩

/-- An infix operator is two calls, and its chain is evaluated in the second. -/
theorem Expr.evaluateAt_binary_on {limit : Int} {depth : Nat} (h : ¬ limit < depth)
    (position : Nat) (op : InfixOperator) (left right : Expr) :
    (binary position op left right).evaluateAt env limit depth stack = (do
      let stack ← stack.descend position
      let stack ← stack.descend position
      (binary position op left right).evaluateLeftAt env limit depth stack) :=
  evaluateAt_binary_unroll_on env stack h position op left right

theorem Expr.evaluateLeftAt_eq {limit : Int} {depth : Nat} (h : ¬ limit < depth) (e : Expr) :
    e.evaluateLeftAt env limit depth = e.evaluateAt env limit (e.leftDepth depth) := by
  cases e with
  | binary position op left right => exact (evaluateAt_binary_on env .unlimited h ..).symm
  | literal | history | constant | unary | call =>
    exact evaluateLeftAt_of_not_isInfix env limit .unlimited depth rfl

/-- The left operand stands one level lower only if it is not itself an infix operator. -/
theorem Expr.evaluateAt_binary {limit : Int} {depth : Nat} (h : ¬ limit < depth) (position : Nat)
    (op : InfixOperator) (left right : Expr) :
    (binary position op left right).evaluateAt env limit depth = (do
      let leftValue ← left.evaluateAt env limit (left.leftDepth depth)
      let rightValue ← right.evaluateAt env limit (depth + 1)
      placeAt position (Operand.applyInfix op leftValue rightValue)) := by
  rw [← evaluateLeftAt_eq env h, ← evaluateLeftAt_binary]
  exact evaluateAt_binary_on env .unlimited h position op left right

end

/-! ## The limit -/

section

variable (env : Environment) (limit : Int)

/-- A result, unless a node below the limit is visited before it is reached; then the error at the
first such node. -/
def limited {α : Type} (visits : List Visit) (result : Except EvaluationError α) :
    Except EvaluationError α :=
  match visits.find? (limit < ·.depth) with
  | some visit => .error ⟨.tooDeep limit, visit.position⟩
  | none => result

variable {α β : Type}

theorem limited_nil (result : Except EvaluationError α) : limited limit [] result = result := rfl

theorem limited_cons_of_lt {visit : Visit} (h : limit < visit.depth) (rest : List Visit)
    (result : Except EvaluationError α) :
    limited limit (visit :: rest) result = .error ⟨.tooDeep limit, visit.position⟩ := by
  rw [limited, List.find?_cons_of_pos (by simpa using h)]

theorem limited_cons_of_not_lt {visit : Visit} (h : ¬ limit < visit.depth) (rest : List Visit)
    (result : Except EvaluationError α) :
    limited limit (visit :: rest) result = limited limit rest result := by
  rw [limited, List.find?_cons_of_neg (by simpa using h)]
  rfl

/-- Two steps in a row visit the nodes of the second step only if the first one succeeds. -/
theorem limited_bind (first second : List Visit) (result : Except EvaluationError α)
    (next : α → Except EvaluationError β) :
    (limited limit first result >>= fun a => limited limit second (next a)) =
      limited limit (first ++ if result.isOk then second else []) (result >>= next) := by
  unfold limited
  rw [List.find?_append]
  cases first.find? (limit < ·.depth) with
  | some visit => rfl
  | none =>
    cases result with
    | error error => rfl
    | ok a => rfl

/-- A last step that visits no node. -/
theorem limited_bind_last (visits : List Visit) (result : Except EvaluationError α)
    (next : α → Except EvaluationError β) :
    (limited limit visits result >>= next) = limited limit visits (result >>= next) := by
  have h := limited_bind limit visits [] result next
  rwa [ite_self, List.append_nil] at h

theorem Expr.visits_eq_cons (depth : Nat) (e : Expr) :
    ∃ below, e.visits env depth = ⟨depth, e.position⟩ :: below := by
  cases e <;> exact ⟨_, by rw [Expr.visits]; rfl⟩

/-- A node below the limit is refused before anything else, so only its operands are left to look
at. -/
theorem Expr.evaluateAt_eq_limited_of (depth : Nat) (e : Expr)
    (h : ¬ limit < depth → e.evaluateAt env limit depth =
      limited limit (e.visits env depth).tail (e.meaning env)) :
    e.evaluateAt env limit depth = limited limit (e.visits env depth) (e.meaning env) := by
  obtain ⟨below, hvisits⟩ := e.visits_eq_cons env depth
  rw [hvisits] at h ⊢
  by_cases hdeep : limit < depth
  · rw [evaluateAt_of_lt env hdeep e, limited_cons_of_lt limit hdeep]
  · rw [limited_cons_of_not_lt limit hdeep, h hdeep, List.tail_cons]

mutual

/-- **The evaluator is plain recursion under a limit.** -/
theorem Expr.evaluateAt_eq_limited (depth : Nat) : (e : Expr) →
    e.evaluateAt env limit depth = limited limit (e.visits env depth) (e.meaning env)
  | .literal position value => by
    refine Expr.evaluateAt_eq_limited_of env limit depth _ fun h => ?_
    rw [Expr.evaluateAt_literal env h, Expr.visits, Expr.meaning, List.tail_cons, limited_nil]
  | .history position index => by
    refine Expr.evaluateAt_eq_limited_of env limit depth _ fun h => ?_
    rw [Expr.evaluateAt_history env h, Expr.visits, Expr.meaning, List.tail_cons, limited_nil]
  | .constant position name => by
    refine Expr.evaluateAt_eq_limited_of env limit depth _ fun h => ?_
    rw [Expr.evaluateAt_constant env h, Expr.visits, Expr.meaning, List.tail_cons, limited_nil]
  | .unary position op operand => by
    refine Expr.evaluateAt_eq_limited_of env limit depth _ fun h => ?_
    rw [Expr.evaluateAt_unary env h, Expr.visits, Expr.meaning, List.tail_cons,
      Expr.evaluateAt_eq_limited (depth + 1) operand, limited_bind_last]
  | .binary position op left right => by
    refine Expr.evaluateAt_eq_limited_of env limit depth _ fun h => ?_
    rw [Expr.evaluateAt_binary env h, Expr.visits, Expr.meaning, List.tail_cons,
      Expr.evaluateAt_eq_limited (left.leftDepth depth) left,
      Expr.evaluateAt_eq_limited (depth + 1) right]
    simp only [limited_bind_last limit (right.visits env (depth + 1))]
    rw [limited_bind]
  | .call position name arguments => by
    refine Expr.evaluateAt_eq_limited_of env limit depth _ fun h => ?_
    rw [Expr.evaluateAt_call env h, Expr.visits, Expr.meaning, List.tail_cons,
      Expr.evaluateAllAt_eq_limited (depth + 1) arguments]
    simp only [limited_bind_last]
    -- the name is looked up before any argument is visited
    exact limited_bind limit [] (Expr.visitsAll env (depth + 1) arguments) _ _

theorem Expr.evaluateAllAt_eq_limited (depth : Nat) : (arguments : List Expr) →
    Expr.evaluateAllAt env limit depth arguments =
      limited limit (Expr.visitsAll env depth arguments) (Expr.meaningAll env arguments)
  | [] => by
    rw [Expr.evaluateAllAt_nil]
    rfl
  | argument :: rest => by
    rw [Expr.evaluateAllAt_cons, Expr.evaluateAt_eq_limited depth argument,
      Expr.evaluateAllAt_eq_limited depth rest]
    simp only [limited_bind_last limit (Expr.visitsAll env depth rest)]
    rw [limited_bind, Expr.meaningAll, Expr.visitsAll]

end

theorem Expr.failsOnly_ne_stackExhausted (depth : Nat) (e : Expr) :
    FailsOnly (fun error => error.fault ≠ .stackExhausted) (e.evaluateAt env limit depth) := by
  rw [Expr.evaluateAt_eq_limited]
  unfold limited
  split
  · exact .error nofun
  · exact (e.failsOnly_isOfNode env).mono fun _ h => h.2.2

/-- No error of an evaluation with room for all calls is placed anew. -/
theorem Expr.evaluate_eq_evaluateAt (e : Expr) :
    e.evaluate env limit = e.evaluateAt env limit 0 :=
  mapError_eq_self ((e.failsOnly_ne_stackExhausted env limit 0).mono fun _ h => if_neg h)

end

/-! ## Visits and depth -/

section

variable (env : Environment)

theorem Expr.leftDepth_add_chainDepth (depth : Nat) (left : Expr) :
    left.leftDepth depth + left.chainDepth =
      depth + if left.isInfix then left.chainDepth else left.chainDepth + 1 := by
  unfold Expr.leftDepth
  split <;> omega

mutual

/-- No node is visited deeper than the tree is. -/
theorem Expr.depth_le_of_mem_visits {visit : Visit} (depth : Nat) : (e : Expr) →
    visit ∈ e.visits env depth → visit.depth ≤ depth + e.chainDepth
  | .literal .. | .history .. | .constant .. => by
    intro h
    rw [Expr.visits, List.mem_singleton] at h
    rw [h]
    exact Nat.le_add_right _ _
  | .unary position op operand => by
    intro h
    rw [Expr.visits, List.mem_cons] at h
    rcases h with rfl | h
    · exact Nat.le_add_right _ _
    · have hoperand := Expr.depth_le_of_mem_visits (depth + 1) operand h
      rw [Expr.chainDepth]
      omega
  | .binary position op left right => by
    intro h
    rw [Expr.visits, List.mem_cons, List.mem_append, List.mem_ite_nil_right] at h
    rw [Expr.chainDepth]
    rcases h with rfl | h | ⟨_, h⟩
    · exact Nat.le_add_right _ _
    · have hleft := Expr.depth_le_of_mem_visits (left.leftDepth depth) left h
      rw [Expr.leftDepth_add_chainDepth] at hleft
      omega
    · have hright := Expr.depth_le_of_mem_visits (depth + 1) right h
      omega
  | .call position name arguments => by
    intro h
    rw [Expr.visits, List.mem_cons, List.mem_ite_nil_right] at h
    rw [Expr.chainDepth]
    rcases h with rfl | ⟨_, h⟩
    · exact Nat.le_add_right _ _
    · exact Expr.depth_le_of_mem_visitsAll depth arguments h

theorem Expr.depth_le_of_mem_visitsAll {visit : Visit} (depth : Nat) : (arguments : List Expr) →
    visit ∈ Expr.visitsAll env (depth + 1) arguments →
      visit.depth ≤ depth + Expr.chainDepthAll arguments
  | [] => by
    intro h
    rw [Expr.visitsAll] at h
    exact absurd h List.not_mem_nil
  | argument :: rest => by
    intro h
    rw [Expr.visitsAll, List.mem_append, List.mem_ite_nil_right] at h
    rw [Expr.chainDepthAll]
    rcases h with h | ⟨_, h⟩
    · have hargument := Expr.depth_le_of_mem_visits (depth + 1) argument h
      omega
    · have hrest := Expr.depth_le_of_mem_visitsAll depth rest h
      omega

end

mutual

/-- A tree with a value is visited down to its deepest node. -/
theorem Expr.exists_visit_of_meaning {value : Value} (depth : Nat) : (e : Expr) →
    e.meaning env = .ok value → ∃ visit ∈ e.visits env depth, visit.depth = depth + e.chainDepth
  | .literal .. | .history .. | .constant .. => by
    intro _
    rw [Expr.visits]
    exact ⟨_, List.mem_singleton_self _, rfl⟩
  | .unary position op operand => by
    intro h
    rw [Expr.meaning, Result.bind_eq_ok_iff] at h
    obtain ⟨_, hoperand, _⟩ := h
    obtain ⟨visit, hmem, hdepth⟩ := Expr.exists_visit_of_meaning (depth + 1) operand hoperand
    rw [Expr.visits, Expr.chainDepth]
    exact ⟨visit, List.mem_cons_of_mem _ hmem, by omega⟩
  | .binary position op left right => by
    intro h
    rw [Expr.meaning, Result.bind_eq_ok_iff] at h
    obtain ⟨_, hleft, h⟩ := h
    rw [Result.bind_eq_ok_iff] at h
    obtain ⟨_, hright, _⟩ := h
    obtain ⟨visit, hmem, hdepth⟩ := Expr.exists_visit_of_meaning (left.leftDepth depth) left hleft
    obtain ⟨visit', hmem', hdepth'⟩ := Expr.exists_visit_of_meaning (depth + 1) right hright
    rw [Expr.leftDepth_add_chainDepth] at hdepth
    rw [Expr.visits, Expr.chainDepth, hleft]
    -- the deeper of the two operands
    by_cases hle : right.chainDepth + 1 ≤
        if left.isInfix then left.chainDepth else left.chainDepth + 1
    · exact ⟨visit, List.mem_cons_of_mem _ (List.mem_append_left _ hmem), by omega⟩
    · exact ⟨visit', List.mem_cons_of_mem _ (List.mem_append_right _ hmem'), by omega⟩
  | .call position name arguments => by
    intro h
    rw [Expr.meaning, Result.bind_eq_ok_iff] at h
    obtain ⟨_, hfunction, h⟩ := h
    rw [Result.bind_eq_ok_iff] at h
    obtain ⟨_, harguments, _⟩ := h
    rw [Expr.visits, Expr.chainDepth, hfunction]
    rcases Expr.exists_visit_of_meaningAll depth arguments harguments with
      hzero | ⟨visit, hmem, hdepth⟩
    · exact ⟨_, List.mem_cons_self, by rw [hzero]; rfl⟩
    · exact ⟨visit, List.mem_cons_of_mem _ hmem, hdepth⟩

theorem Expr.exists_visit_of_meaningAll {values : List Value} (depth : Nat) :
    (arguments : List Expr) → Expr.meaningAll env arguments = .ok values →
      Expr.chainDepthAll arguments = 0 ∨
        ∃ visit ∈ Expr.visitsAll env (depth + 1) arguments,
          visit.depth = depth + Expr.chainDepthAll arguments
  | [] => fun _ => .inl rfl
  | argument :: rest => by
    intro h
    rw [Expr.meaningAll, Result.bind_eq_ok_iff] at h
    obtain ⟨_, hargument, h⟩ := h
    rw [Result.bind_eq_ok_iff] at h
    obtain ⟨_, hrest, _⟩ := h
    obtain ⟨visit, hmem, hdepth⟩ := Expr.exists_visit_of_meaning (depth + 1) argument hargument
    rw [Expr.visitsAll, Expr.chainDepthAll, hargument]
    right
    rcases Expr.exists_visit_of_meaningAll depth rest hrest with hzero | ⟨visit', hmem', hdepth'⟩
    · exact ⟨visit, List.mem_append_left _ hmem, by omega⟩
    · by_cases hle : Expr.chainDepthAll rest ≤ argument.chainDepth + 1
      · exact ⟨visit, List.mem_append_left _ hmem, by omega⟩
      · exact ⟨visit', List.mem_append_right _ hmem', by omega⟩

end

/-! ## Refinement -/

theorem limited_of_forall_le {α : Type} {limit : Int} {visits : List Visit}
    (h : ∀ visit ∈ visits, (visit.depth : Int) ≤ limit) (result : Except EvaluationError α) :
    limited limit visits result = result := by
  have hnone : visits.find? (limit < ·.depth) = none := by
    rw [List.find?_eq_none]
    intro visit hmem
    simpa using h visit hmem
  rw [limited, hnone]

/-- A limit either does not show or shows as the error at the first node below it. -/
theorem limited_cases {α : Type} (limit : Int) (visits : List Visit)
    (result : Except EvaluationError α) :
    (∀ visit ∈ visits, (visit.depth : Int) ≤ limit) ∨
      ∃ before visit after, visits = before ++ visit :: after ∧
        (∀ earlier ∈ before, (earlier.depth : Int) ≤ limit) ∧ limit < visit.depth ∧
        limited limit visits result = .error ⟨.tooDeep limit, visit.position⟩ := by
  cases hfind : visits.find? (limit < ·.depth) with
  | none =>
    left
    intro visit hmem
    simpa using List.find?_eq_none.mp hfind visit hmem
  | some visit =>
    right
    obtain ⟨hdeep, before, after, hvisits, hbefore⟩ := List.find?_eq_some_iff_append.mp hfind
    refine ⟨before, visit, after, hvisits, ?_, by simpa using hdeep, ?_⟩
    · intro earlier hmem
      simpa using hbefore earlier hmem
    · rw [limited, hfind]

/-- **Plain recursion under a limit.**  For a tree of at most `limit` levels it is plain recursion.
In a deeper one it ends at the first node below the limit, unless plain recursion ends with an error
before it comes to such a node. -/
theorem Expr.limited_meaning (limit : Int) (e : Expr) :
    (e.chainDepth ≤ limit → limited limit (e.visits env 0) (e.meaning env) = e.meaning env) ∧
    (limit < e.chainDepth →
      (∃ before visit after, e.visits env 0 = before ++ visit :: after ∧
        (∀ earlier ∈ before, (earlier.depth : Int) ≤ limit) ∧ limit < visit.depth ∧
        limited limit (e.visits env 0) (e.meaning env) =
          .error ⟨.tooDeep limit, visit.position⟩) ∨
      ∃ error, e.meaning env = .error error ∧
        (∀ visit ∈ e.visits env 0, (visit.depth : Int) ≤ limit) ∧
        limited limit (e.visits env 0) (e.meaning env) = .error error) := by
  refine ⟨fun hle => limited_of_forall_le (fun visit hmem => ?_) _, fun hlt => ?_⟩
  · have hdepth := e.depth_le_of_mem_visits env 0 hmem
    omega
  · rcases limited_cases limit (e.visits env 0) (e.meaning env) with
      hshallow | ⟨before, visit, after, hvisits, hbefore, hdeep, herror⟩
    · right
      cases hmeaning : e.meaning env with
      | ok value =>
        obtain ⟨visit, hmem, hdepth⟩ := e.exists_visit_of_meaning env 0 hmeaning
        have hle := hshallow visit hmem
        omega
      | error error => exact ⟨error, rfl, hshallow, limited_of_forall_le hshallow _⟩
    · exact .inl ⟨before, visit, after, hvisits, hbefore, hdeep, herror⟩

end

end TypedCalc
