import TypedCalc.Proofs.Expr.Steps

/-!
# Runs of the parser

`Run` is the parser as a relation between a phase, a state and an outcome, with one rule for each
way a phase can go.  Induction on a run has one case for each rule, so what holds of the parser is
proved rule by rule.

* `Calls`: which phases a phase calls, and in which states.
* `Calls.measure_lt`: a call leaves less to do, so calls do not go on for ever.
* `run_spec` and `Run.run_eq`: every phase has exactly one run in every state, and its outcome is
  what the functions compute.
-/

namespace TypedCalc.Expr

/-! ## Runs -/

/-- What happens in a run of a phase, step by step. -/
inductive Run (source : Source) : Phase → State → Outcome → Prop
  /-- Above the last level there are only prefix operators. -/
  | top {level : Nat} {s : State} {o : Outcome} (h : ¬ level < InfixOperator.levelCount)
      (inner : Run source .prefixed s o) : Run source (.level level) s o
  /-- A level is a first operand and a chain. -/
  | level {level : Nat} {s after : State} {first : Expr} {o : Outcome}
      (h : level < InfixOperator.levelCount)
      (operand : Run source (.level (level + 1)) s (.expr first after))
      (chain : Run source (.chain level first) after o) : Run source (.level level) s o
  /-- The first operand fails. -/
  | levelStop {level : Nat} {s : State} {failure : Stop} (h : level < InfixOperator.levelCount)
      (operand : Run source (.level (level + 1)) s (.stop failure)) :
      Run source (.level level) s (.stop failure)
  /-- No operator of the level follows. -/
  | chainEnd {level : Nat} {left : Expr} {s : State} (h : infixOfLevel? level s.rest = none) :
      Run source (.chain level left) s (.expr left s)
  /-- An operator and its right operand are added to the chain. -/
  | chain {level : Nat} {left right : Expr} {s after : State} {op : InfixOperator} {position : Nat}
      {rest : List Token} {o : Outcome}
      (h : infixOfLevel? level s.rest = some (op, position, rest))
      (operand : Run source (.level (level + 1)) { s with rest := rest } (.expr right after))
      (chain : Run source (.chain level (.binary position op left right)) after o) :
      Run source (.chain level left) s o
  /-- A right operand fails. -/
  | chainStop {level : Nat} {left : Expr} {s : State} {op : InfixOperator} {position : Nat}
      {rest : List Token} {failure : Stop}
      (h : infixOfLevel? level s.rest = some (op, position, rest))
      (operand : Run source (.level (level + 1)) { s with rest := rest } (.stop failure)) :
      Run source (.chain level left) s (.stop failure)
  /-- There is no prefix operator. -/
  | unprefixed {s : State} {o : Outcome} (h : prefixAt? s.rest = none)
      (operand : Run source .operand s o) : Run source .prefixed s o
  /-- A prefix operator is nested too deeply. -/
  | prefixDeep {s : State} {op : PrefixOperator} {position : Nat} {rest : List Token}
      (h : prefixAt? s.rest = some (op, position, rest))
      (hdeep : source.limit < (s.depth + 1 : Nat)) :
      Run source .prefixed s (.stop ⟨⟨.tooDeep source.limit, position⟩, rest⟩)
  /-- A prefix operator before what follows. -/
  | prefixed {s after : State} {op : PrefixOperator} {position : Nat} {rest : List Token}
      {operand : Expr} (h : prefixAt? s.rest = some (op, position, rest))
      (hdeep : ¬ source.limit < (s.depth + 1 : Nat))
      (inner : Run source .prefixed { s with rest := rest, depth := s.depth + 1 }
        (.expr operand after)) :
      Run source .prefixed s
        (.expr (.unary position op operand) { after with depth := after.depth - 1 })
  /-- What follows a prefix operator fails. -/
  | prefixStop {s : State} {op : PrefixOperator} {position : Nat} {rest : List Token}
      {failure : Stop} (h : prefixAt? s.rest = some (op, position, rest))
      (hdeep : ¬ source.limit < (s.depth + 1 : Nat))
      (inner : Run source .prefixed { s with rest := rest, depth := s.depth + 1 }
        (.stop failure)) :
      Run source .prefixed s (.stop failure)
  /-- A number. -/
  | number {s : State} {value : Value} {position length : Nat} {rest : List Token}
      (h : s.rest = ⟨.number value, position, length⟩ :: rest) :
      Run source .operand s (.expr (.literal position value) { s with rest := rest })
  /-- A history reference. -/
  | history {s : State} {index position length : Nat} {rest : List Token}
      (h : s.rest = ⟨.history index, position, length⟩ :: rest) :
      Run source .operand s (.expr (.history position index) { s with rest := rest })
  /-- A name that no parenthesis follows. -/
  | constant {s : State} {name : String} {position length : Nat} {rest : List Token}
      (h : s.rest = ⟨.name name, position, length⟩ :: rest)
      (hnext : ∀ token ∈ rest.head?, token.kind ≠ .openParen) :
      Run source .operand s (.expr (.constant position name) { s with rest := rest })
  /-- A group is nested too deeply. -/
  | groupDeep {s : State} {opened length : Nat} {rest : List Token}
      (h : s.rest = ⟨.openParen, opened, length⟩ :: rest)
      (hdeep : source.limit < (s.depth + 1 : Nat)) :
      Run source .operand s (.stop ⟨⟨.tooDeep source.limit, opened⟩, s.rest⟩)
  /-- An expression in parentheses, which may not be closed. -/
  | group {s after : State} {opened length : Nat} {rest : List Token} {e : Expr}
      (h : s.rest = ⟨.openParen, opened, length⟩ :: rest)
      (hdeep : ¬ source.limit < (s.depth + 1 : Nat))
      (inner : Run source (.level 0) (s.inside source rest opened .group) (.expr e after)) :
      Run source .operand s (Outcome.close source opened e after)
  /-- The expression in parentheses fails. -/
  | groupStop {s : State} {opened length : Nat} {rest : List Token} {failure : Stop}
      (h : s.rest = ⟨.openParen, opened, length⟩ :: rest)
      (hdeep : ¬ source.limit < (s.depth + 1 : Nat))
      (inner : Run source (.level 0) (s.inside source rest opened .group) (.stop failure)) :
      Run source .operand s (.stop failure)
  /-- A call is nested too deeply. -/
  | callDeep {s : State} {name : String} {position opened length length' : Nat}
      {rest : List Token}
      (h : s.rest = ⟨.name name, position, length⟩ :: ⟨.openParen, opened, length'⟩ :: rest)
      (hdeep : source.limit < (s.depth + 1 : Nat)) :
      Run source .operand s
        (.stop ⟨⟨.tooDeep source.limit, opened⟩, ⟨.openParen, opened, length'⟩ :: rest⟩)
  /-- A call without arguments. -/
  | callEmpty {s : State} {name : String} {position opened length length' : Nat}
      {rest : List Token}
      (h : s.rest = ⟨.name name, position, length⟩ :: ⟨.openParen, opened, length'⟩ :: rest)
      (hdeep : ¬ source.limit < (s.depth + 1 : Nat))
      (hnext : ((s.inside source rest opened (.call name)).current source).kind = .closeParen) :
      Run source .operand s (Outcome.close source opened (.call position name [])
        (s.inside source rest opened (.call name)))
  /-- A call with arguments, which may not be closed. -/
  | call {s after : State} {name : String} {position opened length length' : Nat}
      {rest : List Token} {es : List Expr}
      (h : s.rest = ⟨.name name, position, length⟩ :: ⟨.openParen, opened, length'⟩ :: rest)
      (hdeep : ¬ source.limit < (s.depth + 1 : Nat))
      (hnext : ((s.inside source rest opened (.call name)).current source).kind ≠ .closeParen)
      (inner : Run source (.arguments name) (s.inside source rest opened (.call name))
        (.arguments es after)) :
      Run source .operand s (Outcome.close source opened (.call position name es) after)
  /-- An argument of a call fails. -/
  | callStop {s : State} {name : String} {position opened length length' : Nat}
      {rest : List Token} {failure : Stop}
      (h : s.rest = ⟨.name name, position, length⟩ :: ⟨.openParen, opened, length'⟩ :: rest)
      (hdeep : ¬ source.limit < (s.depth + 1 : Nat))
      (hnext : ((s.inside source rest opened (.call name)).current source).kind ≠ .closeParen)
      (inner : Run source (.arguments name) (s.inside source rest opened (.call name))
        (.stop failure)) :
      Run source .operand s (.stop failure)
  /-- No operand can start here. -/
  | unexpected {s : State} (h : ∀ token ∈ s.rest.head?, token.kind.startsOperand = false) :
      Run source .operand s (.stop (s.unexpected source))
  /-- An argument is missing. -/
  | argumentMissing {s : State} {name : String}
      (h : (s.current source).kind = .comma ∨ (s.current source).kind = .closeParen) :
      Run source (.arguments name) s (.stop
        ⟨⟨.emptyArgument name (s.current source).kind, (s.current source).position⟩, s.rest⟩)
  /-- An argument fails. -/
  | argumentStop {s : State} {name : String} {failure : Stop}
      (hcomma : (s.current source).kind ≠ .comma) (hclose : (s.current source).kind ≠ .closeParen)
      (first : Run source (.level 0) s (.stop failure)) :
      Run source (.arguments name) s (.stop failure)
  /-- The last argument. -/
  | argumentLast {s after : State} {name : String} {e : Expr}
      (hcomma : (s.current source).kind ≠ .comma) (hclose : (s.current source).kind ≠ .closeParen)
      (first : Run source (.level 0) s (.expr e after)) (hnext : afterComma? after.rest = none) :
      Run source (.arguments name) s (.arguments [e] after)
  /-- An argument before others. -/
  | argument {s after after' : State} {name : String} {e : Expr} {es : List Expr}
      {rest : List Token}
      (hcomma : (s.current source).kind ≠ .comma) (hclose : (s.current source).kind ≠ .closeParen)
      (first : Run source (.level 0) s (.expr e after))
      (hnext : afterComma? after.rest = some rest)
      (others : Run source (.arguments name) { after with rest := rest } (.arguments es after')) :
      Run source (.arguments name) s (.arguments (e :: es) after')
  /-- An argument after the first one fails. -/
  | argumentsStop {s after : State} {name : String} {e : Expr} {rest : List Token}
      {failure : Stop}
      (hcomma : (s.current source).kind ≠ .comma) (hclose : (s.current source).kind ≠ .closeParen)
      (first : Run source (.level 0) s (.expr e after))
      (hnext : afterComma? after.rest = some rest)
      (others : Run source (.arguments name) { after with rest := rest } (.stop failure)) :
      Run source (.arguments name) s (.stop failure)

/-- A run gives what the functions compute. -/
theorem Run.run_eq {source : Source} {phase : Phase} {s : State} {o : Outcome}
    (h : Run source phase s o) : run source phase s = o := by
  induction h with
  | top h inner ih => rw [run_level_of_not_lt source _ h, ih]
  | level h operand chain ihoperand ihchain =>
    rw [run_level_of_lt source _ h, ihoperand]
    exact ihchain
  | levelStop h operand ih =>
    rw [run_level_of_lt source _ h, ih]
    rfl
  | chainEnd h => exact run_chain_of_none source _ _ h
  | chain h operand chain ihoperand ihchain =>
    rw [run_chain_of_some source _ _ h, ihoperand]
    exact ihchain
  | chainStop h operand ih =>
    rw [run_chain_of_some source _ _ h, ih]
    rfl
  | unprefixed h operand ih => rw [run_prefixed_of_none source _ h, ih]
  | prefixDeep h hdeep => rw [run_prefixed_of_some source _ h, if_pos hdeep]
  | prefixed h hdeep inner ih =>
    rw [run_prefixed_of_some source _ h, if_neg hdeep, ih]
    rfl
  | prefixStop h hdeep inner ih =>
    rw [run_prefixed_of_some source _ h, if_neg hdeep, ih]
    rfl
  | number h => exact run_number source _ h
  | history h => exact run_history source _ h
  | constant h hnext => exact run_constant source _ h hnext
  | groupDeep h hdeep => rw [run_group source _ h, if_pos hdeep]
  | group h hdeep inner ih =>
    rw [run_group source _ h, if_neg hdeep, ih]
    rfl
  | groupStop h hdeep inner ih =>
    rw [run_group source _ h, if_neg hdeep, ih]
    rfl
  | @callDeep s name position opened length length' rest h hdeep =>
    by_cases hnext : ((s.inside source rest opened (.call name)).current source).kind = .closeParen
    · rw [run_call_empty source _ h hnext, if_pos hdeep]
    · rw [run_call source _ h hnext, if_pos hdeep]
  | callEmpty h hdeep hnext => rw [run_call_empty source _ h hnext, if_neg hdeep]
  | call h hdeep hnext inner ih =>
    rw [run_call source _ h hnext, if_neg hdeep, ih]
    rfl
  | callStop h hdeep hnext inner ih =>
    rw [run_call source _ h hnext, if_neg hdeep, ih]
    rfl
  | unexpected h => exact run_unexpected source _ h
  | argumentMissing h => exact run_arguments_of_missing source _ h
  | argumentStop hcomma hclose first ih =>
    rw [run_arguments source _ hcomma hclose, ih]
    rfl
  | argumentLast hcomma hclose first hnext ih =>
    rw [run_arguments source _ hcomma hclose, ih]
    simp only [Outcome.andThen, hnext]
  | argument hcomma hclose first hnext others ihfirst ihothers =>
    rw [run_arguments source _ hcomma hclose, ihfirst]
    simp only [Outcome.andThen, hnext, ihothers]
    rfl
  | argumentsStop hcomma hclose first hnext others ihfirst ihothers =>
    rw [run_arguments source _ hcomma hclose, ihfirst]
    simp only [Outcome.andThen, hnext, ihothers]
    rfl

/-! ## Every phase has a run -/

theorem Outcome.length_of_ofExpr {bound : Nat} {result : Except Stop (Parsed Expr bound)}
    {e : Expr} {after : State} (h : Outcome.ofExpr result = .expr e after) :
    after.rest.length < bound := by
  cases result with
  | error failure => exact nomatch h
  | ok parsed =>
    cases h
    exact parsed.shorter

theorem Outcome.ofExpr_ne_arguments {bound : Nat} (result : Except Stop (Parsed Expr bound))
    (es : List Expr) (after : State) : Outcome.ofExpr result ≠ .arguments es after := by
  cases result <;> nofun

theorem Outcome.ofArguments_ne_expr {bound : Nat}
    (result : Except Stop (Parsed (List Expr) bound)) (e : Expr) (after : State) :
    Outcome.ofArguments result ≠ .expr e after := by
  cases result <;> nofun

theorem afterComma?_eq_some {tokens rest : List Token} (h : afterComma? tokens = some rest) :
    ∃ position length, tokens = ⟨.comma, position, length⟩ :: rest := by
  unfold afterComma? at h
  split at h
  · cases h
    exact ⟨_, _, rfl⟩
  · exact nomatch h

theorem openParen_head (tokens : List Token) :
    (∀ token ∈ tokens.head?, token.kind ≠ .openParen) ∨
      ∃ opened length rest, tokens = ⟨.openParen, opened, length⟩ :: rest := by
  cases tokens with
  | nil => exact .inl fun _ h => nomatch h
  | cons token rest =>
    obtain ⟨kind, opened, length⟩ := token
    by_cases h : kind = .openParen
    · exact .inr ⟨opened, length, rest, by rw [h]⟩
    · left
      rintro token ⟨⟩
      exact h

/-- How many phases can follow each other before a token is taken. -/
def Phase.cost : Phase → Nat
  | .level n => 3 + (InfixOperator.levelCount - n)
  | .chain _ _ => 0
  | .prefixed => 2
  | .operand => 1
  | .arguments _ => 13

/-- What is left to do in a phase, of which the number of tokens is the most. -/
def Phase.measure (phase : Phase) (s : State) : Nat := 16 * s.rest.length + phase.cost

/-- A phase that starts in a state. -/
structure Call where
  /-- The phase. -/
  phase : Phase
  /-- The state. -/
  state : State

/-- Whether a phase in a state asks for the outcome of another phase in another state.  Where it
asks for several in a row, the later ones start from what the earlier ones gave. -/
inductive Calls (source : Source) : Call → Call → Prop
  /-- Above the last level there are only prefix operators. -/
  | top {level : Nat} {s : State} (h : ¬ level < InfixOperator.levelCount) :
      Calls source ⟨.level level, s⟩ ⟨.prefixed, s⟩
  /-- A level starts with a first operand. -/
  | level {level : Nat} {s : State} (h : level < InfixOperator.levelCount) :
      Calls source ⟨.level level, s⟩ ⟨.level (level + 1), s⟩
  /-- After its first operand a level goes on with a chain. -/
  | levelChain {level : Nat} {s after : State} {first : Expr}
      (h : level < InfixOperator.levelCount)
      (operand : Run source (.level (level + 1)) s (.expr first after)) :
      Calls source ⟨.level level, s⟩ ⟨.chain level first, after⟩
  /-- A right operand follows an operator of a chain. -/
  | right {level : Nat} {left : Expr} {s : State} {op : InfixOperator} {position : Nat}
      {rest : List Token} (h : infixOfLevel? level s.rest = some (op, position, rest)) :
      Calls source ⟨.chain level left, s⟩ ⟨.level (level + 1), { s with rest := rest }⟩
  /-- After a right operand a chain goes on. -/
  | chain {level : Nat} {left right : Expr} {s after : State} {op : InfixOperator} {position : Nat}
      {rest : List Token} (h : infixOfLevel? level s.rest = some (op, position, rest))
      (operand : Run source (.level (level + 1)) { s with rest := rest } (.expr right after)) :
      Calls source ⟨.chain level left, s⟩ ⟨.chain level (.binary position op left right), after⟩
  /-- An operand without a prefix operator. -/
  | unprefixed {s : State} (h : prefixAt? s.rest = none) :
      Calls source ⟨.prefixed, s⟩ ⟨.operand, s⟩
  /-- What follows a prefix operator. -/
  | prefixed {s : State} {op : PrefixOperator} {position : Nat} {rest : List Token}
      (h : prefixAt? s.rest = some (op, position, rest))
      (hdeep : ¬ source.limit < (s.depth + 1 : Nat)) :
      Calls source ⟨.prefixed, s⟩ ⟨.prefixed, { s with rest := rest, depth := s.depth + 1 }⟩
  /-- The expression in the parentheses of a group. -/
  | group {s : State} {opened length : Nat} {rest : List Token}
      (h : s.rest = ⟨.openParen, opened, length⟩ :: rest)
      (hdeep : ¬ source.limit < (s.depth + 1 : Nat)) :
      Calls source ⟨.operand, s⟩ ⟨.level 0, s.inside source rest opened .group⟩
  /-- The arguments of a call. -/
  | call {s : State} {name : String} {position opened length length' : Nat} {rest : List Token}
      (h : s.rest = ⟨.name name, position, length⟩ :: ⟨.openParen, opened, length'⟩ :: rest)
      (hdeep : ¬ source.limit < (s.depth + 1 : Nat))
      (hnext : ((s.inside source rest opened (.call name)).current source).kind ≠ .closeParen) :
      Calls source ⟨.operand, s⟩ ⟨.arguments name, s.inside source rest opened (.call name)⟩
  /-- The first of some arguments. -/
  | argument {s : State} {name : String}
      (hcomma : (s.current source).kind ≠ .comma)
      (hclose : (s.current source).kind ≠ .closeParen) :
      Calls source ⟨.arguments name, s⟩ ⟨.level 0, s⟩
  /-- The arguments after the first one. -/
  | arguments {s after : State} {name : String} {e : Expr} {rest : List Token}
      (hcomma : (s.current source).kind ≠ .comma)
      (hclose : (s.current source).kind ≠ .closeParen)
      (first : Run source (.level 0) s (.expr e after))
      (hnext : afterComma? after.rest = some rest) :
      Calls source ⟨.arguments name, s⟩ ⟨.arguments name, { after with rest := rest }⟩

theorem length_of_afterComma? {tokens rest : List Token} (h : afterComma? tokens = some rest) :
    rest.length < tokens.length := by
  obtain ⟨_, _, rfl⟩ := afterComma?_eq_some h
  exact Nat.lt_succ_self _

/-- An expression of a level takes a token. -/
theorem Run.length_lt {source : Source} {level : Nat} {s after : State} {e : Expr}
    (h : Run source (.level level) s (.expr e after)) : after.rest.length < s.rest.length :=
  Outcome.length_of_ofExpr h.run_eq

/-- **A call leaves less to do**: fewer tokens, or as many in a phase that comes later. -/
theorem Calls.measure_lt {source : Source} {caller callee : Call} (h : Calls source caller callee) :
    callee.phase.measure callee.state < caller.phase.measure caller.state := by
  have hcount := InfixOperator.levelCount_eq
  cases h with
  | top h | level h =>
    simp only [Phase.measure, Phase.cost]
    omega
  | levelChain h operand =>
    have hlength := operand.length_lt
    simp only [Phase.measure, Phase.cost]
    omega
  | right h =>
    have hrest := length_of_infixOfLevel? h
    simp only [Phase.measure, Phase.cost]
    omega
  | chain h operand =>
    have hrest := length_of_infixOfLevel? h
    have hlength := operand.length_lt
    simp only [Phase.measure, Phase.cost] at hlength ⊢
    omega
  | unprefixed h =>
    simp only [Phase.measure, Phase.cost]
    omega
  | prefixed h hdeep =>
    have hrest := length_of_prefixAt? h
    simp only [Phase.measure, Phase.cost]
    omega
  | group h hdeep | call h hdeep hnext =>
    simp only [Phase.measure, Phase.cost, State.inside, h, List.length_cons]
    omega
  | argument hcomma hclose =>
    simp only [Phase.measure, Phase.cost]
    omega
  | arguments hcomma hclose first hnext =>
    have hlength := first.length_lt
    have hrest := length_of_afterComma? hnext
    simp only [Phase.measure, Phase.cost]
    omega

/-- Whether everything that a phase in a state calls has a run. -/
def CallsRun (source : Source) (phase : Phase) (s : State) : Prop :=
  ∀ phase' s', Calls source ⟨phase, s⟩ ⟨phase', s'⟩ → Run source phase' s' (run source phase' s')

section

variable {source : Source} {s : State}

theorem run_spec_level {level : Nat} (ih : CallsRun source (.level level) s) :
    Run source (.level level) s (run source (.level level) s) := by
  by_cases h : level < InfixOperator.levelCount
  · rw [run_level_of_lt source s h]
    have hoperand := ih _ _ (.level h)
    cases hrun : run source (.level (level + 1)) s with
    | expr first after =>
      rw [hrun] at hoperand
      exact .level h hoperand (ih _ _ (.levelChain h hoperand))
    | arguments es after => exact absurd hrun (Outcome.ofExpr_ne_arguments _ _ _)
    | stop failure =>
      rw [hrun] at hoperand
      exact .levelStop h hoperand
  · rw [run_level_of_not_lt source s h]
    exact .top h (ih _ _ (.top h))

theorem run_spec_chain {level : Nat} {left : Expr} (ih : CallsRun source (.chain level left) s) :
    Run source (.chain level left) s (run source (.chain level left) s) := by
  cases h : infixOfLevel? level s.rest with
  | none =>
    rw [run_chain_of_none source s left h]
    exact .chainEnd h
  | some found =>
    obtain ⟨op, position, rest⟩ := found
    rw [run_chain_of_some source s left h]
    have hoperand := ih _ _ (.right h)
    cases hrun : run source (.level (level + 1)) { s with rest := rest } with
    | expr right after =>
      rw [hrun] at hoperand
      exact .chain h hoperand (ih _ _ (.chain h hoperand))
    | arguments es after => exact absurd hrun (Outcome.ofExpr_ne_arguments _ _ _)
    | stop failure =>
      rw [hrun] at hoperand
      exact .chainStop h hoperand

theorem run_spec_prefixed (ih : CallsRun source .prefixed s) :
    Run source .prefixed s (run source .prefixed s) := by
  cases h : prefixAt? s.rest with
  | none =>
    rw [run_prefixed_of_none source s h]
    exact .unprefixed h (ih _ _ (.unprefixed h))
  | some found =>
    obtain ⟨op, position, rest⟩ := found
    rw [run_prefixed_of_some source s h]
    by_cases hdeep : source.limit < (s.depth + 1 : Nat)
    · rw [if_pos hdeep]
      exact .prefixDeep h hdeep
    · rw [if_neg hdeep]
      have hinner := ih _ _ (.prefixed h hdeep)
      cases hrun : run source .prefixed { s with rest := rest, depth := s.depth + 1 } with
      | expr operand after =>
        rw [hrun] at hinner
        exact .prefixed h hdeep hinner
      | arguments es after => exact absurd hrun (Outcome.ofExpr_ne_arguments _ _ _)
      | stop failure =>
        rw [hrun] at hinner
        exact .prefixStop h hdeep hinner

theorem run_spec_group {opened length : Nat} {rest : List Token}
    (hrest : s.rest = ⟨.openParen, opened, length⟩ :: rest) (ih : CallsRun source .operand s) :
    Run source .operand s (run source .operand s) := by
  rw [run_group source s hrest]
  by_cases hdeep : source.limit < (s.depth + 1 : Nat)
  · rw [if_pos hdeep]
    exact .groupDeep hrest hdeep
  · rw [if_neg hdeep]
    have hinner := ih _ _ (.group hrest hdeep)
    cases hrun : run source (.level 0) (s.inside source rest opened .group) with
    | expr e after =>
      rw [hrun] at hinner
      exact .group hrest hdeep hinner
    | arguments es after => exact absurd hrun (Outcome.ofExpr_ne_arguments _ _ _)
    | stop failure =>
      rw [hrun] at hinner
      exact .groupStop hrest hdeep hinner

theorem run_spec_call {name : String} {position length opened length' : Nat} {rest : List Token}
    (hrest : s.rest = ⟨.name name, position, length⟩ :: ⟨.openParen, opened, length'⟩ :: rest)
    (ih : CallsRun source .operand s) : Run source .operand s (run source .operand s) := by
  by_cases hnext : ((s.inside source rest opened (.call name)).current source).kind = .closeParen
  · rw [run_call_empty source s hrest hnext]
    by_cases hdeep : source.limit < (s.depth + 1 : Nat)
    · rw [if_pos hdeep]
      exact .callDeep hrest hdeep
    · rw [if_neg hdeep]
      exact .callEmpty hrest hdeep hnext
  · rw [run_call source s hrest hnext]
    by_cases hdeep : source.limit < (s.depth + 1 : Nat)
    · rw [if_pos hdeep]
      exact .callDeep hrest hdeep
    · rw [if_neg hdeep]
      have hinner := ih _ _ (.call hrest hdeep hnext)
      cases hrun : run source (.arguments name) (s.inside source rest opened (.call name)) with
      | expr e after => exact absurd hrun (Outcome.ofArguments_ne_expr _ _ _)
      | arguments es after =>
        rw [hrun] at hinner
        exact .call hrest hdeep hnext hinner
      | stop failure =>
        rw [hrun] at hinner
        exact .callStop hrest hdeep hnext hinner

theorem run_spec_operand (ih : CallsRun source .operand s) :
    Run source .operand s (run source .operand s) := by
  match hrest : s.rest with
  | ⟨.number value, position, length⟩ :: rest =>
    rw [run_number source s hrest]
    exact .number hrest
  | ⟨.history index, position, length⟩ :: rest =>
    rw [run_history source s hrest]
    exact .history hrest
  | ⟨.openParen, opened, length⟩ :: rest => exact run_spec_group hrest ih
  | ⟨.name name, position, length⟩ :: rest =>
    rcases openParen_head rest with hnext | ⟨opened, length', rest, rfl⟩
    · rw [run_constant source s hrest hnext]
      exact .constant hrest hnext
    · exact run_spec_call hrest ih
  | [] | ⟨.operator _, _, _⟩ :: _ | ⟨.closeParen, _, _⟩ :: _ | ⟨.comma, _, _⟩ :: _
  | ⟨.endOfInput, _, _⟩ :: _ =>
    have hstart : ∀ token ∈ s.rest.head?, token.kind.startsOperand = false := by
      rw [hrest]
      intro token htoken
      cases htoken <;> rfl
    rw [run_unexpected source s hstart]
    exact .unexpected hstart

theorem run_spec_arguments {name : String} (ih : CallsRun source (.arguments name) s) :
    Run source (.arguments name) s (run source (.arguments name) s) := by
  by_cases hmissing : (s.current source).kind = .comma ∨ (s.current source).kind = .closeParen
  · rw [run_arguments_of_missing source s hmissing]
    exact .argumentMissing hmissing
  obtain ⟨hcomma, hclose⟩ := not_or.mp hmissing
  rw [run_arguments source s hcomma hclose]
  have hfirst := ih _ _ (.argument hcomma hclose)
  cases hrun : run source (.level 0) s with
  | expr first after =>
    rw [hrun] at hfirst
    rw [Outcome.andThen]
    cases hnext : afterComma? after.rest with
    | none => exact .argumentLast hcomma hclose hfirst hnext
    | some rest =>
      dsimp only
      have hothers := ih _ _ (.arguments hcomma hclose hfirst hnext)
      cases hrun' : run source (.arguments name) { after with rest := rest } with
      | expr e after => exact absurd hrun' (Outcome.ofArguments_ne_expr _ _ _)
      | arguments es after =>
        rw [hrun'] at hothers
        exact .argument hcomma hclose hfirst hnext hothers
      | stop failure =>
        rw [hrun'] at hothers
        exact .argumentsStop hcomma hclose hfirst hnext hothers
  | arguments es after => exact absurd hrun (Outcome.ofExpr_ne_arguments _ _ _)
  | stop failure =>
    rw [hrun] at hfirst
    exact .argumentStop hcomma hclose hfirst

end

/-- **Every phase has a run**, which is the only one by `Run.run_eq`. -/
theorem run_spec (source : Source) (phase : Phase) (s : State) :
    Run source phase s (run source phase s) := by
  have ih : CallsRun source phase s := fun phase' s' hcall =>
    have hless := hcall.measure_lt
    run_spec source phase' s'
  cases phase with
  | level level => exact run_spec_level ih
  | chain level left => exact run_spec_chain ih
  | prefixed => exact run_spec_prefixed ih
  | operand => exact run_spec_operand ih
  | arguments name => exact run_spec_arguments ih
termination_by phase.measure s

end TypedCalc.Expr
