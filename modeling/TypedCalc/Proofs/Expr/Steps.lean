import TypedCalc.Expr.OfTokens

/-!
# The parser, one phase at a time

The functions of the parser return a proof that they took a token, and every token list that a
proof looks at has to fit that type.  Here they become one function from a phase and a state to an
outcome without proofs, with one equation for each thing that a phase can find.

* `runOn`: the outcome on a stack, where a call that has no room ends the run.
* `run`: the outcome on a stack that never runs out.
-/

namespace TypedCalc

/-- Whether an operand can start with a token. -/
def TokenKind.startsOperand : TokenKind → Bool
  | .number _ | .history _ | .name _ | .openParen => true
  | _ => false

namespace Expr

/-! ## Phases and outcomes -/

/-- A function of the parser with its arguments. -/
inductive Phase
  /-- An expression of the infix operators of a level and those that bind more tightly. -/
  | level (level : Nat)
  /-- The operators of a level that follow an expression. -/
  | chain (level : Nat) (left : Expr)
  /-- Prefix operators before an operand. -/
  | prefixed
  /-- A number, a history reference, a constant, a call or a group. -/
  | operand
  /-- One or more arguments of a function. -/
  | arguments (name : String)

/-- What a function of the parser gives. -/
inductive Outcome
  /-- An expression and the state after it. -/
  | expr (e : Expr) (after : State)
  /-- Arguments and the state after them. -/
  | arguments (es : List Expr) (after : State)
  /-- An error. -/
  | stop (failure : Stop)

namespace Outcome

/-- The outcome of a function that gives an expression. -/
def ofExpr {bound : Nat} : Except Stop (Parsed Expr bound) → Outcome
  | .ok parsed => .expr parsed.result parsed.after
  | .error failure => .stop failure

/-- The outcome of a function that gives arguments. -/
def ofArguments {bound : Nat} : Except Stop (Parsed (List Expr) bound) → Outcome
  | .ok parsed => .arguments parsed.result parsed.after
  | .error failure => .stop failure

/-- An expression is passed on; anything else stays. -/
def andThen : Outcome → (Expr → State → Outcome) → Outcome
  | .expr e after, next => next e after
  | other, _ => other

/-- Arguments are passed on; anything else stays. -/
def andThenAll : Outcome → (List Expr → State → Outcome) → Outcome
  | .arguments es after, next => next es after
  | other, _ => other

end Outcome

/-- The tokens after a comma, if a comma comes next. -/
def afterComma? : List Token → Option (List Token)
  | ⟨.comma, _, _⟩ :: rest => some rest
  | _ => none

/-- The state behind an opening parenthesis at a position, with the tokens after it. -/
def State.inside (source : Source) (s : State) (rest : List Token) (opened : Nat)
    (opening : Opening) : State where
  rest := rest
  depth := s.depth + 1
  frames := ⟨opened, opening, snippetAt source.text opened⟩ :: s.frames

/-- The outcome of a group or a call after what stands in its parentheses. -/
def Outcome.close (source : Source) (opened : Nat) (e : Expr) (s : State) : Outcome :=
  match ({ s with depth := s.depth - 1 } : State).close source opened with
  | .ok closed => .expr e closed.after
  | .error failure => .stop failure

/-- The outcome of a function on a stack: what it gives inside its call, if there is room for it. -/
def Outcome.inCall (source : Source) (s : State) (stack : Stack) (body : Stack → Outcome) :
    Outcome :=
  match s.descend source stack with
  | .ok inner => body inner
  | .error failure => .stop failure

/-- The outcome of a phase on a stack. -/
def runOn (source : Source) (stack : Stack) : Phase → State → Outcome
  | .level level, s => .ofExpr (parseLevel source stack level s)
  | .chain level left, s => .ofExpr (parseChain source stack level left s)
  | .prefixed, s => .ofExpr (parsePrefix source stack s)
  | .operand, s => .ofExpr (parseOperand source stack s)
  | .arguments name, s => .ofArguments (parseArguments source stack name s)

/-- The outcome of a phase. -/
def run (source : Source) (phase : Phase) (s : State) : Outcome :=
  runOn source .unlimited phase s

/-! ## The equations on a stack -/

section

variable (source : Source) (stack : Stack) (s : State)

theorem runOn_level_of_lt {level : Nat} (h : level < InfixOperator.levelCount) :
    runOn source stack (.level level) s = .inCall source s stack fun stack =>
      (runOn source stack (.level (level + 1)) s).andThen
        fun first after => runOn source stack (.chain level first) after := by
  simp only [runOn]
  rw [parseLevel, Outcome.inCall]
  cases s.descend source stack with
  | error failure => rfl
  | ok inner =>
    simp only [bind, Except.bind, if_pos h]
    cases parseLevel source inner (level + 1) s with
    | error failure => rfl
    | ok first =>
      simp only [Outcome.ofExpr, Outcome.andThen]
      cases parseChain source inner level first.result first.after with
      | error failure => rfl
      | ok chain => rfl

theorem runOn_level_of_not_lt {level : Nat} (h : ¬ level < InfixOperator.levelCount) :
    runOn source stack (.level level) s =
      .inCall source s stack fun stack => runOn source stack .prefixed s := by
  simp only [runOn]
  rw [parseLevel, Outcome.inCall]
  cases s.descend source stack with
  | error failure => rfl
  | ok inner => simp only [bind, Except.bind, if_neg h]

theorem runOn_chain_of_none {level : Nat} (left : Expr) (h : infixOfLevel? level s.rest = none) :
    runOn source stack (.chain level left) s = .expr left s := by
  simp only [runOn]
  rw [parseChain]
  split
  · rename_i op position rest h'
    cases h.symm.trans h'
  · rfl

theorem runOn_chain_of_some {level : Nat} (left : Expr) {op : InfixOperator} {position : Nat}
    {rest : List Token} (h : infixOfLevel? level s.rest = some (op, position, rest)) :
    runOn source stack (.chain level left) s =
      (runOn source stack (.level (level + 1)) { s with rest := rest }).andThen fun right after =>
        runOn source stack (.chain level (.binary position op left right)) after := by
  simp only [runOn]
  rw [parseChain]
  split
  · rename_i op' position' rest' h'
    cases h.symm.trans h'
    cases parseLevel source stack (level + 1) { s with rest := rest } with
    | error failure => rfl
    | ok right =>
      simp only [Outcome.ofExpr, Outcome.andThen, bind, Except.bind]
      cases parseChain source stack level (.binary position op left right.result) right.after with
      | error failure => rfl
      | ok chain => rfl
  · rename_i h'
    cases h.symm.trans h'

theorem runOn_prefixed_of_none (h : prefixAt? s.rest = none) :
    runOn source stack .prefixed s =
      .inCall source s stack fun stack => runOn source stack .operand s := by
  simp only [runOn]
  rw [parsePrefix, Outcome.inCall]
  cases s.descend source stack with
  | error failure => rfl
  | ok inner =>
    simp only [bind, Except.bind]
    split
    · rename_i h'
      cases h.symm.trans h'
    · rfl

theorem runOn_prefixed_of_some {op : PrefixOperator} {position : Nat} {rest : List Token}
    (h : prefixAt? s.rest = some (op, position, rest)) :
    runOn source stack .prefixed s = .inCall source s stack fun stack =>
      if source.limit < (s.depth + 1 : Nat) then .stop ⟨⟨.tooDeep source.limit, position⟩, rest⟩
      else (runOn source stack .prefixed { s with rest := rest, depth := s.depth + 1 }).andThen
        fun operand after =>
          .expr (.unary position op operand) { after with depth := after.depth - 1 } := by
  simp only [runOn]
  rw [parsePrefix, Outcome.inCall]
  cases s.descend source stack with
  | error failure => rfl
  | ok inner =>
    simp only [bind, Except.bind]
    split
    · rename_i op' position' rest' h'
      cases h.symm.trans h'
      by_cases hdeep : source.limit < (s.depth + 1 : Nat)
      · simp only [State.checkDepth, if_pos hdeep]
        rfl
      · simp only [State.checkDepth, if_neg hdeep]
        cases parsePrefix source inner { s with rest := rest, depth := s.depth + 1 } with
        | error failure => rfl
        | ok operand => rfl
    · rename_i h'
      cases h.symm.trans h'

theorem runOn_group {opened length : Nat} {rest : List Token}
    (h : s.rest = ⟨.openParen, opened, length⟩ :: rest) :
    runOn source stack .operand s = .inCall source s stack fun stack =>
      .inCall source s stack fun stack =>
        if source.limit < (s.depth + 1 : Nat) then .stop ⟨⟨.tooDeep source.limit, opened⟩, s.rest⟩
        else .inCall source (s.inside source rest opened .group) stack fun stack =>
          (runOn source stack (.level 0) (s.inside source rest opened .group)).andThen
            (Outcome.close source opened) := by
  obtain ⟨_, depth, frames⟩ := s
  cases h
  simp only [runOn, Outcome.inCall]
  rw [parseOperand]
  cases State.descend source ⟨⟨.openParen, opened, length⟩ :: rest, depth, frames⟩ stack with
  | error failure => rfl
  | ok inner =>
    simp only [bind, Except.bind]
    cases State.descend source ⟨⟨.openParen, opened, length⟩ :: rest, depth, frames⟩ inner with
    | error failure => rfl
    | ok inner =>
      by_cases hdeep : source.limit < (depth + 1 : Nat)
      · simp only [State.checkDepth, if_pos hdeep]
        rfl
      · simp only [State.checkDepth, if_neg hdeep, State.inside]
        cases State.descend source _ inner with
        | error failure => rfl
        | ok inner =>
          dsimp only
          cases parseLevel source inner 0 _ with
          | error failure => rfl
          | ok parsed =>
            simp only [Outcome.ofExpr, Outcome.andThen, Outcome.close]
            cases State.close source { parsed.after with depth := parsed.after.depth - 1 }
                opened with
            | error failure => rfl
            | ok closed => rfl

/-- A call whose arguments are not missing as a whole. -/
theorem runOn_call {name : String} {position opened length length' : Nat} {rest : List Token}
    (h : s.rest = ⟨.name name, position, length⟩ :: ⟨.openParen, opened, length'⟩ :: rest)
    (hnext : ((s.inside source rest opened (.call name)).current source).kind ≠ .closeParen) :
    runOn source stack .operand s = .inCall source s stack fun stack =>
      .inCall source { s with rest := ⟨.openParen, opened, length'⟩ :: rest } stack fun stack =>
        if source.limit < (s.depth + 1 : Nat) then
          .stop ⟨⟨.tooDeep source.limit, opened⟩, ⟨.openParen, opened, length'⟩ :: rest⟩
        else
          (runOn source stack (.arguments name)
            (s.inside source rest opened (.call name))).andThenAll
              fun es => Outcome.close source opened (.call position name es) := by
  obtain ⟨_, depth, frames⟩ := s
  cases h
  simp only [runOn, Outcome.inCall]
  rw [parseOperand]
  cases State.descend source _ stack with
  | error failure => rfl
  | ok inner =>
    simp only [bind, Except.bind]
    cases State.descend source ⟨⟨.openParen, opened, length'⟩ :: rest, depth, frames⟩ inner with
    | error failure => rfl
    | ok inner =>
      simp only [State.inside] at hnext ⊢
      by_cases hdeep : source.limit < (depth + 1 : Nat)
      · simp only [State.checkDepth, if_pos hdeep]
        rfl
      · simp only [State.checkDepth, if_neg hdeep]
        cases parseArguments source inner name _ with
        | error failure => rfl
        | ok arguments =>
          simp only [Outcome.ofArguments, Outcome.andThenAll, Outcome.close]
          cases State.close source
              { arguments.after with depth := arguments.after.depth - 1 } opened with
          | error failure => rfl
          | ok closed => rfl

theorem runOn_call_empty {name : String} {position opened length length' : Nat}
    {rest : List Token}
    (h : s.rest = ⟨.name name, position, length⟩ :: ⟨.openParen, opened, length'⟩ :: rest)
    (hnext : ((s.inside source rest opened (.call name)).current source).kind = .closeParen) :
    runOn source stack .operand s = .inCall source s stack fun stack =>
      .inCall source { s with rest := ⟨.openParen, opened, length'⟩ :: rest } stack fun _ =>
        if source.limit < (s.depth + 1 : Nat) then
          .stop ⟨⟨.tooDeep source.limit, opened⟩, ⟨.openParen, opened, length'⟩ :: rest⟩
        else Outcome.close source opened (.call position name [])
          (s.inside source rest opened (.call name)) := by
  obtain ⟨_, depth, frames⟩ := s
  cases h
  simp only [runOn, Outcome.inCall]
  rw [parseOperand]
  cases State.descend source _ stack with
  | error failure => rfl
  | ok inner =>
    simp only [bind, Except.bind]
    cases State.descend source ⟨⟨.openParen, opened, length'⟩ :: rest, depth, frames⟩ inner with
    | error failure => rfl
    | ok inner =>
      simp only [State.inside] at hnext ⊢
      by_cases hdeep : source.limit < (depth + 1 : Nat)
      · simp only [State.checkDepth, if_pos hdeep]
        rfl
      · simp only [State.checkDepth, if_neg hdeep]
        split
        · simp only [Outcome.close]
          cases State.close source _ opened with
          | error failure => rfl
          | ok closed => rfl
        · contradiction

theorem runOn_number {value : Value} {position length : Nat} {rest : List Token}
    (h : s.rest = ⟨.number value, position, length⟩ :: rest) :
    runOn source stack .operand s = .inCall source s stack fun _ =>
      .expr (.literal position value) { s with rest := rest } := by
  obtain ⟨_, depth, frames⟩ := s
  cases h
  simp only [runOn, Outcome.inCall]
  rw [parseOperand]
  cases State.descend source _ stack <;> rfl

theorem runOn_history {index position length : Nat} {rest : List Token}
    (h : s.rest = ⟨.history index, position, length⟩ :: rest) :
    runOn source stack .operand s = .inCall source s stack fun _ =>
      .expr (.history position index) { s with rest := rest } := by
  obtain ⟨_, depth, frames⟩ := s
  cases h
  simp only [runOn, Outcome.inCall]
  rw [parseOperand]
  cases State.descend source _ stack <;> rfl

theorem runOn_constant {name : String} {position length : Nat} {rest : List Token}
    (h : s.rest = ⟨.name name, position, length⟩ :: rest)
    (hnext : ∀ token ∈ rest.head?, token.kind ≠ .openParen) :
    runOn source stack .operand s = .inCall source s stack fun _ =>
      .expr (.constant position name) { s with rest := rest } := by
  obtain ⟨_, depth, frames⟩ := s
  cases h
  simp only [runOn, Outcome.inCall]
  rw [parseOperand]
  cases rest with
  | nil => cases State.descend source _ stack <;> rfl
  | cons token rest =>
    obtain ⟨kind, _, _⟩ := token
    cases State.descend source _ stack with
    | error failure => rfl
    | ok inner =>
      cases kind with
      | openParen => exact absurd rfl (hnext _ rfl)
      | _ => rfl

theorem runOn_unexpected (h : ∀ token ∈ s.rest.head?, token.kind.startsOperand = false) :
    runOn source stack .operand s =
      .inCall source s stack fun _ => .stop (s.unexpected source) := by
  obtain ⟨rest, depth, frames⟩ := s
  simp only [runOn, Outcome.inCall]
  rw [parseOperand]
  cases rest with
  | nil => cases State.descend source _ stack <;> rfl
  | cons token rest =>
    obtain ⟨kind, _, _⟩ := token
    cases State.descend source _ stack with
    | error failure => rfl
    | ok inner =>
      cases kind with
      | number | history | name | openParen => exact nomatch h _ rfl
      | _ => rfl

theorem runOn_arguments_of_missing {name : String} (h : (s.current source).kind = .comma ∨
      (s.current source).kind = .closeParen) :
    runOn source stack (.arguments name) s =
      .stop
        ⟨⟨.emptyArgument name (s.current source).kind, (s.current source).position⟩, s.rest⟩ := by
  simp only [runOn]
  rw [parseArguments]
  rcases h with h | h
  · simp only [h]
    rfl
  · simp only [h]
    rfl

theorem runOn_arguments {name : String} (hcomma : (s.current source).kind ≠ .comma)
    (hclose : (s.current source).kind ≠ .closeParen) :
    runOn source stack (.arguments name) s = .inCall source s stack fun inner =>
      (runOn source inner (.level 0) s).andThen fun first after =>
        match afterComma? after.rest with
        | some rest => (runOn source stack (.arguments name) { after with rest := rest }).andThenAll
            fun others after => .arguments (first :: others) after
        | none => .arguments [first] after := by
  simp only [runOn, Outcome.inCall]
  rw [parseArguments]
  simp only [bind, Except.bind]
  cases s.descend source stack with
  | error failure => rfl
  | ok inner =>
    dsimp only
    cases parseLevel source inner 0 s with
    | error failure => rfl
    | ok first =>
      simp only [Outcome.ofExpr, Outcome.andThen]
      split
      · rename_i rest h
        simp only [h, afterComma?]
        cases parseArguments source stack name _ with
        | error failure => rfl
        | ok others => rfl
      · rename_i h
        have hnone : afterComma? first.after.rest = none := by
          unfold afterComma?
          split
          · rename_i rest h'
            exact absurd h' (h _ _ _)
          · rfl
        rw [hnone]
        rfl

end

/-! ## Whole expressions -/

/-- The outcome of an expression at the start of tokens, on a stack. -/
def runAll (source : Source) (stack : Stack) (tokens : List Token) : Outcome :=
  .inCall source { rest := tokens } stack fun stack =>
    runOn source stack (.level 0) { rest := tokens }

section

variable {source : Source} {stack : Stack} {tokens : List Token}

theorem parseAll_of_runAll_expr
    (h : (({ rest := tokens } : State).current source).kind ≠ .endOfInput) {e : Expr}
    {after : State} (hrun : runAll source stack tokens = .expr e after) :
    parseAll source tokens stack = after.finish source e := by
  simp only [runAll, runOn, Outcome.inCall] at hrun
  simp only [parseAll, bind, Except.bind]
  cases hdescend : State.descend source { rest := tokens } stack with
  | error failure =>
    rw [hdescend] at hrun
    cases hrun
  | ok inner =>
    rw [hdescend] at hrun
    dsimp only at hrun
    cases hparse : parseLevel source inner 0 { rest := tokens } with
    | error failure =>
      rw [hparse] at hrun
      cases hrun
    | ok parsed =>
      rw [hparse] at hrun
      cases hrun
      simp only [hparse]

theorem parseAll_of_runAll_stop
    (h : (({ rest := tokens } : State).current source).kind ≠ .endOfInput) {failure : Stop}
    (hrun : runAll source stack tokens = .stop failure) :
    parseAll source tokens stack = .error failure := by
  simp only [runAll, runOn, Outcome.inCall] at hrun
  simp only [parseAll, bind, Except.bind]
  cases hdescend : State.descend source { rest := tokens } stack with
  | error failure =>
    rw [hdescend] at hrun
    cases hrun
    rfl
  | ok inner =>
    rw [hdescend] at hrun
    dsimp only at hrun
    cases hparse : parseLevel source inner 0 { rest := tokens } with
    | error failure =>
      rw [hparse] at hrun
      cases hrun
      simp only [hparse]
    | ok parsed =>
      rw [hparse] at hrun
      cases hrun

end

/-! ## The equations on a stack that never runs out -/

section

variable (source : Source) (s : State)

theorem run_level_of_lt {level : Nat} (h : level < InfixOperator.levelCount) :
    run source (.level level) s = (run source (.level (level + 1)) s).andThen
      fun first after => run source (.chain level first) after :=
  runOn_level_of_lt source .unlimited s h

theorem run_level_of_not_lt {level : Nat} (h : ¬ level < InfixOperator.levelCount) :
    run source (.level level) s = run source .prefixed s :=
  runOn_level_of_not_lt source .unlimited s h

theorem run_chain_of_none {level : Nat} (left : Expr) (h : infixOfLevel? level s.rest = none) :
    run source (.chain level left) s = .expr left s :=
  runOn_chain_of_none source .unlimited s left h

theorem run_chain_of_some {level : Nat} (left : Expr) {op : InfixOperator} {position : Nat}
    {rest : List Token} (h : infixOfLevel? level s.rest = some (op, position, rest)) :
    run source (.chain level left) s =
      (run source (.level (level + 1)) { s with rest := rest }).andThen
      fun right after => run source (.chain level (.binary position op left right)) after :=
  runOn_chain_of_some source .unlimited s left h

theorem run_prefixed_of_none (h : prefixAt? s.rest = none) :
    run source .prefixed s = run source .operand s :=
  runOn_prefixed_of_none source .unlimited s h

theorem run_prefixed_of_some {op : PrefixOperator} {position : Nat} {rest : List Token}
    (h : prefixAt? s.rest = some (op, position, rest)) :
    run source .prefixed s =
      if source.limit < (s.depth + 1 : Nat) then .stop ⟨⟨.tooDeep source.limit, position⟩, rest⟩
      else (run source .prefixed { s with rest := rest, depth := s.depth + 1 }).andThen
        fun operand after =>
          .expr (.unary position op operand) { after with depth := after.depth - 1 } :=
  runOn_prefixed_of_some source .unlimited s h

theorem run_group {opened length : Nat} {rest : List Token}
    (h : s.rest = ⟨.openParen, opened, length⟩ :: rest) :
    run source .operand s =
      if source.limit < (s.depth + 1 : Nat) then .stop ⟨⟨.tooDeep source.limit, opened⟩, s.rest⟩
      else (run source (.level 0) (s.inside source rest opened .group)).andThen
        (Outcome.close source opened) :=
  runOn_group source .unlimited s h

/-- A call whose arguments are not missing as a whole. -/
theorem run_call {name : String} {position opened length length' : Nat} {rest : List Token}
    (h : s.rest = ⟨.name name, position, length⟩ :: ⟨.openParen, opened, length'⟩ :: rest)
    (hnext : ((s.inside source rest opened (.call name)).current source).kind ≠ .closeParen) :
    run source .operand s =
      if source.limit < (s.depth + 1 : Nat) then
        .stop ⟨⟨.tooDeep source.limit, opened⟩, ⟨.openParen, opened, length'⟩ :: rest⟩
      else (run source (.arguments name) (s.inside source rest opened (.call name))).andThenAll
        fun es => Outcome.close source opened (.call position name es) :=
  runOn_call source .unlimited s h hnext

theorem run_call_empty {name : String} {position opened length length' : Nat} {rest : List Token}
    (h : s.rest = ⟨.name name, position, length⟩ :: ⟨.openParen, opened, length'⟩ :: rest)
    (hnext : ((s.inside source rest opened (.call name)).current source).kind = .closeParen) :
    run source .operand s =
      if source.limit < (s.depth + 1 : Nat) then
        .stop ⟨⟨.tooDeep source.limit, opened⟩, ⟨.openParen, opened, length'⟩ :: rest⟩
      else Outcome.close source opened (.call position name [])
        (s.inside source rest opened (.call name)) :=
  runOn_call_empty source .unlimited s h hnext

theorem run_number {value : Value} {position length : Nat} {rest : List Token}
    (h : s.rest = ⟨.number value, position, length⟩ :: rest) :
    run source .operand s = .expr (.literal position value) { s with rest := rest } :=
  runOn_number source .unlimited s h

theorem run_history {index position length : Nat} {rest : List Token}
    (h : s.rest = ⟨.history index, position, length⟩ :: rest) :
    run source .operand s = .expr (.history position index) { s with rest := rest } :=
  runOn_history source .unlimited s h

theorem run_constant {name : String} {position length : Nat} {rest : List Token}
    (h : s.rest = ⟨.name name, position, length⟩ :: rest)
    (hnext : ∀ token ∈ rest.head?, token.kind ≠ .openParen) :
    run source .operand s = .expr (.constant position name) { s with rest := rest } :=
  runOn_constant source .unlimited s h hnext

theorem run_unexpected (h : ∀ token ∈ s.rest.head?, token.kind.startsOperand = false) :
    run source .operand s = .stop (s.unexpected source) :=
  runOn_unexpected source .unlimited s h

theorem run_arguments_of_missing {name : String} (h : (s.current source).kind = .comma ∨
      (s.current source).kind = .closeParen) :
    run source (.arguments name) s =
      .stop
        ⟨⟨.emptyArgument name (s.current source).kind, (s.current source).position⟩, s.rest⟩ :=
  runOn_arguments_of_missing source .unlimited s h

theorem run_arguments {name : String} (hcomma : (s.current source).kind ≠ .comma)
    (hclose : (s.current source).kind ≠ .closeParen) :
    run source (.arguments name) s = (run source (.level 0) s).andThen fun first after =>
      match afterComma? after.rest with
      | some rest => (run source (.arguments name) { after with rest := rest }).andThenAll
          fun others after => .arguments (first :: others) after
      | none => .arguments [first] after :=
  runOn_arguments source .unlimited s hcomma hclose

end

end Expr

end TypedCalc
