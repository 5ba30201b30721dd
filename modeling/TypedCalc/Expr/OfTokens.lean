import TypedCalc.Expr.Basic
import TypedCalc.Expr.Fault
import TypedCalc.Interpreter

/-!
# From tokens to expressions

Recursive descent over nine levels of infix operators, each grouping to the left, then prefix
operators, then operands: numbers, history references, names, calls and groups.

The state of a run is the list of tokens still to be read, the number of groups, calls and prefix
operators that are open, and a frame for each open parenthesis.  Every function takes at least
one token when it succeeds; the results carry the proof, and the recursion is on the number of
tokens left, then on the level.

The end of the text is a token, but a list that lacks it is read as if it were there.

The recursion takes up the stack of the interpreter.  Each level, each run of prefix operators and
each operand is a call of its own, and so are a group or a call with the expressions in its
parentheses; the chain of operators of one level is a loop.  Where there is no room for a call, the
run ends in an error at the token that comes next.
-/

namespace TypedCalc.Expr

/-! ## The state of a run -/

/-- What stays the same during a run: the text, for its snippets and its length, and the limit of
nesting. -/
structure Source where
  /-- The characters of the text. -/
  text : List Char
  /-- How many groups, calls and prefix operators can be open at a time. -/
  limit : Int

/-- What changes during a run. -/
structure State where
  /-- The tokens still to be read. -/
  rest : List Token
  /-- The number of open groups, calls and prefix operators. -/
  depth : Nat := 0
  /-- The open parentheses, the innermost first. -/
  frames : List Frame := []

/-- An error and the tokens that were still to be read when it was noticed. -/
structure Stop where
  /-- The error. -/
  error : GrammarError
  /-- The tokens still to be read. -/
  rest : List Token

/-- A result with the state after it, in which fewer than `bound` tokens are left. -/
structure Parsed (α : Type) (bound : Nat) where
  /-- The result. -/
  result : α
  /-- The state after it. -/
  after : State
  /-- Fewer tokens are left. -/
  shorter : after.rest.length < bound

/-- The next token; past the last one, the end of the text. -/
def State.current (source : Source) (s : State) : Token :=
  s.rest.head?.getD ⟨.endOfInput, source.text.length, 0⟩

/-- An error at a position. -/
def State.stop {α : Type} (s : State) (fault : GrammarFault) (position : Nat) : Except Stop α :=
  .error ⟨⟨fault, position⟩, s.rest⟩

/-- Allows one more group, call or prefix operator at a position if the limit does. -/
def State.checkDepth (source : Source) (s : State) (position : Nat) : Except Stop PUnit :=
  if source.limit < (s.depth + 1 : Nat) then s.stop (.tooDeep source.limit) position
  else .ok ⟨⟩

/-- The stack inside one more call of the parser. -/
def State.descend (source : Source) (s : State) (stack : Stack) : Except Stop Stack :=
  match stack.call? with
  | some inner => .ok inner
  | none => s.stop (.stackExhausted source.limit) (s.current source).position

/-- Takes the closing parenthesis of the innermost frame, which was opened at a position. -/
def State.close (source : Source) (s : State) (opened : Nat) :
    Except Stop (Parsed PUnit s.rest.length) :=
  match h : s.rest with
  | ⟨.closeParen, position, _⟩ :: rest =>
    match s.frames with
    | _ :: frames => .ok ⟨⟨⟩, { s with rest := rest, frames := frames }, by simp⟩
    | [] => s.stop .noOpenParen position
  | _ =>
    let token := s.current source
    match token.kind with
    | .endOfInput =>
      s.stop (.unclosed s.frames) ((s.frames.head?.map (·.position)).getD opened)
    | found => s.stop (.missingClose found opened) token.position

/-- The error about a token that no operand starts with. -/
def State.unexpected (source : Source) (s : State) : Stop :=
  let token := s.current source
  let fault : GrammarFault :=
    match token.kind with
    | .endOfInput => .unexpectedEnd
    | .closeParen => .unexpectedClose
    | found => .unexpectedToken found
  ⟨⟨fault, token.position⟩, s.rest⟩

/-- The infix operator of a level that comes next, with its position and the tokens after it. -/
def infixOfLevel? (level : Nat) : List Token → Option (InfixOperator × Nat × List Token)
  | ⟨.operator symbol, position, _⟩ :: rest =>
    match symbol.infix? with
    | some op => if op.level = level then some (op, position, rest) else none
    | none => none
  | _ => none

/-- The prefix operator that comes next, with its position and the tokens after it. -/
def prefixAt? : List Token → Option (PrefixOperator × Nat × List Token)
  | ⟨.operator symbol, position, _⟩ :: rest =>
    symbol.prefix?.map fun op => (op, position, rest)
  | _ => none

theorem length_of_infixOfLevel? {level : Nat} {tokens rest : List Token} {op : InfixOperator}
    {position : Nat} (h : infixOfLevel? level tokens = some (op, position, rest)) :
    rest.length < tokens.length := by
  unfold infixOfLevel? at h
  split at h
  · split at h
    · split at h
      · simp only [Option.some.injEq, Prod.mk.injEq] at h
        simp [h.2.2]
      · simp at h
    · simp at h
  · simp at h

theorem length_of_prefixAt? {tokens rest : List Token} {op : PrefixOperator}
    {position : Nat} (h : prefixAt? tokens = some (op, position, rest)) :
    rest.length < tokens.length := by
  unfold prefixAt? at h
  split at h
  · simp only [Option.map_eq_some_iff, Prod.mk.injEq] at h
    obtain ⟨_, _, _, _, rfl⟩ := h
    simp
  · simp at h

/-! ## The levels -/

mutual

/-- An expression of infix operators of a level and those that bind more tightly. -/
def parseLevel (source : Source) (stack : Stack) (level : Nat) (s : State) :
    Except Stop (Parsed Expr s.rest.length) := do
  let stack ← s.descend source stack
  if level < InfixOperator.levelCount then
    let first ← parseLevel source stack (level + 1) s
    have := first.shorter
    let chain ← parseChain source stack level first.result first.after
    have := chain.shorter
    return ⟨chain.result, chain.after, by omega⟩
  else parsePrefix source stack s
termination_by 16 * s.rest.length + (3 + (InfixOperator.levelCount - level))
decreasing_by all_goals (have hlevels := InfixOperator.levelCount_eq; omega)

/-- The operators of a level that follow their first operand, with their right operands. -/
def parseChain (source : Source) (stack : Stack) (level : Nat) (left : Expr) (s : State) :
    Except Stop (Parsed Expr (s.rest.length + 1)) :=
  match h : infixOfLevel? level s.rest with
  | some (op, position, rest) => do
    have := length_of_infixOfLevel? h
    let right ← parseLevel source stack (level + 1) { s with rest := rest }
    have hright : right.after.rest.length < rest.length := right.shorter
    let chain ← parseChain source stack level (.binary position op left right.result) right.after
    have := chain.shorter
    return ⟨chain.result, chain.after, by omega⟩
  | none => return ⟨left, s, by omega⟩
termination_by 16 * s.rest.length
decreasing_by all_goals (have hlevels := InfixOperator.levelCount_eq; omega)

/-- Prefix operators before an operand. -/
def parsePrefix (source : Source) (stack : Stack) (s : State) :
    Except Stop (Parsed Expr s.rest.length) := do
  let stack ← s.descend source stack
  match h : prefixAt? s.rest with
  | some (op, position, rest) =>
    have := length_of_prefixAt? h
    ({ s with rest := rest } : State).checkDepth source position
    let operand ← parsePrefix source stack { s with rest := rest, depth := s.depth + 1 }
    have hoperand : operand.after.rest.length < rest.length := operand.shorter
    return ⟨.unary position op operand.result,
      { operand.after with depth := operand.after.depth - 1 }, by dsimp only; omega⟩
  | none => parseOperand source stack s
termination_by 16 * s.rest.length + 2
decreasing_by all_goals omega

/-- A number, a history reference, a constant, a call or a group. -/
def parseOperand (source : Source) (stack : Stack) (s : State) :
    Except Stop (Parsed Expr s.rest.length) := do
  let stack ← s.descend source stack
  match h : s.rest with
  | ⟨.number value, position, _⟩ :: rest =>
    .ok ⟨.literal position value, { s with rest := rest }, by simp [h]⟩
  | ⟨.history index, position, _⟩ :: rest =>
    .ok ⟨.history position index, { s with rest := rest }, by simp [h]⟩
  | ⟨.name name, position, _⟩ :: ⟨.openParen, opened, length⟩ :: rest =>
    let atParen : State := { s with rest := ⟨.openParen, opened, length⟩ :: rest }
    let stack ← atParen.descend source stack
    atParen.checkDepth source opened
    let inside : State := {
      rest := rest
      depth := s.depth + 1
      frames := ⟨opened, .call name, snippetAt source.text opened⟩ :: s.frames }
    match (inside.current source).kind with
    | .closeParen =>
      let outside : State := { inside with depth := inside.depth - 1 }
      let closed ← outside.close source opened
      have hclosed : closed.after.rest.length < rest.length := closed.shorter
      return ⟨.call position name [], closed.after, by simp only [h, List.length_cons]; omega⟩
    | _ =>
      let arguments ← parseArguments source stack name inside
      have harguments : arguments.after.rest.length < rest.length := arguments.shorter
      let outside : State := { arguments.after with depth := arguments.after.depth - 1 }
      let closed ← outside.close source opened
      have hclosed : closed.after.rest.length < arguments.after.rest.length := closed.shorter
      return ⟨.call position name arguments.result, closed.after,
        by simp only [h, List.length_cons]; omega⟩
  | ⟨.name name, position, _⟩ :: rest =>
    .ok ⟨.constant position name, { s with rest := rest }, by simp [h]⟩
  | ⟨.openParen, opened, _⟩ :: rest =>
    let stack ← s.descend source stack
    s.checkDepth source opened
    let inside : State := {
      rest := rest
      depth := s.depth + 1
      frames := ⟨opened, .group, snippetAt source.text opened⟩ :: s.frames }
    let stack ← inside.descend source stack
    let inner ← parseLevel source stack 0 inside
    have hinner : inner.after.rest.length < rest.length := inner.shorter
    let outside : State := { inner.after with depth := inner.after.depth - 1 }
    let closed ← outside.close source opened
    have hclosed : closed.after.rest.length < inner.after.rest.length := closed.shorter
    return ⟨inner.result, closed.after, by simp only [h, List.length_cons]; omega⟩
  | _ => .error (s.unexpected source)
termination_by 16 * s.rest.length + 1
decreasing_by
  all_goals (have hlevels := InfixOperator.levelCount_eq; simp only [h, List.length_cons]; omega)

/-- One or more arguments with commas between them, each an expression of its own. -/
def parseArguments (source : Source) (stack : Stack) (name : String) (s : State) :
    Except Stop (Parsed (List Expr) s.rest.length) :=
  let token := s.current source
  match token.kind with
  | .comma => s.stop (.emptyArgument name token.kind) token.position
  | .closeParen => s.stop (.emptyArgument name token.kind) token.position
  | _ => do
    let inner ← s.descend source stack
    let first ← parseLevel source inner 0 s
    have hfirst := first.shorter
    match h : first.after.rest with
    | ⟨.comma, _, _⟩ :: rest =>
      have hrest : rest.length < first.after.rest.length := by simp [h]
      let others ← parseArguments source stack name { first.after with rest := rest }
      have hothers : others.after.rest.length < rest.length := others.shorter
      return ⟨first.result :: others.result, others.after, by omega⟩
    | _ => return ⟨[first.result], first.after, hfirst⟩
termination_by 16 * s.rest.length + 13
decreasing_by all_goals (have hlevels := InfixOperator.levelCount_eq; omega)

end

/-! ## Whole expressions -/

/-- An expression, if nothing follows it, with the state at the end. -/
def State.finish (source : Source) (s : State) (e : Expr) : Except Stop (Expr × State) :=
  let token := s.current source
  match token.kind with
  | .endOfInput => .ok (e, s)
  | .closeParen => s.stop .unmatchedClose token.position
  | found => s.stop (.trailingToken found) token.position

/-- An expression that takes up all tokens, with the state at the end. -/
def parseAll (source : Source) (tokens : List Token) (stack : Stack := .unlimited) :
    Except Stop (Expr × State) :=
  let start : State := { rest := tokens }
  match (start.current source).kind with
  | .endOfInput => start.stop .emptyExpression 0
  | _ => do
    let inner ← start.descend source stack
    let parsed ← parseLevel source inner 0 start
    parsed.after.finish source parsed.result

/-- How deeply an expression can be nested when nothing else is said. -/
def defaultLimit : Int := 50

/-- The expression that the tokens of a text form. -/
def ofTokens? (tokens : List Token) (text : List Char) (limit : Int := defaultLimit)
    (stack : Stack := .unlimited) : Except GrammarError Expr :=
  match parseAll ⟨text, limit⟩ tokens stack with
  | .ok (expr, _) => .ok expr
  | .error stop => .error stop.error

end TypedCalc.Expr
