import TypedCalc.Proofs.Expr.Progress
import TypedCalc.Proofs.Result

/-!
# Parsing on a stack

A parse on any stack is the one on a stack that never runs out, or ends because there is no room for
a call.  It takes so many calls for each opener that is open at a time, and so many for what is
around all of them.

* `Outcome.Cut`: what an outcome becomes when there may be no room for a call.
* `Outcome.cut_runOn`: the room that each phase needs.
* `TokensFitOn`: the stacks with room for some tokens.
* `cut_ofTokens?`: on any other stack the parse may end early.
* `ofTokens?_standard`: not so on the standard stack under the standard limit of nesting.
* `ofTokens?_eq_ok_iff_derives`: the parser is the grammar, on every stack.
-/

namespace TypedCalc

namespace Expr

/-! ## Outcomes that are cut -/

/-- Whether an outcome is another one, or an error that is there because there was no room for a
call. -/
def Outcome.Cut (source : Source) (room : Prop) (short full : Outcome) : Prop :=
  short = full ∨
    ¬ room ∧ ∃ position rest, short = .stop ⟨⟨.stackExhausted source.limit, position⟩, rest⟩

namespace Outcome.Cut

variable {source : Source} {room room' : Prop} {short full : Outcome}

theorem refl (o : Outcome) : Cut source room o o := .inl rfl

theorem mono (h : Cut source room short full) (hroom : room' → room) :
    Cut source room' short full :=
  h.imp_right fun ⟨hnot, hstop⟩ => ⟨fun h => hnot (hroom h), hstop⟩

theorem andThen {next next' : Expr → State → Outcome} (h : Cut source room short full)
    (hnext : ∀ e after, full = .expr e after → Cut source room (next e after) (next' e after)) :
    Cut source room (short.andThen next) (full.andThen next') := by
  rcases h with rfl | ⟨hroom, position, rest, rfl⟩
  · cases short with
    | expr e after => exact hnext e after rfl
    | arguments | stop => exact .refl _
  · exact .inr ⟨hroom, position, rest, rfl⟩

theorem andThenAll {next next' : List Expr → State → Outcome} (h : Cut source room short full)
    (hnext : ∀ es after, full = .arguments es after →
      Cut source room (next es after) (next' es after)) :
    Cut source room (short.andThenAll next) (full.andThenAll next') := by
  rcases h with rfl | ⟨hroom, position, rest, rfl⟩
  · cases short with
    | arguments es after => exact hnext es after rfl
    | expr | stop => exact .refl _
  · exact .inr ⟨hroom, position, rest, rfl⟩

section

variable {stack : Stack} {calls : Nat} {s : State} {body : Stack → Outcome}

theorem inCall_of (hcalls : 1 ≤ calls) (h : ∀ inner, stack.call? = some inner →
      Cut source (stack.Holds calls) (body inner) full) :
    Cut source (stack.Holds calls) (Outcome.inCall source s stack body) full := by
  unfold Outcome.inCall State.descend
  cases hcall : stack.call? with
  | none =>
    have hnone : ¬ stack.Holds calls := by
      intro hholds
      obtain ⟨inner, hinner, -⟩ := Stack.holds_succ_iff.mp (hholds.mono hcalls)
      cases hcall.symm.trans hinner
    exact .inr ⟨hnone, _, _, rfl⟩
  | some inner => exact h inner hcall

/-- One more call needs one more place. -/
theorem inCall (inside : Nat) (hcalls : inside + 1 ≤ calls)
    (h : ∀ inner : Stack, Cut source (inner.Holds inside) (body inner) full) :
    Cut source (stack.Holds calls) (Outcome.inCall source s stack body) full :=
  inCall_of (Nat.le_trans (Nat.le_add_left 1 inside) hcalls) fun inner hcall =>
    (h inner).mono fun hholds => (hholds.mono hcalls).of_call? hcall

end

end Outcome.Cut

/-! ## The room for a phase -/

/-- How many calls are open at most in a phase that enters nothing: one for each phase that follows,
and one more for an opener that is refused.  A chain is a loop, so it takes no more than its
operands. -/
def Phase.calls : Phase → Nat
  | .chain n _ => Phase.cost (.level (n + 1)) + 1
  | phase => phase.cost + 1

/-- How many calls are open at most inside an opener, more than around it. -/
def callsPerOpener : Nat := 14

/-- The room for a call in which at most so many openers are open at a time. -/
def Call.room (nesting : Nat) (call : Call) : Nat :=
  call.phase.calls + callsPerOpener * (nesting - call.state.depth)

/-- Whether at most so many openers are open in a call and in all that it leads to. -/
def Call.NestsWithin (source : Source) (nesting : Nat) (call : Call) : Prop :=
  ∀ callee, Relation.ReflTransGen (Calls source) call callee → callee.state.depth ≤ nesting

/-- Whether an outcome on every stack is cut only where there is no room for its call. -/
def Call.FitsWithin (source : Source) (nesting : Nat) (call : Call) : Prop :=
  ∀ stack : Stack, Outcome.Cut source (stack.Holds (call.room nesting))
    (runOn source stack call.phase call.state) (run source call.phase call.state)

/-- Whether at most so many openers are open in the calls that a call makes, and these are cut only
where there is no room for them. -/
def CallsFit (source : Source) (nesting : Nat) (call : Call) : Prop :=
  ∀ callee, Calls source call callee →
    callee.state.depth ≤ nesting ∧ callee.FitsWithin source nesting

section

variable {source : Source} {nesting : Nat} {s : State}

theorem Call.NestsWithin.of_calls {call callee : Call} (h : call.NestsWithin source nesting)
    (hcall : Calls source call callee) : callee.NestsWithin source nesting :=
  fun inner hinner => h inner (.head hcall hinner)

/-- What a phase calls fits where there is room for it. -/
theorem CallsFit.cut {call : Call} (ih : CallsFit source nesting call) {phase' : Phase} {s' : State}
    (hcall : Calls source call ⟨phase', s'⟩) {stack : Stack} {calls : Nat}
    (hroom : s'.depth ≤ nesting → Call.room nesting ⟨phase', s'⟩ ≤ calls) :
    Outcome.Cut source (stack.Holds calls) (runOn source stack phase' s')
      (run source phase' s') := by
  obtain ⟨hdepth, hfits⟩ := ih _ hcall
  exact (hfits stack).mono fun hholds => hholds.mono (hroom hdepth)

theorem fitsWithin_level {level : Nat} (ih : CallsFit source nesting ⟨.level level, s⟩) :
    Call.FitsWithin source nesting ⟨.level level, s⟩ := by
  intro stack
  dsimp only
  by_cases h : level < InfixOperator.levelCount
  · rw [runOn_level_of_lt source stack s h, run_level_of_lt source s h]
    refine .inCall (Call.room nesting ⟨.level (level + 1), s⟩)
      (by simp only [Call.room, Phase.calls, Phase.cost]; omega) fun inner => ?_
    refine .andThen (ih.cut (.level h) fun _ => Nat.le_refl _) fun first after hfirst => ?_
    have hrun : Run source (.level (level + 1)) s (.expr first after) :=
      hfirst ▸ run_spec source _ s
    obtain ⟨-, hdepth, -⟩ := hrun.leaves
    exact ih.cut (.levelChain h hrun) fun _ =>
      Nat.le_of_eq (by rw [Call.room, Call.room, hdepth]; rfl)
  · rw [runOn_level_of_not_lt source stack s h, run_level_of_not_lt source s h]
    refine .inCall (Call.room nesting ⟨.prefixed, s⟩)
      (by simp only [Call.room, Phase.calls, Phase.cost]; omega) fun inner => ?_
    exact ih.cut (.top h) fun _ => Nat.le_refl _

theorem fitsWithin_chain {level : Nat} {left : Expr}
    (ih : CallsFit source nesting ⟨.chain level left, s⟩) :
    Call.FitsWithin source nesting ⟨.chain level left, s⟩ := by
  intro stack
  dsimp only
  cases h : infixOfLevel? level s.rest with
  | none =>
    rw [runOn_chain_of_none source stack s left h, run_chain_of_none source s left h]
    exact .refl _
  | some found =>
    obtain ⟨op, position, rest⟩ := found
    rw [runOn_chain_of_some source stack s left h, run_chain_of_some source s left h]
    refine .andThen (ih.cut (.right h) fun _ => Nat.le_refl _) fun right after hright => ?_
    have hrun : Run source (.level (level + 1)) { s with rest := rest } (.expr right after) :=
      hright ▸ run_spec source _ _
    obtain ⟨-, hdepth, -⟩ := hrun.leaves
    exact ih.cut (.chain h hrun) fun _ =>
      Nat.le_of_eq (by rw [Call.room, Call.room, hdepth]; rfl)

theorem fitsWithin_prefixed (ih : CallsFit source nesting ⟨.prefixed, s⟩) :
    Call.FitsWithin source nesting ⟨.prefixed, s⟩ := by
  intro stack
  dsimp only
  cases h : prefixAt? s.rest with
  | none =>
    rw [runOn_prefixed_of_none source stack s h, run_prefixed_of_none source s h]
    refine .inCall (Call.room nesting ⟨.operand, s⟩)
      (by simp only [Call.room, Phase.calls, Phase.cost]; omega) fun inner => ?_
    exact ih.cut (.unprefixed h) fun _ => Nat.le_refl _
  | some found =>
    obtain ⟨op, position, rest⟩ := found
    rw [runOn_prefixed_of_some source stack s h, run_prefixed_of_some source s h]
    refine .inCall (Call.room nesting ⟨.operand, s⟩)
      (by simp only [Call.room, Phase.calls, Phase.cost]; omega) fun inner => ?_
    by_cases hdeep : source.limit < (s.depth + 1 : Nat)
    · rw [if_pos hdeep, if_pos hdeep]
      exact .refl _
    · rw [if_neg hdeep, if_neg hdeep]
      refine .andThen (ih.cut (.prefixed h hdeep) fun hdepth => ?_) fun operand after _ => .refl _
      simp only [Call.room, Phase.calls, Phase.cost, callsPerOpener] at hdepth ⊢
      omega

/-- A group takes a call for itself, and one more where it is entered. -/
theorem fitsWithin_group {opened length : Nat} {rest : List Token}
    (hrest : s.rest = ⟨.openParen, opened, length⟩ :: rest)
    (ih : CallsFit source nesting ⟨.operand, s⟩) :
    Call.FitsWithin source nesting ⟨.operand, s⟩ := by
  intro stack
  dsimp only
  have hcalls : Call.room nesting ⟨.operand, s⟩ = callsPerOpener * (nesting - s.depth) + 2 := by
    simp only [Call.room, Phase.calls, Phase.cost]
    omega
  rw [runOn_group source stack s hrest, run_group source s hrest, hcalls]
  refine .inCall _ (Nat.le_refl _) fun inner => .inCall _ (Nat.le_refl _) fun inner => ?_
  by_cases hdeep : source.limit < (s.depth + 1 : Nat)
  · rw [if_pos hdeep, if_pos hdeep]
    exact .refl _
  · rw [if_neg hdeep, if_neg hdeep]
    have hcall := Calls.group hrest hdeep
    have hdepth : s.depth + 1 ≤ nesting := (ih _ hcall).1
    have hlevels := InfixOperator.levelCount_eq
    refine .inCall (Call.room nesting ⟨.level 0, s.inside source rest opened .group⟩) ?_
      fun inner => ?_
    · simp only [Call.room, Phase.calls, Phase.cost, callsPerOpener, State.inside]
      omega
    · exact .andThen (ih.cut hcall fun _ => Nat.le_refl _) fun e after _ => .refl _

/-- A call of a function takes one for itself, and its arguments one more. -/
theorem fitsWithin_call {name : String} {position length opened length' : Nat} {rest : List Token}
    (hrest : s.rest = ⟨.name name, position, length⟩ :: ⟨.openParen, opened, length'⟩ :: rest)
    (ih : CallsFit source nesting ⟨.operand, s⟩) :
    Call.FitsWithin source nesting ⟨.operand, s⟩ := by
  intro stack
  dsimp only
  have hcalls : Call.room nesting ⟨.operand, s⟩ = callsPerOpener * (nesting - s.depth) + 2 := by
    simp only [Call.room, Phase.calls, Phase.cost]
    omega
  rw [hcalls]
  by_cases hnext : ((s.inside source rest opened (.call name)).current source).kind = .closeParen
  · rw [runOn_call_empty source stack s hrest hnext, run_call_empty source s hrest hnext]
    exact .inCall _ (Nat.le_refl _) fun inner => .inCall _ (Nat.le_refl _) fun inner => .refl _
  · rw [runOn_call source stack s hrest hnext, run_call source s hrest hnext]
    refine .inCall _ (Nat.le_refl _) fun inner => .inCall _ (Nat.le_refl _) fun inner => ?_
    by_cases hdeep : source.limit < (s.depth + 1 : Nat)
    · rw [if_pos hdeep, if_pos hdeep]
      exact .refl _
    · rw [if_neg hdeep, if_neg hdeep]
      refine .andThenAll (ih.cut (.call hrest hdeep hnext) fun hdepth => ?_)
        fun es after _ => .refl _
      simp only [Call.room, Phase.calls, Phase.cost, callsPerOpener, State.inside] at hdepth ⊢
      omega

theorem fitsWithin_operand (ih : CallsFit source nesting ⟨.operand, s⟩) :
    Call.FitsWithin source nesting ⟨.operand, s⟩ := by
  have hroom (stack : Stack) {full : Outcome} {body : Stack → Outcome}
      (h : ∀ inner, body inner = full) :
      Outcome.Cut source (stack.Holds (Call.room nesting ⟨.operand, s⟩))
        (.inCall source s stack body) full := by
    refine .inCall 0 (by simp only [Call.room, Phase.calls, Phase.cost]; omega) fun inner => ?_
    rw [h]
    exact .refl _
  have hunexpected (hstart : ∀ token ∈ s.rest.head?, token.kind.startsOperand = false) :
      Call.FitsWithin source nesting ⟨.operand, s⟩ := by
    intro stack
    dsimp only
    rw [runOn_unexpected source stack s hstart, run_unexpected source s hstart]
    exact hroom stack fun _ => rfl
  rcases hrest : s.rest with _ | ⟨⟨kind, position, length⟩, rest⟩
  · refine hunexpected fun token htoken => ?_
    rw [hrest] at htoken
    cases htoken
  cases kind with
  | number value =>
    intro stack
    dsimp only
    rw [runOn_number source stack s hrest, run_number source s hrest]
    exact hroom stack fun _ => rfl
  | history index =>
    intro stack
    dsimp only
    rw [runOn_history source stack s hrest, run_history source s hrest]
    exact hroom stack fun _ => rfl
  | openParen => exact fitsWithin_group hrest ih
  | name name =>
    rcases openParen_head rest with hnext | ⟨opened, length', rest, rfl⟩
    · intro stack
      dsimp only
      rw [runOn_constant source stack s hrest hnext, run_constant source s hrest hnext]
      exact hroom stack fun _ => rfl
    · exact fitsWithin_call hrest ih
  | operator | closeParen | comma | endOfInput =>
    refine hunexpected fun token htoken => ?_
    rw [hrest] at htoken
    cases htoken
    rfl

theorem fitsWithin_arguments {name : String} (ih : CallsFit source nesting ⟨.arguments name, s⟩) :
    Call.FitsWithin source nesting ⟨.arguments name, s⟩ := by
  intro stack
  dsimp only
  by_cases hmissing : (s.current source).kind = .comma ∨ (s.current source).kind = .closeParen
  · rw [runOn_arguments_of_missing source stack s hmissing,
      run_arguments_of_missing source s hmissing]
    exact .refl _
  obtain ⟨hcomma, hclose⟩ := not_or.mp hmissing
  rw [runOn_arguments source stack s hcomma hclose, run_arguments source s hcomma hclose]
  have hlevels := InfixOperator.levelCount_eq
  have hcalls : Call.room nesting ⟨.level 0, s⟩ + 1 ≤ Call.room nesting ⟨.arguments name, s⟩ := by
    simp only [Call.room, Phase.calls, Phase.cost]
    omega
  -- the call for an argument is closed when the next one is read
  refine .inCall_of (Nat.le_trans (Nat.le_add_left 1 _) hcalls) fun inner hinner => ?_
  have hfirst : Outcome.Cut source (inner.Holds (Call.room nesting ⟨.level 0, s⟩))
      (runOn source inner (.level 0) s) (run source (.level 0) s) :=
    ih.cut (.argument hcomma hclose) fun _ => Nat.le_refl _
  refine .andThen (hfirst.mono fun hholds => (hholds.mono hcalls).of_call? hinner)
    fun first after hresult => ?_
  cases hnext : afterComma? after.rest with
  | none => exact .refl _
  | some rest =>
    have hrun : Run source (.level 0) s (.expr first after) := hresult ▸ run_spec source _ s
    obtain ⟨-, hdepth, -⟩ := hrun.leaves
    refine .andThenAll (ih.cut (.arguments hcomma hclose hrun hnext) fun _ => ?_)
      fun others after _ => .refl _
    exact Nat.le_of_eq (by rw [Call.room, Call.room, hdepth])

/-- **A call fits on a stack** with so many places for each opener that is open at a time. -/
theorem Call.NestsWithin.fitsWithin {call : Call} (h : call.NestsWithin source nesting) :
    call.FitsWithin source nesting := by
  have ih : CallsFit source nesting call := fun callee hcall =>
    have hless := hcall.measure_lt
    ⟨h callee (.single hcall), (h.of_calls hcall).fitsWithin⟩
  obtain ⟨phase, s⟩ := call
  cases phase with
  | level level => exact fitsWithin_level ih
  | chain level left => exact fitsWithin_chain ih
  | prefixed => exact fitsWithin_prefixed ih
  | operand => exact fitsWithin_operand ih
  | arguments name => exact fitsWithin_arguments ih
termination_by call.phase.measure call.state

/-! ## The room for tokens -/

/-- Inside an opener the limit holds, and nothing else changes the depth. -/
theorem Calls.depth_le {caller callee : Call} (h : Calls source caller callee) :
    callee.state.depth = caller.state.depth ∨ (callee.state.depth : Int) ≤ source.limit := by
  cases h with
  | top | level | right | unprefixed | argument => exact .inl rfl
  | levelChain h operand => exact .inl operand.leaves.2.1
  | chain h operand => exact .inl operand.leaves.2.1
  | arguments hcomma hclose first hnext => exact .inl first.leaves.2.1
  | prefixed h hdeep => exact .inr (Int.not_lt.mp hdeep)
  | group h hdeep => exact .inr (Int.not_lt.mp hdeep)
  | call h hdeep hnext => exact .inr (Int.not_lt.mp hdeep)

/-- The openers around a call are open between the tokens before it. -/
theorem Call.Situated.depth_le_length {tokens before : List Token} {outer : List Opener}
    {call : Call} (h : call.Situated source tokens before outer) :
    call.state.depth ≤ (Openers.after {} before).opened.length := by
  rw [← h.depth_eq]
  have hstarts := h.starts
  cases hphase : call.phase with
  | level | arguments =>
    rw [hphase] at hstarts
    exact Nat.le_of_eq (by rw [hstarts.1])
  | prefixed | operand =>
    rw [hphase] at hstarts
    exact Nat.le_of_eq (by rw [hstarts])
  | chain level left =>
    rw [hphase] at hstarts
    exact hstarts.1.isInside.length_le

/-- Whether a stack has room for the parse of some tokens under a limit of nesting: for so many
calls for each opener that is open at a time, or that can be under the limit, and for those around
all of them. -/
def TokensFitOn (tokens : List Token) (limit : Int) (stack : Stack) : Prop :=
  ∃ nesting : Nat,
    (limit ≤ nesting ∨ ∀ entry ∈ Openers.entries {} tokens, entry.around < nesting) ∧
    stack.Holds (callsPerOpener * (nesting + 1))

/-- The tokens tell how many openers are open at a time, and so does the limit. -/
theorem nestsWithin_start {tokens : List Token}
    (h : source.limit ≤ nesting ∨ ∀ entry ∈ Openers.entries {} tokens, entry.around < nesting) :
    Call.NestsWithin source nesting ⟨.level 0, { rest := tokens }⟩ := by
  intro call (hreached : Reached source tokens call)
  by_cases hlimit : source.limit ≤ nesting
  · induction hreached with
    | refl => exact Nat.zero_le _
    | tail _ hcall ih =>
      rcases hcall.depth_le with hsame | hle
      · rw [hsame]
        exact ih
      · omega
  · obtain ⟨before, outer, hplace⟩ := hreached.exists_situated (by omega)
    refine Nat.le_trans hplace.depth_le_length (Openers.length_after_le ?_ (Nat.zero_le _))
    intro entry hmem
    refine h.resolve_left hlimit entry ?_
    rw [hplace.tokens_eq, Openers.entries_append]
    exact List.mem_append_left _ hmem

theorem cut_runAll {tokens : List Token} (stack : Stack)
    (h : source.limit ≤ nesting ∨ ∀ entry ∈ Openers.entries {} tokens, entry.around < nesting) :
    Outcome.Cut source (stack.Holds (callsPerOpener * (nesting + 1))) (runAll source stack tokens)
      (run source (.level 0) { rest := tokens }) := by
  refine .inCall (Call.room nesting ⟨.level 0, { rest := tokens }⟩) ?_ fun inner =>
    (nestsWithin_start h).fitsWithin inner
  have hlevels := InfixOperator.levelCount_eq
  simp only [Call.room, Phase.calls, Phase.cost, callsPerOpener]
  omega

end

/-! ## Whole expressions -/

section

variable {tokens : List Token} {text : List Char} {limit : Int}

/-- The stack shows in a parse only where there is no room for it. -/
theorem parseAll_cut (source : Source) {nesting : Nat} (stack : Stack)
    (h : source.limit ≤ nesting ∨ ∀ entry ∈ Openers.entries {} tokens, entry.around < nesting) :
    Result.Cut (·.error.fault = .stackExhausted source.limit)
      (stack.Holds (callsPerOpener * (nesting + 1))) (parseAll source tokens stack)
      (parseAll source tokens) := by
  by_cases hempty : (({ rest := tokens } : State).current source).kind = .endOfInput
  · left
    simp only [parseAll, hempty]
  rcases cut_runAll stack h with heq | ⟨hroom, position, rest, hstop⟩
  · left
    rcases exists_run_level source 0 { rest := tokens } with ⟨e, after, hrun⟩ | ⟨failure, hrun⟩
    · rw [parseAll_of_expr hempty hrun,
        parseAll_of_runAll_expr hempty (heq.trans hrun.run_eq)]
    · rw [parseAll_of_stop hempty hrun, parseAll_of_runAll_stop hempty (heq.trans hrun.run_eq)]
  · exact .inr ⟨hroom, _, parseAll_of_runAll_stop hempty hstop, rfl⟩

/-- **The stack shows only where tokens do not fit on it**, as an error of its own. -/
theorem cut_ofTokens? (tokens : List Token) (text : List Char) (limit : Int) (stack : Stack) :
    Result.Cut (·.fault = .stackExhausted limit) (TokensFitOn tokens limit stack)
      (ofTokens? tokens text limit stack) (ofTokens? tokens text limit) := by
  have hcut (nesting : Nat) (h : limit ≤ nesting ∨
      ∀ entry ∈ Openers.entries {} tokens, entry.around < nesting) :=
    parseAll_cut ⟨text, limit⟩ stack h
  rcases hcut limit.toNat (.inl (Int.self_le_toNat limit)) with heq | ⟨-, failure, hfailure, hfault⟩
  · left
    rw [ofTokens?, heq, ← ofTokens?]
  · by_cases hfits : TokensFitOn tokens limit stack
    · obtain ⟨nesting, hnesting, hholds⟩ := hfits
      left
      rw [ofTokens?, (hcut nesting hnesting).eq_of_room hholds, ← ofTokens?]
    · refine .inr ⟨hfits, failure.error, ?_, hfault⟩
      rw [ofTokens?, hfailure]

/-- **The standard limits leave room.**  Under the limit of nesting that holds unless another is
set, no parse runs out of the standard stack. -/
theorem ofTokens?_standard (tokens : List Token) (text : List Char) :
    ofTokens? tokens text defaultLimit Interpreter.standard.stack =
      ofTokens? tokens text defaultLimit := by
  have hroom : Interpreter.standard.stack.Holds (callsPerOpener * (50 + 1)) := by decide
  exact (cut_ofTokens? ..).eq_of_room ⟨50, .inl (Int.le_refl _), hroom⟩

/-- The openers of a text that is read under a limit are not nested more deeply. -/
theorem around_lt_of_ofTokens? {last : Token} {nesting : Nat} {e : Expr}
    (hlast : last.kind = .endOfInput) (htokens : ∀ token ∈ tokens, token.kind ≠ .endOfInput)
    (h : ofTokens? (tokens ++ [last]) text nesting = .ok e) :
    ∀ entry ∈ Openers.entries {} (tokens ++ [last]), entry.around < nesting := by
  obtain ⟨-, ⟨rest, depth, frames⟩, hrun, hend⟩ := ofTokens?_eq_ok_iff.mp h
  obtain ⟨taken, (htaken : tokens ++ [last] = taken ++ rest),
      (hne : ∀ entry ∈ Openers.entries {} taken, entry.around ≠ nesting)⟩ :=
    hrun.forall_around_ne id
  obtain ⟨taken', (hrest : tokens ++ [last] = taken' ++ rest), hderives⟩ :=
    hrun.takes (Nat.zero_le _)
  obtain rfl : taken = taken' := List.append_cancel_right (htaken.symm.trans hrest)
  obtain rfl : taken = tokens :=
    eq_of_append_end htokens hderives.kind_ne_endOfInput hlast hrest hend
  have hlastEntry : Openers.entry? (Openers.after {} taken) last = none := by
    rw [Openers.entry?, hlast]
  rw [Openers.entries_append, Openers.entries_cons_of_none hlastEntry, Openers.entries,
    List.append_nil]
  exact Openers.around_lt_of_ne hne (Nat.zero_le _)

end

/-- **The parser is the grammar.**  Take a limit that no nesting of so many tokens exceeds.  On a
stack with room for the tokens, those before the end of the text give a tree exactly if they are a
sentence with that tree.  On any stack, what gives a tree is a sentence with that tree, a sentence
gives its tree or the error that there is no room for another call, and what is no sentence gives an
error of the grammar.  A sentence has one tree. -/
theorem ofTokens?_eq_ok_iff_derives (tokens : List Token) (last : Token) (text : List Char)
    (limit : Int) (stack : Stack) (hlast : last.kind = .endOfInput)
    (htokens : ∀ token ∈ tokens, token.kind ≠ .endOfInput)
    (hlimit : (tokens ++ [last]).length ≤ limit) :
    (TokensFitOn (tokens ++ [last]) limit stack →
      ∀ e, ofTokens? (tokens ++ [last]) text limit stack = .ok e ↔ Derives 0 tokens e) ∧
    (∀ e, ofTokens? (tokens ++ [last]) text limit stack = .ok e → Derives 0 tokens e) ∧
    (∀ e, Derives 0 tokens e → ofTokens? (tokens ++ [last]) text limit stack = .ok e ∨
      ∃ position, ofTokens? (tokens ++ [last]) text limit stack =
        .error ⟨.stackExhausted limit, position⟩) ∧
    ((¬ ∃ e, Derives 0 tokens e) → ∃ error,
      ofTokens? (tokens ++ [last]) text limit stack = .error error ∧
        ∀ wording, (error.report wording).errorClass = .grammar) ∧
    ∀ e e', Derives 0 tokens e → Derives 0 tokens e' → e = e' := by
  have hlength : tokens.length ≤ limit := by
    rw [List.length_append] at hlimit
    omega
  have hiff {e : Expr} : ofTokens? (tokens ++ [last]) text limit = .ok e ↔ Derives 0 tokens e :=
    ofTokens?_eq_ok_iff_derives_of_le hlast htokens hlength
  have hcut := cut_ofTokens? (tokens ++ [last]) text limit stack
  refine ⟨fun hfits e => ?_, fun e h => ?_, fun e h => ?_, fun hnone => ?_, fun e e' h h' => ?_⟩
  · rw [hcut.eq_of_room hfits]
    exact hiff
  · rcases hcut with heq | ⟨-, error, herror, -⟩
    · exact hiff.mp (heq.symm.trans h)
    · cases h.symm.trans herror
  · rcases hcut with heq | ⟨-, ⟨_, position⟩, herror, rfl⟩
    · exact .inl (heq.trans (hiff.mpr h))
    · exact .inr ⟨position, herror⟩
  · rcases hcut with heq | ⟨-, ⟨_, position⟩, herror, rfl⟩
    · rw [heq]
      cases hresult : ofTokens? (tokens ++ [last]) text limit with
      | ok e => exact absurd ⟨e, hiff.mp hresult⟩ hnone
      | error error =>
        refine ⟨error, rfl, fun wording => ?_⟩
        rcases blames_of_ofTokens?_eq_error hresult with rfl | ⟨hopen, -, -⟩
        · rfl
        · exact GrammarFault.errorClass_report hopen wording
    · exact ⟨_, herror, fun wording => rfl⟩
  · exact Except.ok.inj ((hiff.mpr h).symm.trans (hiff.mpr h'))

/-- The tokens of `1 - 2 * 3` give the tree in which the product is the right operand, on a stack
for as many calls as there are without any opener. -/
theorem ofTokens?_difference :
    let value (n : Int) : Value := ⟨.integer (.ofInt FixedInt.literalType n), none⟩
    let minus : InfixOperator := .arithmetic .subtract
    let times : InfixOperator := .arithmetic .multiply
    let tokens : List Token := [⟨.number (value 1), 0, 1⟩, ⟨.operator (.between minus), 2, 1⟩,
      ⟨.number (value 2), 4, 1⟩, ⟨.operator (.between times), 6, 1⟩, ⟨.number (value 3), 8, 1⟩]
    ofTokens? (tokens ++ [⟨.endOfInput, 9, 0⟩]) "1 - 2 * 3".toList 50 ⟨some callsPerOpener⟩ =
      .ok (.binary 2 minus (.literal 0 (value 1))
        (.binary 6 times (.literal 4 (value 2)) (.literal 8 (value 3)))) := by
  intro value minus times tokens
  have hproduct : Derives 8 (tokens.drop 2) _ := @Derives.binary 8 [_] [_] _ times _ _
    ⟨⟨_, rfl, rfl⟩, _, rfl, by decide⟩ (.of_le (.number rfl) (by decide) (by decide)) (.number rfl)
  have hdifference : Derives 7 tokens _ := @Derives.binary 7 [_] _ _ minus _ _
    ⟨⟨_, rfl, rfl⟩, _, rfl, by decide⟩ (.of_le (.number rfl) (by decide) (by decide)) hproduct
  obtain ⟨hiff, -⟩ := ofTokens?_eq_ok_iff_derives tokens ⟨.endOfInput, 9, 0⟩ "1 - 2 * 3".toList 50
    ⟨some callsPerOpener⟩ rfl (by simp [tokens]) (by decide)
  have hfits : TokensFitOn (tokens ++ [⟨.endOfInput, 9, 0⟩]) 50 ⟨some callsPerOpener⟩ :=
    ⟨0, .inr (fun _ hmem => absurd hmem List.not_mem_nil), by decide⟩
  exact (hiff hfits _).mpr (hdifference.of_le (by decide) (by decide))

end Expr

end TypedCalc
