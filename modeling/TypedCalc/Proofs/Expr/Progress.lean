import Mathlib.Logic.Relation
import TypedCalc.Proofs.Expr.NestingLimit

/-!
# Progress of the parser

Every call that the parser makes while it reads some tokens stands at one of them, has as many
openers around it as the depth of its state says, and comes to an end.  If it has a result, it is
further on, still at one of the tokens, and everything that it opened is closed.

* `State.StandsAt`: the index of the next token among the tokens with their end.
* `Call.Situated`: what holds of every call that is reached, with `Call.Situated.exists_of_calls`
  for a single step and `Reached.exists_situated` for all of them.
* `Call.Situated.progresses`: what comes of a call.
* `parser_progresses`: all of it, for every list of tokens and every limit that is not negative.
-/

namespace TypedCalc

namespace Expr

/-! ## Places among the tokens -/

/-- The tokens with the end of the text behind them, unless it stands there already. -/
def Source.terminate (source : Source) (tokens : List Token) : List Token :=
  if tokens.getLast?.map (·.kind) = some .endOfInput then tokens
  else tokens ++ [⟨.endOfInput, source.text.length, 0⟩]

/-- Whether a state is about to read the token at an index of the tokens with their end. -/
structure State.StandsAt (source : Source) (tokens : List Token) (index : Nat) (s : State) :
    Prop where
  rest_eq : s.rest = tokens.drop index
  current_eq : (source.terminate tokens)[index]? = some (s.current source)

section

variable {source : Source} {tokens before rest : List Token} {s after : State}

theorem terminate_of_forall_ne (h : ∀ token ∈ tokens, token.kind ≠ .endOfInput) :
    source.terminate tokens = tokens ++ [⟨.endOfInput, source.text.length, 0⟩] := by
  refine if_neg fun hlast => ?_
  obtain ⟨token, hmem, hkind⟩ := Option.map_eq_some_iff.mp hlast
  exact h token (List.mem_of_getLast? hmem) hkind

theorem prefix_terminate (source : Source) (tokens : List Token) :
    tokens <+: source.terminate tokens := by
  unfold Source.terminate
  split
  · exact List.prefix_rfl
  · exact List.prefix_append _ _

/-- A state whose tokens stand behind others, none of which ends the text. -/
theorem State.standsAt_of_append (htokens : tokens = before ++ s.rest)
    (hbefore : ∀ token ∈ before, token.kind ≠ .endOfInput) :
    s.StandsAt source tokens before.length where
  rest_eq := by rw [htokens, List.drop_left]
  current_eq := by
    unfold State.current
    cases hrest : s.rest with
    | nil =>
      rw [hrest, List.append_nil] at htokens
      rw [htokens, terminate_of_forall_ne hbefore, List.getElem?_concat_length]
      rfl
    | cons token rest =>
      obtain ⟨more, hmore⟩ := prefix_terminate source tokens
      rw [← hmore, htokens, hrest, List.append_assoc,
        List.getElem?_append_right (Nat.le_refl _), Nat.sub_self]
      rfl

end

/-! ## What a call takes -/

/-- Whether tokens start with the parenthesis of a group, or with a name and the parenthesis of a
call. -/
def opensParen : List Token → Bool
  | ⟨.openParen, _, _⟩ :: _ => true
  | ⟨.name _, _, _⟩ :: ⟨.openParen, _, _⟩ :: _ => true
  | _ => false

/-- How many tokens a call takes at least if it has a result.  A group takes two parentheses with
something between them, and a call of a function its name and two parentheses. -/
def Call.least (call : Call) : Nat :=
  match call.phase with
  | .chain _ _ => 0
  | .operand => if opensParen call.state.rest then 3 else 1
  | _ => 1

/-- Whether a phase is one that the parser can get into: it stays within the table of levels, and a
chain goes on from a sentence of its level. -/
def Phase.IsDerived : Phase → Prop
  | .level n => n ≤ InfixOperator.levels.length
  | .chain n left => n < InfixOperator.levels.length ∧ ∃ tokens, Derives n tokens left
  | .prefixed | .operand | .arguments _ => True

theorem Derives.length_pos {level : Nat} {tokens : List Token} {e : Expr}
    (h : Derives level tokens e) : 1 ≤ tokens.length := by
  obtain ⟨token, more, rfl, -⟩ := h.exists_head
  exact Nat.succ_pos _

theorem CommaSeparated.length_pos {lists : List (List Token)} {joined : List Token}
    (h : CommaSeparated lists joined) (hne : lists ≠ [])
    (hlists : ∀ tokens ∈ lists, 1 ≤ tokens.length) : 1 ≤ joined.length := by
  cases h with
  | none => exact absurd rfl hne
  | one => exact hlists _ (List.mem_singleton_self _)
  | more tokens hcomma h =>
    rw [List.length_append, List.length_cons]
    omega

section

variable {source : Source} {phase : Phase} {s after : State} {o : Outcome} {e : Expr}
  {rest : List Token}

/-- The closing parenthesis of a group or a call is one more token. -/
theorem Outcome.length_of_close {opened : Nat} {inner : Expr}
    (h : Outcome.close source opened inner s = .expr e after) :
    after.rest.length + 1 = s.rest.length := by
  rcases Outcome.close_cases source opened inner s with
    ⟨_, _, rest, _, _, hrest, -, hclose⟩ | ⟨_, _, hclose, -⟩
  · rw [hclose] at h
    cases h
    rw [hrest, List.length_cons]
  · rw [hclose] at h
    cases h

/-- Groups and calls take their parentheses. -/
theorem Run.length_of_opensParen (h : Run source .operand s o) (ho : o = .expr e after)
    (hopens : opensParen s.rest = true) : after.rest.length + 3 ≤ s.rest.length := by
  cases h with
  | number h | history h =>
    rw [h] at hopens
    cases hopens
  | @constant _ name position length rest h hnext =>
    unfold opensParen at hopens
    split at hopens
    · rename_i hrest
      cases h.symm.trans hrest
    · rename_i hrest
      obtain ⟨-, rfl⟩ := List.cons.inj (h.symm.trans hrest)
      exact absurd rfl (hnext _ rfl)
    · cases hopens
  | group h hdeep inner =>
    have hclose := Outcome.length_of_close ho
    have hinner := inner.length_lt
    rw [State.inside] at hinner
    rw [h, List.length_cons]
    dsimp only at hinner
    omega
  | callEmpty h hdeep hnext =>
    have hclose := Outcome.length_of_close ho
    rw [h, List.length_cons, List.length_cons]
    rw [State.inside] at hclose
    dsimp only at hclose
    omega
  | call h hdeep hnext inner =>
    have hclose := Outcome.length_of_close ho
    obtain ⟨hrest, -, -⟩ := inner.leaves
    have hinner := hrest.length_le
    rw [State.inside] at hinner
    rw [h, List.length_cons, List.length_cons]
    dsimp only at hinner
    omega
  | groupDeep | groupStop | callDeep | callStop | unexpected => cases ho

/-- **A result takes tokens**, none of which ends the text. -/
theorem Run.exists_taken (h : Run source phase s o) (hphase : phase.IsDerived)
    (hresult : ∀ failure, o ≠ .stop failure) :
    ∃ taken, s.rest = taken ++ o.rest ∧ (∀ token ∈ taken, token.kind ≠ .endOfInput) ∧
      Call.least ⟨phase, s⟩ ≤ taken.length := by
  have htakes := h.takes
  cases o with
  | stop failure => exact absurd rfl (hresult failure)
  | expr e after =>
    cases phase with
    | level n =>
      obtain ⟨taken, hrest, hderives⟩ := htakes hphase
      exact ⟨taken, hrest, hderives.kind_ne_endOfInput, hderives.length_pos⟩
    | chain n left =>
      obtain ⟨taken, hrest, hderives⟩ := htakes
      obtain ⟨-, before, hbefore⟩ := hphase
      refine ⟨taken, hrest, fun token hmem => ?_, Nat.zero_le _⟩
      exact (hderives before hbefore).kind_ne_endOfInput token (List.mem_append_right _ hmem)
    | prefixed =>
      obtain ⟨taken, hrest, hderives⟩ := htakes
      exact ⟨taken, hrest, hderives.kind_ne_endOfInput, hderives.length_pos⟩
    | operand =>
      obtain ⟨taken, hrest, hderives⟩ := htakes
      refine ⟨taken, hrest, hderives.kind_ne_endOfInput, ?_⟩
      unfold Call.least
      dsimp only
      split
      · rename_i hopens
        have hlength := h.length_of_opensParen rfl hopens
        rw [hrest, List.length_append] at hlength
        omega
      · exact hderives.length_pos
    | arguments name => exact absurd h.run_eq (Outcome.ofArguments_ne_expr _ _ _)
  | arguments es after =>
    cases phase with
    | arguments name =>
      obtain ⟨arguments, joined, hrest, hjoined, hne, -, hderives⟩ := htakes
      refine ⟨joined, hrest, hjoined.kind_ne_endOfInput (List.forall_mem_map.mpr ?_),
        hjoined.length_pos (mt List.map_eq_nil_iff.mp hne) (List.forall_mem_map.mpr ?_)⟩
      · exact fun argument hmem => (hderives argument hmem).kind_ne_endOfInput
      · exact fun argument hmem => (hderives argument hmem).length_pos
    | level | chain | prefixed | operand =>
      exact absurd h.run_eq (Outcome.ofExpr_ne_arguments _ _ _)

end

/-! ## Calls that are reached -/

/-- Whether the parser makes a call while it reads some tokens. -/
def Reached (source : Source) (tokens : List Token) (call : Call) : Prop :=
  Relation.ReflTransGen (Calls source) ⟨.level 0, { rest := tokens }⟩ call

/-- Where a call is among the tokens: some of them stand before it, none of which ends the text, and
these leave some openers open, as many as the depth of its state says. -/
structure Call.Situated (source : Source) (tokens before : List Token) (outer : List Opener)
    (call : Call) : Prop where
  tokens_eq : tokens = before ++ call.state.rest
  kind_ne : ∀ token ∈ before, token.kind ≠ .endOfInput
  starts : call.phase.Starts outer (Openers.after {} before)
  depth_eq : outer.length = call.state.depth
  depth_le : call.state.depth ≤ source.limit
  isDerived : call.phase.IsDerived

/-- What comes of a call that stands at an index.  With a result it stands further on, by as many
tokens as it takes at least, and all that it opened is closed.  An error is not about closing a
parenthesis where none is open. -/
def Outcome.Progresses (source : Source) (tokens : List Token) (call : Call) (index : Nat) :
    Outcome → Prop
  | .expr _ after | .arguments _ after =>
    (∃ index', index + call.least ≤ index' ∧ after.StandsAt source tokens index') ∧
      after.depth = call.state.depth ∧ after.frames = call.state.frames
  | .stop failure => failure.error.fault ≠ .noOpenParen

namespace Call.Situated

variable {source : Source} {tokens before rest : List Token} {outer : List Opener}
  {s s' after : State} {phase phase' : Phase} {level : Nat} {left e : Expr} {call callee : Call}

/-- An operand of an infix operator starts where its level does. -/
theorem level_succ (h : Situated source tokens before outer ⟨.level level, s⟩)
    (hlevel : level < InfixOperator.levelCount) :
    Situated source tokens before outer ⟨.level (level + 1), s⟩ :=
  { h with starts := h.starts, isDerived := hlevel }

/-- An argument starts where the arguments do. -/
theorem argument {name : String} (h : Situated source tokens before outer ⟨.arguments name, s⟩) :
    Situated source tokens before outer ⟨.level 0, s⟩ :=
  { h with starts := h.starts, isDerived := Nat.zero_le _ }

/-- Behind an expression, a chain can go on. -/
theorem exists_chain (h : Situated source tokens before outer ⟨.level level, s⟩)
    (hrun : Run source (.level level) s (.expr e after)) :
    ∃ taken, Derives level taken e ∧ ∀ n left, (Phase.chain n left).IsDerived →
      Situated source tokens (before ++ taken) outer ⟨.chain n left, after⟩ := by
  obtain ⟨taken, hrest, hderives⟩ := hrun.takes h.isDerived
  obtain ⟨taken', hrest', hend, -⟩ := hrun.walks id h.starts h.depth_eq
  obtain rfl : taken = taken' := List.append_cancel_right (hrest.symm.trans hrest')
  obtain ⟨-, hdepth, -⟩ := hrun.leaves
  refine ⟨taken, hderives, fun n left hchain => ?_⟩
  exact {
    tokens_eq := by rw [h.tokens_eq, hrest, List.append_assoc]
    kind_ne := List.forall_mem_append.mpr ⟨h.kind_ne, hderives.kind_ne_endOfInput⟩
    starts := ⟨by rw [Openers.after_append]; exact hend, h.starts.2⟩
    depth_eq := h.depth_eq.trans hdepth.symm
    depth_le := hdepth ▸ h.depth_le
    isDerived := hchain }

/-- What follows an operator of a chain, or a comma in its place. -/
theorem separator (h : Situated source tokens before outer ⟨.chain level left, s⟩) {token : Token}
    (hrest : s.rest = token :: rest)
    (hkind : (∃ symbol, token.kind = .operator symbol) ∨ token.kind = .comma)
    (hstarts : Openers.IsSettled outer → phase.Starts outer ⟨outer, false⟩)
    (hphase : phase.IsDerived) :
    Situated source tokens (before ++ [token]) outer ⟨phase, { s with rest := rest }⟩ where
  tokens_eq := by rw [h.tokens_eq, hrest, List.append_assoc, List.singleton_append]
  kind_ne := by
    refine List.forall_mem_append.mpr ⟨h.kind_ne, List.forall_mem_singleton.mpr ?_⟩
    rcases hkind with ⟨symbol, hkind⟩ | hkind <;> (rw [hkind]; nofun)
  starts := by
    obtain ⟨hcomplete, houter⟩ := h.starts
    have hstep : (Openers.after {} before).step token.kind = ⟨outer, false⟩ :=
      hcomplete.step_separator houter hkind
    rw [Openers.after_append, Openers.after, List.foldl_cons, List.foldl_nil, hstep]
    exact hstarts houter
  depth_eq := h.depth_eq
  depth_le := h.depth_le
  isDerived := hphase

/-- What is inside an opener that the limit allows. -/
theorem enter (h : Situated source tokens before outer ⟨phase, s⟩)
    (hbefore : Openers.after {} before = ⟨outer, false⟩) {entered : List Token}
    (hrest : s.rest = entered ++ s'.rest) (hkind : ∀ token ∈ entered, token.kind ≠ .endOfInput)
    {opener : Opener}
    (hentered : Openers.after ⟨outer, false⟩ entered = ⟨opener :: outer, false⟩)
    (hdepth : s'.depth = s.depth + 1) (hdeep : ¬ source.limit < (s.depth + 1 : Nat))
    (hstarts : phase'.Starts (opener :: outer) ⟨opener :: outer, false⟩)
    (hphase : phase'.IsDerived) :
    Situated source tokens (before ++ entered) (opener :: outer) ⟨phase', s'⟩ where
  tokens_eq := by rw [h.tokens_eq, hrest, List.append_assoc]
  kind_ne := List.forall_mem_append.mpr ⟨h.kind_ne, hkind⟩
  starts := by
    rw [Openers.after_append, hbefore, hentered]
    exact hstarts
  depth_eq := by rw [List.length_cons, h.depth_eq, hdepth]
  depth_le := by
    rw [hdepth]
    exact Int.not_lt.mp hdeep
  isDerived := hphase

/-- **What a call makes of its place is the place of every call that it makes.** -/
theorem exists_of_calls (h : Situated source tokens before outer call)
    (hcall : Calls source call callee) :
    ∃ before outer, Situated source tokens before outer callee := by
  cases hcall with
  | top hlevel => exact ⟨_, _, { h with starts := h.starts.1, isDerived := trivial }⟩
  | level hlevel => exact ⟨_, _, h.level_succ hlevel⟩
  | levelChain hlevel operand =>
    obtain ⟨taken, hderives, hchain⟩ := (h.level_succ hlevel).exists_chain operand
    exact ⟨_, _, hchain _ _ ⟨hlevel, taken, .tighter hlevel hderives⟩⟩
  | right hop =>
    obtain ⟨symbol, length, hrest, -⟩ := infixOfLevel?_eq_some_iff.mp hop
    exact ⟨_, _, h.separator hrest (.inl ⟨symbol, rfl⟩) (fun houter => ⟨rfl, houter⟩) h.isDerived.1⟩
  | @chain level left right s after op position rest hop operand =>
    obtain ⟨token, hrest, rfl, hinfix⟩ := infixOfLevel?_eq_some_iff_isInfix.mp hop
    obtain ⟨⟨symbol, hkind, -⟩, -⟩ := id hinfix
    obtain ⟨hlevel, tokens', hleft⟩ := h.isDerived
    have hright : Situated source tokens (before ++ [token]) outer
        ⟨.level (level + 1), { s with rest := rest }⟩ :=
      h.separator hrest (.inl ⟨symbol, hkind⟩) (fun houter => ⟨rfl, houter⟩) hlevel
    obtain ⟨taken, hderives, hchain⟩ := hright.exists_chain operand
    exact ⟨_, _, hchain _ _ ⟨hlevel, _, .binary hinfix hleft hderives⟩⟩
  | unprefixed hop => exact ⟨_, _, { h with starts := h.starts, isDerived := trivial }⟩
  | @prefixed s op position rest hop hdeep =>
    obtain ⟨symbol, length, hrest, -⟩ := prefixAt?_eq_some_iff.mp hop
    exact ⟨before ++ [⟨.operator symbol, position, length⟩], .sign :: outer,
      h.enter h.starts hrest (by simp) rfl rfl hdeep rfl trivial⟩
  | @group s opened length rest hrest hdeep =>
    exact ⟨before ++ [⟨.openParen, opened, length⟩], .paren :: outer,
      h.enter h.starts hrest (by simp) rfl rfl hdeep
        ⟨rfl, Openers.isSettled_paren _⟩ (Nat.zero_le _)⟩
  | @call s name position opened length length' rest hrest hdeep hnext =>
    exact ⟨before ++ [⟨.name name, position, length⟩, ⟨.openParen, opened, length'⟩],
      .paren :: outer, h.enter h.starts hrest (by simp) rfl rfl hdeep
        ⟨rfl, Openers.isSettled_paren _⟩ trivial⟩
  | argument hcomma hclose => exact ⟨_, _, h.argument⟩
  | arguments hcomma hclose first hnext =>
    obtain ⟨taken, hderives, hchain⟩ := h.argument.exists_chain first
    obtain ⟨position, length, hrest⟩ := afterComma?_eq_some hnext
    have hbehind := hchain 0 _ ⟨by decide, taken, hderives⟩
    exact ⟨_, _, hbehind.separator hrest (.inr rfl) (fun houter => ⟨rfl, houter⟩) trivial⟩

/-- **A call makes progress and closes what it opens.** -/
theorem progresses (h : Situated source tokens before outer call) {o : Outcome}
    (hrun : Run source call.phase call.state o) :
    o.Progresses source tokens call before.length := by
  cases o with
  | stop failure => exact hrun.blames.1
  | expr | arguments =>
    obtain ⟨taken, hrest, hkind, hlength⟩ := hrun.exists_taken h.isDerived (by simp)
    obtain ⟨-, hdepth, hframes⟩ := hrun.leaves
    refine ⟨⟨(before ++ taken).length, ?_, State.standsAt_of_append ?_ ?_⟩, hdepth, hframes⟩
    · rw [List.length_append]
      exact Nat.add_le_add_left hlength _
    · rw [h.tokens_eq, hrest, List.append_assoc]
      rfl
    · exact List.forall_mem_append.mpr ⟨h.kind_ne, hkind⟩

/-- An operand starts between tokens that leave nothing but the openers around it. -/
theorem after_take (h : Situated source tokens before outer call)
    (hphase : ∀ level left, call.phase ≠ .chain level left) :
    Openers.after {} (tokens.take before.length) = ⟨outer, false⟩ := by
  have hstarts := h.starts
  rw [h.tokens_eq, List.take_left]
  cases hcall : call.phase with
  | chain level left => exact absurd hcall (hphase level left)
  | level | arguments =>
    rw [hcall] at hstarts
    exact hstarts.1
  | prefixed | operand =>
    rw [hcall] at hstarts
    exact hstarts

end Call.Situated

section

variable {source : Source} {tokens : List Token} {call : Call}

/-- **Every call that is reached has its place among the tokens.** -/
theorem Reached.exists_situated (h : Reached source tokens call) (hlimit : 0 ≤ source.limit) :
    ∃ before outer, call.Situated source tokens before outer := by
  induction h with
  | refl => exact ⟨[], [], rfl, by simp, ⟨rfl, rfl⟩, rfl, hlimit, Nat.zero_le _⟩
  | tail _ hcall ih =>
    obtain ⟨before, outer, hplace⟩ := ih
    exact hplace.exists_of_calls hcall

/-- From the lowest level the parser gets to the prefix operators. -/
theorem Reached.prefixed {s : State} (h : Reached source tokens ⟨.level 0, s⟩) :
    Reached source tokens ⟨.prefixed, s⟩ := by
  have hlevels (n : Nat) (hn : n ≤ InfixOperator.levelCount) :
      Reached source tokens ⟨.level n, s⟩ := by
    induction n with
    | zero => exact h
    | succ n ih => exact (ih (Nat.le_of_succ_le hn)).tail (.level hn)
  exact (hlevels _ (Nat.le_refl _)).tail (.top (Nat.lt_irrefl _))

/-- Calls do not go on for ever. -/
theorem wellFounded_calls (source : Source) :
    WellFounded fun callee caller => Calls source caller callee :=
  Subrelation.wf Calls.measure_lt
    (InvImage.wf (fun call : Call => call.phase.measure call.state) Nat.lt_wfRel.wf)

/-- What is read as a whole is what the lowest level reads. -/
theorem run_of_parseAll {e : Expr} {after : State} (h : parseAll source tokens = .ok (e, after)) :
    Run source (.level 0) { rest := tokens } (.expr e after) := by
  by_cases hempty : (({ rest := tokens } : State).current source).kind = .endOfInput
  · simp only [parseAll, hempty] at h
    cases h
  · rcases exists_run_level source 0 { rest := tokens } with ⟨e', after', hrun⟩ | ⟨failure, hrun⟩
    · rw [parseAll_of_expr hempty hrun] at h
      rcases after'.finish_cases source e' with ⟨-, hfinish⟩ | ⟨-, _, -, hfinish⟩
      · rw [hfinish] at h
        cases h
        exact hrun
      · rw [hfinish] at h
        cases h
    · rw [parseAll_of_stop hempty hrun] at h
      cases h

end

/-- **The parser makes progress and closes what it opens.**  Whatever the tokens and the limit,
there is no endless chain of calls, and every call that is reached has an outcome.  It stands at one
of the tokens with their end; where an operand is about to be read, the depth is the number of
openers around it, and it is never above the limit.  With a result a call stands further on, still
at one of the tokens, and the depth and the frames are those with which it started.  No parenthesis
is closed without a frame, and nothing is open when all tokens are read. -/
theorem parser_progresses (source : Source) (tokens : List Token) (hlimit : 0 ≤ source.limit) :
    (WellFounded fun callee caller => Calls source caller callee) ∧
    (∀ call, Reached source tokens call →
      (∀ level, call.phase = .level level → level ≤ InfixOperator.levelCount) ∧
      Run source call.phase call.state (run source call.phase call.state) ∧
      ∃ index, call.state.StandsAt source tokens index ∧
        (run source call.phase call.state).Progresses source tokens call index ∧
        call.state.depth ≤ source.limit ∧
        ((∀ level left, call.phase ≠ .chain level left) →
          call.state.depth = (Openers.after {} (tokens.take index)).opened.length)) ∧
    (∀ e after, parseAll source tokens = .ok (e, after) → after.depth = 0 ∧ after.frames = []) ∧
    ∀ failure, parseAll source tokens = .error failure → failure.error.fault ≠ .noOpenParen := by
  refine ⟨wellFounded_calls source, fun call hreached => ?_, fun e after hparse => ?_,
    fun failure hparse => ?_⟩
  · obtain ⟨before, outer, hplace⟩ := hreached.exists_situated hlimit
    have hrun := run_spec source call.phase call.state
    refine ⟨fun level hlevel => ?_, hrun, before.length,
      State.standsAt_of_append hplace.tokens_eq hplace.kind_ne, hplace.progresses hrun,
      hplace.depth_le, fun hphase => ?_⟩
    · have hderived := hplace.isDerived
      rwa [hlevel] at hderived
    · rw [hplace.after_take hphase, hplace.depth_eq]
  · obtain ⟨-, hdepth, hframes⟩ := (run_of_parseAll hparse).leaves
    exact ⟨hdepth, hframes⟩
  · have herror : ofTokens? tokens source.text source.limit = .error failure.error := by
      rw [ofTokens?, hparse]
    rcases blames_of_ofTokens?_eq_error herror with hempty | ⟨hopen, -⟩
    · rw [hempty]
      rintro ⟨⟩
    · exact hopen

/-- In `-(1)`, without a token for its end, the number is read inside two openers, and nothing is
open after it. -/
theorem parser_progresses_signedGroup :
    let one : Value := ⟨.integer (.ofInt FixedInt.literalType 1), none⟩
    let minus : TokenKind := .operator (.between (.arithmetic .subtract))
    let tokens : List Token := [⟨minus, 0, 1⟩, ⟨.openParen, 1, 1⟩, ⟨.number one, 2, 1⟩,
      ⟨.closeParen, 3, 1⟩]
    let source : Source := ⟨"-(1)".toList, 2⟩
    0 ≤ source.limit ∧
      (∃ s, Reached source tokens ⟨.operand, s⟩ ∧ s.rest = tokens.drop 2 ∧ s.depth = 2) ∧
      ∃ e after, parseAll source tokens = .ok (e, after) ∧ after.depth = 0 ∧ after.frames = [] := by
  intro one minus tokens source
  have hlimit : 0 ≤ source.limit := by decide
  obtain ⟨-, hcalls, hdone, -⟩ := parser_progresses source tokens hlimit
  refine ⟨hlimit, ?_, ?_⟩
  · have hstart : Reached source tokens ⟨.level 0, { rest := tokens }⟩ := .refl
    have hgroup : Reached source tokens ⟨.operand, _⟩ :=
      (hstart.prefixed.tail (.prefixed rfl (by decide))).tail (.unprefixed rfl)
    have hinside : Reached source tokens ⟨.level 0, _⟩ := hgroup.tail (.group rfl (by decide))
    have hone : Reached source tokens ⟨.operand, _⟩ := hinside.prefixed.tail (.unprefixed rfl)
    obtain ⟨-, -, index, hplace, -, -, hdepth⟩ := hcalls _ hone
    refine ⟨_, hone, rfl, ?_⟩
    have hlength : tokens.length - index = 2 := by
      rw [← List.length_drop, ← hplace.rest_eq]
      rfl
    have hcount : tokens.length = 4 := rfl
    obtain rfl : index = 2 := by omega
    exact hdepth nofun
  · obtain ⟨e, after, hparse⟩ : ∃ e after, parseAll source tokens = .ok (e, after) :=
      ⟨_, _, by with_unfolding_all rfl⟩
    exact ⟨e, after, hparse, hdone e after hparse⟩

end Expr

end TypedCalc
