import Mathlib.Data.List.Basic
import TypedCalc.Proofs.Expr.Grammar
import TypedCalc.Proofs.Expr.Lookahead

/-!
# The first token that is wrong

A parser that reads from left to right should notice an error at the first token that makes one: the
tokens before it are the start of a sentence and those up to it are not.

* `Run.breaks`: what a run took before it stopped can go on to a sentence, with closing parentheses
  if these are missing.
* `Run.not_derives`: no sentence starts with that and the token at which the run stopped.
* `ofTokens?_blames_first_fault`: so the parser notices every error neither too early nor too late,
  and says where it is.
-/

namespace TypedCalc

namespace Expr

/-! ## Starts of sentences -/

/-- Whether a sentence of a level starts with the tokens. -/
def Viable (level : Nat) (tokens : List Token) : Prop := ∃ more e, Derives level (tokens ++ more) e

theorem Derives.viable {level : Nat} {tokens : List Token} {e : Expr}
    (h : Derives level tokens e) : Viable level tokens :=
  ⟨[], e, by rwa [List.append_nil]⟩

/-- There is a sentence of one token. -/
theorem exists_derives {level : Nat} (h : level ≤ InfixOperator.levels.length) :
    ∃ token e, Derives level [token] e :=
  ⟨⟨.number (.ofBool false), 0, 1⟩, _, .of_le (.number rfl) h (Nat.le_refl _)⟩

theorem viable_nil {level : Nat} (h : level ≤ InfixOperator.levels.length) : Viable level [] := by
  obtain ⟨token, e, hderives⟩ := exists_derives h
  exact ⟨[token], e, hderives⟩

theorem Viable.kind_ne_endOfInput {level : Nat} {tokens : List Token} (h : Viable level tokens) :
    ∀ token ∈ tokens, token.kind ≠ .endOfInput := by
  obtain ⟨more, e, hderives⟩ := h
  exact fun token hmem => hderives.kind_ne_endOfInput token (List.mem_append_left _ hmem)

/-! ## Open parentheses -/

/-- The positions of the parentheses that are open after the tokens, the innermost first, if those
on the stack are open before them. -/
def openPositions (stack : List Nat) : List Token → List Nat
  | [] => stack
  | ⟨.openParen, position, _⟩ :: rest => openPositions (position :: stack) rest
  | ⟨.closeParen, _, _⟩ :: rest => openPositions stack.tail rest
  | _ :: rest => openPositions stack rest

theorem openPositions_append (stack : List Nat) (tokens more : List Token) :
    openPositions stack (tokens ++ more) = openPositions (openPositions stack tokens) more := by
  fun_induction openPositions stack tokens with
  | case1 => rfl
  | case2 stack position length rest ih => exact ih
  | case3 stack position length rest ih => exact ih
  | case4 stack token rest hopen hclose ih =>
    obtain ⟨kind, position, length⟩ := token
    rw [List.cons_append, openPositions]
    · exact ih
    · exact hopen
    · exact hclose

theorem openPositions_cons_of_ne {token : Token} (hopen : token.kind ≠ .openParen)
    (hclose : token.kind ≠ .closeParen) (stack : List Nat) (rest : List Token) :
    openPositions stack (token :: rest) = openPositions stack rest := by
  obtain ⟨kind, position, length⟩ := token
  cases kind with
  | openParen => exact absurd rfl hopen
  | closeParen => exact absurd rfl hclose
  | _ => rfl

theorem openPositions_cons_operator {token : Token} {symbol : OperatorSymbol}
    (h : token.kind = .operator symbol) (stack : List Nat) (rest : List Token) :
    openPositions stack (token :: rest) = openPositions stack rest :=
  openPositions_cons_of_ne (by rw [h]; nofun) (by rw [h]; nofun) stack rest

theorem CommaSeparated.openPositions_eq {lists : List (List Token)} {joined : List Token}
    (h : CommaSeparated lists joined)
    (hlists : ∀ tokens ∈ lists, ∀ stack, openPositions stack tokens = stack) (stack : List Nat) :
    openPositions stack joined = stack := by
  induction h with
  | none => rfl
  | one tokens => exact hlists tokens (List.mem_singleton_self _) stack
  | more tokens hcomma h ih =>
    obtain ⟨htokens, hothers⟩ := List.forall_mem_cons.mp hlists
    rw [openPositions_append, htokens, openPositions_cons_of_ne (by rw [hcomma]; nofun)
      (by rw [hcomma]; nofun), ih hothers]

/-- After a sentence the same parentheses are open as before it. -/
theorem Derives.openPositions_eq {level : Nat} {tokens : List Token} {e : Expr}
    (h : Derives level tokens e) (stack : List Nat) : openPositions stack tokens = stack := by
  induction h generalizing stack with
  | binary hop hleft hright ihleft ihright =>
    obtain ⟨⟨symbol, hkind, _⟩, _⟩ := hop
    rw [openPositions_append, ihleft, openPositions_cons_operator hkind, ihright]
  | tighter h inner ih => exact ih stack
  | unary hop inner ih =>
    obtain ⟨symbol, hkind, _⟩ := hop
    rw [openPositions_cons_operator hkind, ih]
  | number h | history h | constant h =>
    exact openPositions_cons_of_ne (by rw [h]; nofun) (by rw [h]; nofun) stack []
  | @call token opening closing name arguments joined h hopening hclosing hjoined harguments ih =>
    obtain ⟨_, opened, length⟩ := opening
    obtain ⟨_, closed, length'⟩ := closing
    cases hopening
    cases hclosing
    have hinside (stack : List Nat) : openPositions stack joined = stack :=
      hjoined.openPositions_eq (List.forall_mem_map.mpr ih) stack
    rw [List.cons_append, openPositions_cons_of_ne (by rw [h]; nofun) (by rw [h]; nofun),
      List.cons_append, openPositions, openPositions_append, hinside]
    rfl
  | @group opening closing tokens e hopening hclosing inner ih =>
    obtain ⟨_, opened, length⟩ := opening
    obtain ⟨_, closed, length'⟩ := closing
    cases hopening
    cases hclosing
    rw [List.cons_append, openPositions, openPositions_append, ih]
    rfl

/-! ## What was taken before a stop -/

/-- Whether tokens are what a phase reads. -/
def Phase.Completes (tokens : List Token) : Phase → Prop
  | .level n => n ≤ InfixOperator.levels.length → ∃ e, Derives n tokens e
  | .chain n left => ∀ before, Derives n before left → ∃ e, Derives n (before ++ tokens) e
  | .prefixed | .operand => ∃ e, Derives InfixOperator.levels.length tokens e
  | .arguments _ => ∃ arguments : List (List Token × Expr), arguments ≠ [] ∧
      CommaSeparated (arguments.map (·.1)) tokens ∧
      ∀ argument ∈ arguments, Derives 0 argument.1 argument.2

/-- Whether what a phase took can go on to something that the phase reads. -/
def Phase.CanGoOn (taken : List Token) : Phase → Prop
  | .level n => n ≤ InfixOperator.levels.length → Viable n taken
  | .chain n left => ∀ before, Derives n before left → Viable n (before ++ taken)
  | .prefixed | .operand => Viable InfixOperator.levels.length taken
  | .arguments _ => ∃ (arguments : List (List Token × Expr)) (more : List Token), arguments ≠ [] ∧
      CommaSeparated (arguments.map (·.1)) (taken ++ more) ∧
      ∀ argument ∈ arguments, Derives 0 argument.1 argument.2

theorem Phase.Completes.canGoOn {phase : Phase} {taken more : List Token}
    (h : phase.Completes (taken ++ more)) : phase.CanGoOn taken := by
  cases phase with
  | level n => exact fun hlevel => ⟨more, h hlevel⟩
  | chain n left =>
    intro before hbefore
    refine ⟨more, ?_⟩
    rw [List.append_assoc]
    exact h before hbefore
  | prefixed | operand => exact ⟨more, h⟩
  | arguments name =>
    obtain ⟨arguments, hread⟩ := h
    exact ⟨arguments, more, hread⟩

/-- The positions of the open parentheses of a state. -/
def State.openPositions (s : State) : List Nat := s.frames.map (·.position)

/-- A sentence between two states with the same open parentheses leaves these open. -/
theorem Derives.openPositions_between {level : Nat} {tokens : List Token} {e : Expr}
    (h : Derives level tokens e) {s after : State} (hframes : after.frames = s.frames) :
    openPositions s.openPositions tokens = after.openPositions := by
  rw [h.openPositions_eq, State.openPositions, State.openPositions, hframes]

/-- Inside parentheses at least these are open. -/
theorem State.frames_ne_nil_of_inside {source : Source} {s after : State} {rest : List Token}
    {opened : Nat} {opening : Opening}
    (h : after.frames = (s.inside source rest opened opening).frames) : after.frames ≠ [] := by
  rw [h]
  exact List.cons_ne_nil _ _

/-- Whether a run that stopped in some way took the tokens before. -/
structure Halts (phase : Phase) (s : State) (failure : Stop) (taken : List Token) : Prop where
  /-- They are all the tokens that are not left. -/
  rest : s.rest = taken ++ failure.rest
  /-- They can go on. -/
  canGoOn : phase.CanGoOn taken
  /-- The parentheses that an error lists are those that are open after them. -/
  unclosed : ∀ frames, failure.error.fault = .unclosed frames →
    frames.map (·.position) = Expr.openPositions s.openPositions taken

/-- Whether frames are those of the parentheses that some tokens leave open, and closing them
completes the tokens. -/
structure LeavesOpen (source : Source) (phase : Phase) (s : State) (frames : List Frame)
    (taken : List Token) : Prop where
  /-- The limit allows an opening parenthesis. -/
  limit_pos : 0 < source.limit
  /-- What was open before still is. -/
  length_le : s.frames.length ≤ frames.length
  /-- The frames are those of the open parentheses. -/
  positions : frames.map (·.position) = Expr.openPositions s.openPositions taken
  /-- Closing parentheses for what was opened make what the phase reads. -/
  completes : ∀ closings : List Token, closings.length + s.frames.length = frames.length →
    (∀ closing ∈ closings, closing.kind = .closeParen) → phase.Completes (taken ++ closings)

/-- Whether a run that stopped in some way took the tokens before, and how these can go on. -/
structure Breaks (source : Source) (phase : Phase) (s : State) (failure : Stop)
    (taken : List Token) : Prop where
  /-- They are all the tokens that are not left. -/
  rest : s.rest = taken ++ failure.rest
  /-- They can go on. -/
  goesOn : ∃ more, phase.Completes (taken ++ more)
  /-- They can go on with closing parentheses if that is what is missing. -/
  leavesOpen : ∀ frames, failure.error.fault = .unclosed frames →
    LeavesOpen source phase s frames taken

section

variable {source : Source} {phase outer : Phase} {s middle later : State} {failure : Stop}
  {tokens taken : List Token}

theorem Breaks.mono (h : Breaks source phase s failure taken)
    (hcompletes : ∀ tokens, phase.Completes tokens → outer.Completes tokens) :
    Breaks source outer s failure taken where
  rest := h.rest
  goesOn := by
    obtain ⟨more, hread⟩ := h.goesOn
    exact ⟨more, hcompletes _ hread⟩
  leavesOpen frames hfault := by
    obtain ⟨hpos, hlength, hpositions, hclosed⟩ := h.leavesOpen frames hfault
    exact ⟨hpos, hlength, hpositions, fun closings hclosings hkinds =>
      hcompletes _ (hclosed closings hclosings hkinds)⟩

/-- What a phase takes comes after what was taken before it. -/
theorem Breaks.after (h : Breaks source phase middle failure taken)
    (hrest : s.rest = tokens ++ middle.rest) (hframes : middle.frames = s.frames)
    (hopen : openPositions s.openPositions tokens = middle.openPositions)
    (hcompletes : ∀ more, phase.Completes more → outer.Completes (tokens ++ more)) :
    Breaks source outer s failure (tokens ++ taken) where
  rest := by rw [hrest, h.rest, List.append_assoc]
  goesOn := by
    obtain ⟨more, hread⟩ := h.goesOn
    exact ⟨more, List.append_assoc tokens taken more ▸ hcompletes _ hread⟩
  leavesOpen frames hfault := by
    obtain ⟨hpos, hlength, hpositions, hclosed⟩ := h.leavesOpen frames hfault
    refine ⟨hpos, hframes ▸ hlength, ?_, fun closings hclosings hkinds => ?_⟩
    · rw [openPositions_append, hopen, hpositions]
    · rw [List.append_assoc]
      exact hcompletes _ (hclosed closings (hframes ▸ hclosings) hkinds)

/-- The last closing parenthesis is that of the group or the call around what was taken. -/
theorem Breaks.inside {rest : List Token} {opened : Nat} {opening : Opening}
    (h : Breaks source phase (s.inside source rest opened opening) failure taken)
    (tokens : List Token) (hrest : s.rest = tokens ++ rest)
    (hopen : openPositions s.openPositions tokens = opened :: s.openPositions)
    (hcompletes : ∀ more (closing : Token), phase.Completes more → closing.kind = .closeParen →
      ∃ e, Derives InfixOperator.levels.length (tokens ++ more ++ [closing]) e) :
    Breaks source .operand s failure (tokens ++ taken) where
  rest := by
    have hinside : rest = taken ++ failure.rest := h.rest
    rw [hrest, hinside, List.append_assoc]
  goesOn := by
    obtain ⟨more, hread⟩ := h.goesOn
    obtain ⟨e, hderives⟩ := hcompletes _ ⟨.closeParen, 0, 1⟩ hread rfl
    refine ⟨more ++ [⟨.closeParen, 0, 1⟩], e, ?_⟩
    rwa [← List.append_assoc, List.append_assoc tokens]
  leavesOpen frames hfault := by
    obtain ⟨hpos, hlength, hpositions, hclosed⟩ := h.leavesOpen frames hfault
    have hmore : s.frames.length + 1 ≤ frames.length := hlength
    refine ⟨hpos, Nat.le_of_succ_le hmore, ?_, fun closings hclosings hkinds => ?_⟩
    · rw [openPositions_append, hopen]
      exact hpositions
    rcases List.eq_nil_or_concat' closings with rfl | ⟨first, closing, rfl⟩
    · rw [List.length_nil] at hclosings
      omega
    · rw [List.length_append, List.length_singleton] at hclosings
      obtain ⟨hfirst, hclosing⟩ := List.forall_mem_append.mp hkinds
      have hinside : (s.inside source rest opened opening).frames.length =
          s.frames.length + 1 := rfl
      have hread := hclosed first (by omega) hfirst
      have hsentence := hcompletes _ closing hread (hclosing closing List.mem_cons_self)
      rwa [← List.append_assoc, List.append_assoc tokens]

/-- A group or a call that is open at the end of the text lists the frames that are left. -/
theorem Outcome.eq_frames_of_close {e : Expr} {opened : Nat} {frames : List Frame}
    (hclose : Outcome.close source opened e later = .stop failure)
    (hfault : failure.error.fault = .unclosed frames) : later.frames = frames := by
  rcases Outcome.close_cases source opened e later with
    ⟨_, _, _, _, _, _, _, h⟩ | ⟨fault, position, h, hcause⟩
  · exact nomatch hclose.symm.trans h
  · cases hclose.symm.trans h
    obtain rfl : fault = .unclosed frames := hfault
    rcases hcause with ⟨hcause, -⟩ | ⟨hcause, -⟩ | ⟨_, hcause, -⟩
    · exact nomatch hcause
    · exact (GrammarFault.unclosed.inj hcause).symm
    · exact nomatch hcause

/-- A group or a call that is not closed could have been. -/
theorem Outcome.breaks_close {e : Expr} {opened : Nat} {rest : List Token} {opening : Opening}
    (hclose : Outcome.close source opened e later = .stop failure)
    (hframes : later.frames = (s.inside source rest opened opening).frames)
    (hdeep : ¬ source.limit < (s.depth + 1 : Nat)) (hrest : s.rest = tokens ++ later.rest)
    (hopen : openPositions s.openPositions tokens = later.openPositions)
    (hderives : ∀ closing : Token, closing.kind = .closeParen →
      Derives InfixOperator.levels.length (tokens ++ [closing]) e) :
    Breaks source .operand s failure tokens where
  rest := by
    rcases Outcome.close_cases source opened e later with
      ⟨_, _, _, _, _, _, _, h⟩ | ⟨fault, position, h, -⟩
    · exact nomatch hclose.symm.trans h
    · cases hclose.symm.trans h
      exact hrest
  goesOn := ⟨[⟨.closeParen, 0, 1⟩], e, hderives _ rfl⟩
  leavesOpen frames hfault := by
    obtain rfl := Outcome.eq_frames_of_close hclose hfault
    have hlength : later.frames.length = s.frames.length + 1 := congrArg List.length hframes
    refine ⟨by omega, by omega, hopen.symm, fun closings hclosings hkinds => ?_⟩
    obtain ⟨closing, rfl⟩ := List.length_eq_one_iff.mp (by omega : closings.length = 1)
    exact ⟨e, hderives closing (hkinds closing List.mem_cons_self)⟩

/-- **What a run took before it stopped can go on**, with as many closing parentheses as it lists
as open if that is why it stopped. -/
theorem Run.breaks {o : Outcome} (h : Run source phase s o) (ho : o = .stop failure) :
    ∃ taken, Breaks source phase s failure taken := by
  induction h with
  | @top level s o h inner ih =>
    obtain ⟨taken, hbreaks⟩ := ih ho
    refine ⟨taken, hbreaks.mono fun tokens hread hlevel => ?_⟩
    have htop : level = InfixOperator.levels.length := Nat.le_antisymm hlevel (Nat.not_lt.mp h)
    rwa [htop]
  | level h operand chain ihoperand ihchain =>
    obtain ⟨tokens, hrest, hfirst⟩ := operand.takes h
    obtain ⟨taken, hbreaks⟩ := ihchain ho
    obtain ⟨-, -, hframes⟩ := operand.leaves
    exact ⟨tokens ++ taken, hbreaks.after hrest hframes (hfirst.openPositions_between hframes)
      fun more hread _ => hread tokens (.tighter h hfirst)⟩
  | levelStop h operand ih =>
    obtain ⟨taken, hbreaks⟩ := ih ho
    refine ⟨taken, hbreaks.mono fun tokens hread _ => ?_⟩
    obtain ⟨e, hderives⟩ := hread h
    exact ⟨e, .tighter h hderives⟩
  | @chain level left right s after op position rest o h operand chain ihoperand ihchain =>
    obtain ⟨token, hs, rfl, hop⟩ := infixOfLevel?_eq_some_iff_isInfix.mp h
    obtain ⟨⟨symbol, hkind, -⟩, -⟩ := id hop
    obtain ⟨tokens, (hrest : rest = _), hright⟩ := operand.takes hop.lt_length
    obtain ⟨taken, hbreaks⟩ := ihchain ho
    obtain ⟨-, -, hframes⟩ := operand.leaves
    refine ⟨(token :: tokens) ++ taken, hbreaks.after ?_ hframes ?_ ?_⟩
    · rw [hs, hrest, List.cons_append]
    · rw [openPositions_cons_operator hkind]
      exact hright.openPositions_between hframes
    · intro more hread before hbefore
      rw [← List.append_assoc]
      exact hread _ (.binary hop hbefore hright)
  | @chainStop level left s op position rest failure' h operand ih =>
    obtain ⟨token, hs, rfl, hop⟩ := infixOfLevel?_eq_some_iff_isInfix.mp h
    obtain ⟨⟨symbol, hkind, -⟩, -⟩ := id hop
    obtain ⟨taken, hbreaks⟩ := ih ho
    refine ⟨[token] ++ taken, hbreaks.after hs rfl (openPositions_cons_operator hkind _ []) ?_⟩
    intro more hread before hbefore
    obtain ⟨e, hright⟩ := hread hop.lt_length
    exact ⟨_, .binary hop hbefore hright⟩
  | unprefixed h operand ih =>
    obtain ⟨taken, hbreaks⟩ := ih ho
    exact ⟨taken, hbreaks.mono fun _ => id⟩
  | @prefixDeep s op position rest h hdeep =>
    cases ho
    obtain ⟨token, hs, rfl, hop⟩ := prefixAt?_eq_some_iff_isPrefix.mp h
    obtain ⟨next, e, hnext⟩ := exists_derives (Nat.le_refl InfixOperator.levels.length)
    exact ⟨[token], hs, ⟨[next], _, .unary hop hnext⟩, nofun⟩
  | @prefixStop s op position rest failure' h hdeep inner ih =>
    obtain ⟨token, hs, rfl, hop⟩ := prefixAt?_eq_some_iff_isPrefix.mp h
    obtain ⟨symbol, hkind, -⟩ := id hop
    obtain ⟨taken, hbreaks⟩ := ih ho
    refine ⟨[token] ++ taken, hbreaks.after hs rfl (openPositions_cons_operator hkind _ []) ?_⟩
    rintro more ⟨e, hderives⟩
    exact ⟨_, .unary hop hderives⟩
  | groupDeep h hdeep =>
    cases ho
    obtain ⟨next, e, hnext⟩ := exists_derives (Nat.le_refl InfixOperator.levels.length)
    exact ⟨[], rfl, ⟨[next], e, hnext⟩, nofun⟩
  | @group s after opened length rest e h hdeep inner ih =>
    obtain ⟨tokens, (hrest : rest = _), hderives⟩ := inner.takes (Nat.zero_le _)
    obtain ⟨-, -, hframes⟩ := inner.leaves
    refine ⟨⟨.openParen, opened, length⟩ :: tokens, Outcome.breaks_close ho hframes hdeep ?_
      (hderives.openPositions_between hframes) fun closing hclosing => .group rfl hclosing hderives⟩
    rw [h, hrest, List.cons_append]
  | @groupStop s opened length rest failure' h hdeep inner ih =>
    obtain ⟨taken, hbreaks⟩ := ih ho
    refine ⟨_, hbreaks.inside [⟨.openParen, opened, length⟩] h rfl ?_⟩
    intro more closing hread hclosing
    obtain ⟨e, hderives⟩ := hread (Nat.zero_le _)
    exact ⟨e, .group rfl hclosing hderives⟩
  | @callDeep s name position opened length length' rest h hdeep =>
    cases ho
    exact ⟨[⟨.name name, position, length⟩], h, ⟨[], _, .constant rfl⟩, nofun⟩
  | @callEmpty s name position opened length length' rest h hdeep hnext =>
    refine ⟨[⟨.name name, position, length⟩, ⟨.openParen, opened, length'⟩],
      Outcome.breaks_close ho rfl hdeep h rfl ?_⟩
    exact fun closing hclosing => @Derives.call _ _ closing _ [] [] rfl rfl hclosing .none nofun
  | @call s after name position opened length length' rest es h hdeep hnext inner ih =>
    obtain ⟨arguments, joined, (hrest : rest = _), hjoined, -, rfl, harguments⟩ := inner.takes
    obtain ⟨-, -, hframes⟩ := inner.leaves
    have hinside (stack : List Nat) : openPositions stack joined = stack :=
      hjoined.openPositions_eq (List.forall_mem_map.mpr fun argument hmem =>
        (harguments argument hmem).openPositions_eq) stack
    refine ⟨⟨.name name, position, length⟩ :: ⟨.openParen, opened, length'⟩ :: joined,
      Outcome.breaks_close ho hframes hdeep ?_ ?_ ?_⟩
    · rw [h, hrest, List.cons_append, List.cons_append]
    · show openPositions (opened :: s.openPositions) joined = after.openPositions
      rw [hinside, State.openPositions, State.openPositions, hframes]
      rfl
    · exact fun closing hclosing => .call rfl rfl hclosing hjoined harguments
  | @callStop s name position opened length length' rest failure' h hdeep hnext inner ih =>
    obtain ⟨taken, hbreaks⟩ := ih ho
    refine ⟨_, hbreaks.inside [⟨.name name, position, length⟩, ⟨.openParen, opened, length'⟩]
      h rfl ?_⟩
    rintro more closing ⟨arguments, -, hjoined, harguments⟩ hclosing
    exact ⟨_, .call rfl rfl hclosing hjoined harguments⟩
  | @unexpected s h =>
    cases ho
    obtain ⟨next, e, hnext⟩ := exists_derives (Nat.le_refl InfixOperator.levels.length)
    exact ⟨[], rfl, ⟨[next], e, hnext⟩, fun _ hfault =>
      absurd hfault (s.unexpected_fault_ne source nofun nofun fun _ => nofun)⟩
  | @argumentMissing s name h =>
    cases ho
    obtain ⟨token, e, hderives⟩ := exists_derives (Nat.zero_le InfixOperator.levels.length)
    refine ⟨[], rfl, ⟨[token], [([token], e)], List.cons_ne_nil _ _, .one _, ?_⟩, nofun⟩
    exact List.forall_mem_singleton.mpr hderives
  | argumentStop hcomma hclose first ih =>
    obtain ⟨taken, hbreaks⟩ := ih ho
    refine ⟨taken, hbreaks.mono fun tokens hread => ?_⟩
    obtain ⟨e, hderives⟩ := hread (Nat.zero_le _)
    exact ⟨[(tokens, e)], List.cons_ne_nil _ _, .one _, List.forall_mem_singleton.mpr hderives⟩
  | @argumentsStop s after name e rest failure' hcomma hclose first hnext others ihfirst ihothers =>
    obtain ⟨tokens, hrest, hfirst⟩ := first.takes (Nat.zero_le _)
    obtain ⟨position, length, hafter⟩ := afterComma?_eq_some hnext
    obtain ⟨taken, hbreaks⟩ := ihothers ho
    obtain ⟨-, -, hframes⟩ := first.leaves
    refine ⟨(tokens ++ [⟨.comma, position, length⟩]) ++ taken, hbreaks.after ?_ hframes ?_ ?_⟩
    · rw [hrest, hafter, List.append_assoc, List.singleton_append]
    · rw [openPositions_append, hfirst.openPositions_between hframes]
      rfl
    · rintro more ⟨arguments, hne, hjoined, harguments⟩
      obtain ⟨next, arguments, rfl⟩ := List.exists_cons_of_ne_nil hne
      refine ⟨(tokens, e) :: next :: arguments, List.cons_ne_nil _ _, ?_,
        List.forall_mem_cons.mpr ⟨hfirst, harguments⟩⟩
      rw [List.append_assoc, List.singleton_append]
      exact .more tokens rfl hjoined
  | chainEnd | prefixed | number | history | constant | argumentLast | argument => cases ho

theorem Run.halts {o : Outcome} (h : Run source phase s o) (ho : o = .stop failure) :
    ∃ taken, Halts phase s failure taken := by
  obtain ⟨taken, hbreaks⟩ := h.breaks ho
  obtain ⟨more, hread⟩ := hbreaks.goesOn
  exact ⟨taken, hbreaks.rest, hread.canGoOn,
    fun frames hfault => (hbreaks.leavesOpen frames hfault).positions⟩

end

/-! ## Where an error stands -/

/-- Whether an error stands at the token where it was noticed or, if parentheses are open at the end
of the text, at the innermost of them. -/
structure Stop.Points (source : Source) (failure : Stop) : Prop where
  unclosed : ∀ frames, failure.error.fault = .unclosed frames →
    (({ rest := failure.rest } : State).current source).kind = .endOfInput ∧
      frames.head?.map (·.position) = some failure.error.position
  other : (∀ frames, failure.error.fault ≠ .unclosed frames) →
    (∀ limit, failure.error.fault ≠ .tooDeep limit) →
    failure.error.position = (({ rest := failure.rest } : State).current source).position

theorem Outcome.points_close {source : Source} {s : State} {failure : Stop} {e : Expr}
    {opened : Nat} (hclose : Outcome.close source opened e s = .stop failure)
    (hne : s.frames ≠ []) : failure.Points source := by
  obtain ⟨tokens, depth, frames⟩ := s
  obtain ⟨frame, frames, rfl⟩ := List.exists_cons_of_ne_nil hne
  have hend (tokens : List Token)
      (h : (({ rest := tokens } : State).current source).kind = .endOfInput) :
      Stop.Points source ⟨⟨.unclosed (frame :: frames), frame.position⟩, tokens⟩ := by
    refine ⟨?_, fun hne => absurd rfl (hne _)⟩
    rintro _ ⟨⟩
    exact ⟨h, rfl⟩
  cases tokens with
  | nil =>
    cases hclose
    exact hend [] rfl
  | cons token tokens =>
    obtain ⟨kind, position, length⟩ := token
    cases kind with
    | closeParen => exact nomatch hclose
    | endOfInput =>
      cases hclose
      exact hend _ rfl
    | _ =>
      cases hclose
      exact ⟨nofun, fun _ _ => rfl⟩

theorem Run.points {source : Source} {phase : Phase} {s : State} {o : Outcome}
    (h : Run source phase s o) {failure : Stop} (ho : o = .stop failure) :
    failure.Points source := by
  induction h with
  | top _ _ ih | levelStop _ _ ih | chainStop _ _ ih | unprefixed _ _ ih | prefixStop _ _ _ ih
  | groupStop _ _ _ ih | callStop _ _ _ _ ih | argumentStop _ _ _ ih => exact ih ho
  | level _ _ _ _ ih | chain _ _ _ _ ih | argumentsStop _ _ _ _ _ _ ih => exact ih ho
  | prefixDeep h hdeep | groupDeep h hdeep | callDeep h hdeep =>
    cases ho
    exact ⟨nofun, fun _ hne => absurd rfl (hne _)⟩
  | group h hdeep inner ih =>
    obtain ⟨-, -, hframes⟩ := inner.leaves
    exact Outcome.points_close ho (State.frames_ne_nil_of_inside hframes)
  | call h hdeep hnext inner ih =>
    obtain ⟨-, -, hframes⟩ := inner.leaves
    exact Outcome.points_close ho (State.frames_ne_nil_of_inside hframes)
  | callEmpty h hdeep hnext => exact Outcome.points_close ho (List.cons_ne_nil _ _)
  | @unexpected s h =>
    cases ho
    exact ⟨fun _ hfault => absurd hfault (s.unexpected_fault_ne source nofun nofun fun _ => nofun),
      fun _ _ => rfl⟩
  | @argumentMissing s name h =>
    cases ho
    exact ⟨nofun, fun _ _ => rfl⟩
  | chainEnd | prefixed | number | history | constant | argumentLast | argument => cases ho

/-! ## The first fault -/

/-- A run that the limit does not end reads the sentence that starts with what it took and with the
next token, if there is one. -/
theorem Run.withRest_eq {source : Source} {s : State} {o : Outcome}
    {taken more sentence : List Token} {last : Token} {e : Expr}
    (h : Run source (.level 0) s o) (hshallow : ¬ o.IsTooDeep)
    (hrest : s.rest = taken ++ o.rest) (hhead : more.head? = o.rest.head?)
    (hlast : last.kind = .endOfInput) (hsentence : sentence ++ [last] = taken ++ more)
    (hderives : Derives 0 sentence e) :
    o.withRest more = .expr e { s with rest := [last] } := by
  obtain ⟨taken', htaken, hrun⟩ := h.lookahead hshallow
  obtain rfl : taken' = taken := List.append_cancel_right (htaken.symm.trans hrest)
  -- a limit under which both the run and the sentence are read
  obtain ⟨limit, hsource, hlength⟩ :
      ∃ limit, source.limit ≤ limit ∧ (s.depth + sentence.length : Nat) ≤ limit :=
    ⟨max source.limit (s.depth + sentence.length : Nat), Int.le_max_left _ _, Int.le_max_right _ _⟩
  have hoperator (symbol : OperatorSymbol) : last.kind ≠ .operator symbol := by
    rw [hlast]
    nofun
  have hreads : Reads { source with limit := limit } 0 sentence e := hderives.reads
  have hsame := hreads.expr (s := { s with rest := sentence ++ [last] }) rfl
    (.of_kind (by rw [hlast]; nofun) hoperator _ _) (infixOfLevel?_of_kind_ne hoperator _ _) hlength
  rw [hsentence] at hsame
  exact (hrun limit more hsource hhead).run_eq.symm.trans hsame.run_eq

/-- No sentence starts with what a run took and the next token, unless the run took a sentence and
came to the end. -/
theorem Run.not_viable {source : Source} {tokens before after : List Token} {last current : Token}
    {o : Outcome} (h : Run source (.level 0) { rest := tokens ++ [last] } o)
    (hshallow : ¬ o.IsTooDeep) (hlast : last.kind = .endOfInput)
    (hrest : tokens ++ [last] = before ++ o.rest) (ho : o.rest = current :: after)
    (hmore : ∀ e s, o = .expr e s → current.kind ≠ .endOfInput) :
    (current.kind ≠ .endOfInput → ¬ Viable 0 (before ++ [current])) ∧
      (before = tokens → current.kind = .endOfInput → ¬ ∃ e, Derives 0 before e) := by
  constructor
  · rintro - ⟨more, e, hderives⟩
    have hsentence : before ++ [current] ++ more ++ [last] =
        before ++ (current :: (more ++ [last])) := by
      simp only [List.append_assoc, List.cons_append, List.nil_append]
    have hsame := h.withRest_eq hshallow hrest (by rw [ho]; rfl) hlast hsentence hderives
    cases o with
    | stop | arguments => exact nomatch hsame
    | expr e' s =>
      have hstates := (Outcome.expr.inj hsame).2
      have htokens : current :: (more ++ [last]) = [last] := congrArg State.rest hstates
      exact absurd (List.cons.inj htokens).2 (List.append_ne_nil_of_right_ne_nil _ nofun)
  · rintro rfl hend ⟨e, hderives⟩
    have hsame := h.withRest_eq hshallow hrest rfl hlast hrest hderives
    cases o with
    | stop | arguments => exact nomatch hsame
    | expr e' s => exact hmore e' s rfl hend

/-- What can go on leaves the end of the text, and leaves only that if the end comes next. -/
theorem Viable.exists_next {tokens before rest : List Token} {last : Token} (h : Viable 0 before)
    (htokens : ∀ token ∈ tokens, token.kind ≠ .endOfInput) (hlast : last.kind = .endOfInput)
    (hrest : tokens ++ [last] = before ++ rest) :
    ∃ current after, rest = current :: after ∧ (current.kind = .endOfInput → before = tokens) := by
  cases rest with
  | nil =>
    rw [List.append_nil] at hrest
    have hmem : last ∈ before := hrest ▸ List.mem_append_right _ List.mem_cons_self
    exact absurd hlast (h.kind_ne_endOfInput last hmem)
  | cons current after =>
    refine ⟨current, after, rfl, fun hend => ?_⟩
    exact @eq_of_append_end tokens before (current :: after) last ⟨[], 0⟩ 0 [] htokens
      h.kind_ne_endOfInput hlast hrest hend

/-- The three ways in which tokens do not form an expression: there are none, a run stops, or more
follows an expression. -/
theorem parseAll_eq_error {source : Source} {tokens : List Token} {failure : Stop}
    (h : parseAll source tokens = .error failure) :
    ((({ rest := tokens } : State).current source).kind = .endOfInput ∧
      failure = ⟨⟨.emptyExpression, 0⟩, tokens⟩) ∨
    Run source (.level 0) { rest := tokens } (.stop failure) ∨
    ∃ e after, Run source (.level 0) { rest := tokens } (.expr e after) ∧
      after.finish source e = .error failure := by
  by_cases hend : (({ rest := tokens } : State).current source).kind = .endOfInput
  · simp only [parseAll, hend] at h
    cases h
    exact .inl ⟨hend, rfl⟩
  · right
    rcases exists_run_level source 0 { rest := tokens } with ⟨e, after, hrun⟩ | ⟨failure', hrun⟩
    · exact .inr ⟨e, after, hrun, (parseAll_of_expr hend hrun).symm.trans h⟩
    · cases (parseAll_of_stop hend hrun).symm.trans h
      exact .inl hrun

end Expr

/-- Whether an error stands where it should, if the tokens before the one at which it was noticed
are these. -/
def GrammarError.IsPlaced (error : GrammarError) (before : List Token) (current : Token) : Prop :=
  match error.fault with
  | .emptyExpression => before = [] ∧ current.kind = .endOfInput ∧ error.position = 0
  | .unclosed frames => current.kind = .endOfInput ∧
      frames.map (·.position) = Expr.openPositions [] before ∧
      (Expr.openPositions [] before).head? = some error.position
  | .noOpenParen => False
  | _ => error.position = current.position

namespace Expr

theorem Stop.Points.isPlaced {source : Source} {failure : Stop} {before after : List Token}
    {current : Token} (h : failure.Points source) (hrest : failure.rest = current :: after)
    (hshallow : ∀ limit, failure.error.fault ≠ .tooDeep limit)
    (hopen : failure.error.fault ≠ .noOpenParen) (hempty : failure.error.fault ≠ .emptyExpression)
    (hunclosed : ∀ frames, failure.error.fault = .unclosed frames →
      frames.map (·.position) = openPositions [] before) :
    failure.error.IsPlaced before current := by
  obtain ⟨⟨fault, position⟩, rest⟩ := failure
  cases hrest
  cases fault with
  | emptyExpression => exact absurd rfl hempty
  | noOpenParen => exact absurd rfl hopen
  | unclosed frames =>
    obtain ⟨hend, hhead⟩ := h.unclosed frames rfl
    have hframes := hunclosed frames rfl
    refine ⟨hend, hframes, ?_⟩
    rw [← hframes, List.head?_map]
    exact hhead
  | _ => exact h.other nofun hshallow

/-- **The parser blames the first token that is wrong.**  Every error of the grammar that is not
about the limit of nesting is noticed at a token such that a sentence starts with the tokens before
it and none with these and it; at the end of the text the tokens before it are no sentence.  The
error stands at that token, but for an empty text and for parentheses that are open at the end. -/
theorem ofTokens?_blames_first_fault (tokens : List Token) (last : Token) (text : List Char)
    (limit : Int) (hlast : last.kind = .endOfInput)
    (htokens : ∀ token ∈ tokens, token.kind ≠ .endOfInput) (error : GrammarError)
    (herror : ofTokens? (tokens ++ [last]) text limit = .error error)
    (hshallow : ∀ limit, error.fault ≠ .tooDeep limit) :
    ∃ before current after, tokens ++ [last] = before ++ current :: after ∧
      parseAll ⟨text, limit⟩ (tokens ++ [last]) = .error ⟨error, current :: after⟩ ∧
      Viable 0 before ∧
      (current.kind ≠ .endOfInput → ¬ Viable 0 (before ++ [current])) ∧
      (current.kind = .endOfInput → before = tokens ∧ ¬ ∃ e, Derives 0 before e) ∧
      error.IsPlaced before current := by
  obtain ⟨failure, hparse, rfl⟩ : ∃ failure : Stop,
      parseAll ⟨text, limit⟩ (tokens ++ [last]) = .error failure ∧ failure.error = error := by
    unfold ofTokens? at herror
    split at herror
    · exact nomatch herror
    · rename_i failure hfailure
      exact ⟨failure, hfailure, Except.error.inj herror⟩
  rcases parseAll_eq_error hparse with ⟨hend, rfl⟩ | hrun | ⟨e, s, hrun, hfinish⟩
  · -- there are no tokens
    have hnil : [] = tokens := eq_of_append_end htokens (fun _ h => absurd h List.not_mem_nil) hlast
      (List.nil_append _).symm hend
    subst hnil
    refine ⟨[], last, [], rfl, hparse, viable_nil (Nat.zero_le _), fun hne => absurd hlast hne,
      fun _ => ⟨rfl, ?_⟩, rfl, hlast, rfl⟩
    rintro ⟨e, hderives⟩
    obtain ⟨token, more, hnil, -⟩ := hderives.exists_head
    exact nomatch hnil
  · -- a run stops
    obtain ⟨before, hhalts⟩ := hrun.halts rfl
    have hviable : Viable 0 before := hhalts.canGoOn (Nat.zero_le _)
    obtain ⟨current, after, hnext, hall⟩ := hviable.exists_next htokens hlast hhalts.rest
    obtain ⟨hwrong, hend⟩ := hrun.not_viable (fun ⟨limit, hdeep⟩ => hshallow limit hdeep) hlast
      hhalts.rest hnext nofun
    obtain ⟨hopen, hempty, -⟩ := hrun.blames
    have hplaced : failure.error.IsPlaced before current :=
      (hrun.points rfl).isPlaced hnext hshallow hopen hempty hhalts.unclosed
    exact ⟨before, current, after, hnext ▸ hhalts.rest, hnext ▸ hparse, hviable, hwrong,
      fun hkind => ⟨hall hkind, hend (hall hkind) hkind⟩, hplaced⟩
  · -- more follows an expression
    obtain ⟨before, hrest, hderives⟩ := hrun.takes (Nat.zero_le _)
    obtain ⟨current, after, hnext, -⟩ := hderives.viable.exists_next htokens hlast hrest
    rcases s.finish_cases ⟨text, limit⟩ e with ⟨_, hfinish'⟩ | ⟨hkind, fault, hfault, hfinish'⟩
    · exact nomatch hfinish.symm.trans hfinish'
    · cases hfinish.symm.trans hfinish'
      have hcurrent : s.current ⟨text, limit⟩ = current := by
        rw [State.current, hnext]
        rfl
      rw [hcurrent] at hkind
      obtain ⟨hwrong, -⟩ := hrun.not_viable id hlast hrest hnext fun _ _ _ => hkind
      refine ⟨before, current, after, hnext ▸ hrest, hnext ▸ hparse, hderives.viable, hwrong,
        fun hend => absurd hend hkind, ?_⟩
      rw [hcurrent]
      rcases hfault with rfl | rfl
      · rfl
      · rfl

/-- In `max(1, )` the closing parenthesis is to blame: an argument could stand before it. -/
theorem ofTokens?_blames_closeParen :
    let value : Value := ⟨.integer (.ofInt FixedInt.literalType 1), none⟩
    let before : List Token := [⟨.name "max", 0, 3⟩, ⟨.openParen, 3, 1⟩, ⟨.number value, 4, 1⟩,
      ⟨.comma, 5, 1⟩]
    let closing : Token := ⟨.closeParen, 7, 1⟩
    let error : GrammarError := ⟨.emptyArgument "max" .closeParen, 7⟩
    ofTokens? (before ++ [closing] ++ [⟨.endOfInput, 8, 0⟩]) "max(1, )".toList 50 = .error error ∧
      (∀ token ∈ before ++ [closing], token.kind ≠ .endOfInput) ∧
      (∀ limit, error.fault ≠ .tooDeep limit) ∧
      Viable 0 before ∧ ¬ Viable 0 (before ++ [closing]) ∧ error.position = closing.position := by
  intro value before closing error
  have hparse : parseAll ⟨"max(1, )".toList, 50⟩ (before ++ [closing] ++ [⟨.endOfInput, 8, 0⟩]) =
      .error ⟨error, [closing, ⟨.endOfInput, 8, 0⟩]⟩ := by with_unfolding_all rfl
  have herror : ofTokens? (before ++ [closing] ++ [⟨.endOfInput, 8, 0⟩]) "max(1, )".toList 50 =
      .error error := by
    rw [ofTokens?, hparse]
  have htokens : ∀ token ∈ before ++ [closing], token.kind ≠ .endOfInput := by
    simp [before, closing]
  have hshallow : ∀ limit, error.fault ≠ .tooDeep limit := by
    rintro limit ⟨⟩
  obtain ⟨before', current, after, hrest, hparse', hviable, hwrong, -, hplaced⟩ :=
    ofTokens?_blames_first_fault (before ++ [closing]) ⟨.endOfInput, 8, 0⟩ "max(1, )".toList 50 rfl
      htokens error herror hshallow
  have hleft := congrArg Stop.rest (Except.error.inj (hparse.symm.trans hparse'))
  obtain ⟨rfl, rfl⟩ := List.cons.inj hleft
  rw [List.append_assoc] at hrest
  obtain rfl := List.append_cancel_right hrest
  exact ⟨herror, htokens, hshallow, hviable, hwrong (by decide), hplaced⟩

end Expr

end TypedCalc
