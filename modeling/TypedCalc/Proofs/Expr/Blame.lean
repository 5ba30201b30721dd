import TypedCalc.Proofs.Expr.Run

/-!
# What a run of the parser leaves and blames

* `Run.leaves`: a result leaves the end of the tokens, and no group, call or prefix operator more or
  less is open than before.
* `Run.blames`: an error is never a defect of the parser, and it is at a token, at an open
  parenthesis or at the end of the text.
-/

namespace TypedCalc.Expr

/-! ## What a run leaves -/

/-- A result leaves the end of the tokens, and nothing new is open. -/
def Outcome.Leaves (s : State) : Outcome → Prop
  | .expr _ after | .arguments _ after =>
    after.rest <:+ s.rest ∧ after.depth = s.depth ∧ after.frames = s.frames
  | .stop _ => True

theorem infixOfLevel?_eq_some_iff {level : Nat} {tokens rest : List Token} {op : InfixOperator}
    {position : Nat} :
    infixOfLevel? level tokens = some (op, position, rest) ↔
      ∃ symbol length, tokens = ⟨.operator symbol, position, length⟩ :: rest ∧
        symbol.infix? = some op ∧ op.level = level := by
  constructor
  · intro h
    unfold infixOfLevel? at h
    split at h
    · rename_i symbol position' length rest'
      split at h
      · rename_i op' hop
        split at h
        · rename_i hlevel
          cases h
          exact ⟨symbol, length, rfl, hop, hlevel⟩
        · exact nomatch h
      · exact nomatch h
    · exact nomatch h
  · rintro ⟨symbol, length, rfl, hop, rfl⟩
    simp only [infixOfLevel?, hop, if_true]

theorem prefixAt?_eq_some_iff {tokens rest : List Token} {op : PrefixOperator} {position : Nat} :
    prefixAt? tokens = some (op, position, rest) ↔
      ∃ symbol length, tokens = ⟨.operator symbol, position, length⟩ :: rest ∧
        symbol.prefix? = some op := by
  constructor
  · intro h
    unfold prefixAt? at h
    split at h
    · rename_i symbol position' length rest'
      obtain ⟨op', hop, heq⟩ := Option.map_eq_some_iff.mp h
      cases heq
      exact ⟨symbol, length, rfl, hop⟩
    · exact nomatch h
  · rintro ⟨symbol, length, rfl, hop⟩
    simp only [prefixAt?, hop, Option.map_some]

theorem suffix_of_infixOfLevel? {level : Nat} {tokens rest : List Token} {op : InfixOperator}
    {position : Nat} (h : infixOfLevel? level tokens = some (op, position, rest)) :
    rest <:+ tokens := by
  obtain ⟨_, _, rfl, _⟩ := infixOfLevel?_eq_some_iff.mp h
  exact List.suffix_cons _ _

theorem suffix_of_prefixAt? {tokens rest : List Token} {op : PrefixOperator} {position : Nat}
    (h : prefixAt? tokens = some (op, position, rest)) : rest <:+ tokens := by
  obtain ⟨_, _, rfl, _⟩ := prefixAt?_eq_some_iff.mp h
  exact List.suffix_cons _ _

theorem suffix_of_afterComma? {tokens rest : List Token} (h : afterComma? tokens = some rest) :
    rest <:+ tokens := by
  obtain ⟨_, _, rfl⟩ := afterComma?_eq_some h
  exact List.suffix_cons _ _

/-- A group or a call is closed, or the run ends: without a frame that could be closed, at the end
of the text, or at a token that should have been a closing parenthesis. -/
theorem Outcome.close_cases (source : Source) (opened : Nat) (e : Expr) (s : State) :
    (∃ position length rest frame frames, s.rest = ⟨.closeParen, position, length⟩ :: rest ∧
      s.frames = frame :: frames ∧
      Outcome.close source opened e s = .expr e ⟨rest, s.depth - 1, frames⟩) ∨
    ∃ fault position, Outcome.close source opened e s = .stop ⟨⟨fault, position⟩, s.rest⟩ ∧
      ((fault = .noOpenParen ∧ s.frames = []) ∨
       (fault = .unclosed s.frames ∧ position = (s.frames.head?.map (·.position)).getD opened) ∨
       (∃ found, fault = .missingClose found opened ∧ position = (s.current source).position)) := by
  obtain ⟨rest, depth, frames⟩ := s
  cases rest with
  | nil => exact .inr ⟨_, _, rfl, .inr (.inl ⟨rfl, rfl⟩)⟩
  | cons token rest =>
    obtain ⟨kind, position, length⟩ := token
    cases kind with
    | closeParen =>
      cases frames with
      | nil => exact .inr ⟨_, _, rfl, .inl ⟨rfl, rfl⟩⟩
      | cons frame frames => exact .inl ⟨position, length, rest, frame, frames, rfl, rfl, rfl⟩
    | endOfInput => exact .inr ⟨_, _, rfl, .inr (.inl ⟨rfl, rfl⟩)⟩
    | _ => exact .inr ⟨_, _, rfl, .inr (.inr ⟨_, rfl, rfl⟩)⟩

/-- The outcome after the parentheses of a group or a call leaves what was there before them. -/
theorem Outcome.leaves_close {source : Source} {s after : State} {rest : List Token}
    {opened : Nat} {opening : Opening} (hrest : rest <:+ s.rest) (e : Expr)
    (h : (Outcome.expr e after).Leaves (s.inside source rest opened opening)) :
    (Outcome.close source opened e after).Leaves s := by
  obtain ⟨hsuffix, hdepth, hframes⟩ := h
  rcases Outcome.close_cases source opened e after with
    ⟨_, _, rest', frame, frames, hafter, hframes', hclose⟩ | ⟨_, _, hclose, _⟩
  · rw [hclose]
    rw [hframes', State.inside, List.cons.injEq] at hframes
    rw [hafter] at hsuffix
    refine ⟨((List.suffix_cons _ _).trans hsuffix).trans hrest, ?_, hframes.2⟩
    rw [hdepth]
    rfl
  · rw [hclose]
    trivial

theorem Outcome.Leaves.trans {s middle : State} {o : Outcome} (hrest : middle.rest <:+ s.rest)
    (hdepth : middle.depth = s.depth) (hframes : middle.frames = s.frames)
    (h : o.Leaves middle) : o.Leaves s := by
  cases o with
  | expr e after | arguments es after =>
    exact ⟨h.1.trans hrest, h.2.1.trans hdepth, h.2.2.trans hframes⟩
  | stop failure => trivial

/-- **A result leaves the end of the tokens**, the depth and the open parentheses as they were. -/
theorem Run.leaves {source : Source} {phase : Phase} {s : State} {o : Outcome}
    (h : Run source phase s o) : o.Leaves s := by
  induction h with
  | top h inner ih => exact ih
  | level h operand chain ihoperand ihchain =>
    obtain ⟨hrest, hdepth, hframes⟩ := ihoperand
    exact .trans hrest hdepth hframes ihchain
  | chainEnd h => exact ⟨List.suffix_rfl, rfl, rfl⟩
  | chain h operand chain ihoperand ihchain =>
    obtain ⟨hrest, hdepth, hframes⟩ := ihoperand
    exact .trans (hrest.trans (suffix_of_infixOfLevel? h)) hdepth hframes ihchain
  | unprefixed h operand ih => exact ih
  | prefixed h hdeep inner ih =>
    obtain ⟨hrest, hdepth, hframes⟩ := ih
    refine ⟨hrest.trans (suffix_of_prefixAt? h), ?_, hframes⟩
    rw [hdepth]
    rfl
  | number h | history h | constant h _ => exact ⟨h ▸ List.suffix_cons _ _, rfl, rfl⟩
  | group h hdeep inner ih => exact Outcome.leaves_close (h ▸ List.suffix_cons _ _) _ ih
  | callEmpty h hdeep hnext =>
    refine Outcome.leaves_close ?_ _ ⟨List.suffix_rfl, rfl, rfl⟩
    exact h ▸ (List.suffix_cons _ _).trans (List.suffix_cons _ _)
  | call h hdeep hnext inner ih =>
    refine Outcome.leaves_close ?_ _ ih
    exact h ▸ (List.suffix_cons _ _).trans (List.suffix_cons _ _)
  | argumentLast hcomma hclose first hnext ih => exact ih
  | argument hcomma hclose first hnext others ihfirst ihothers =>
    obtain ⟨hrest, hdepth, hframes⟩ := ihfirst
    obtain ⟨hrest', hdepth', hframes'⟩ := ihothers
    exact ⟨(hrest'.trans (suffix_of_afterComma? hnext)).trans hrest, hdepth'.trans hdepth,
      hframes'.trans hframes⟩
  | levelStop | chainStop | prefixDeep | prefixStop | groupDeep | groupStop | callDeep | callStop
  | unexpected | argumentMissing | argumentStop | argumentsStop => trivial

/-! ## Where a run stops -/

/-- Whether a position is that of a token still to be read, of an open parenthesis or of the end of
the text. -/
def State.Marks (source : Source) (s : State) (position : Nat) : Prop :=
  (∃ token ∈ s.rest, token.position = position) ∨
    (∃ frame ∈ s.frames, frame.position = position) ∨ position = source.text.length

theorem State.Marks.mono {source : Source} {s middle : State} {position : Nat}
    (hrest : middle.rest <:+ s.rest) (hframes : middle.frames = s.frames)
    (h : middle.Marks source position) : s.Marks source position := by
  rcases h with ⟨token, hmem, hposition⟩ | ⟨frame, hmem, hposition⟩ | h
  · exact .inl ⟨token, hrest.subset hmem, hposition⟩
  · exact .inr (.inl ⟨frame, hframes ▸ hmem, hposition⟩)
  · exact .inr (.inr h)

theorem State.Marks.inside {source : Source} {s : State} {rest : List Token} {opened position : Nat}
    {opening : Opening} (hrest : rest <:+ s.rest) (hopened : s.Marks source opened)
    (h : (s.inside source rest opened opening).Marks source position) :
    s.Marks source position := by
  rcases h with ⟨token, hmem, hposition⟩ | ⟨frame, hmem, hposition⟩ | h
  · exact .inl ⟨token, hrest.subset hmem, hposition⟩
  · rcases List.mem_cons.mp hmem with rfl | hmem
    · exact hposition ▸ hopened
    · exact .inr (.inl ⟨frame, hmem, hposition⟩)
  · exact .inr (.inr h)

theorem State.marks_current (source : Source) (s : State) :
    s.Marks source (s.current source).position := by
  unfold State.current
  cases hrest : s.rest with
  | nil => exact .inr (.inr rfl)
  | cons token rest => exact .inl ⟨token, hrest ▸ List.mem_cons_self, rfl⟩

/-- A token that no operand starts with makes one of three faults. -/
theorem State.unexpected_fault_ne (source : Source) (s : State) {fault : GrammarFault}
    (hend : fault ≠ .unexpectedEnd) (hclose : fault ≠ .unexpectedClose)
    (htoken : ∀ found, fault ≠ .unexpectedToken found) :
    (s.unexpected source).error.fault ≠ fault := by
  unfold State.unexpected
  dsimp only
  split
  · exact hend.symm
  · exact hclose.symm
  · exact (htoken _).symm

/-- An error of a run that started in a state: no defect of the parser and not about an empty
text, at a position that the state marks. -/
def Outcome.Blames (source : Source) (s : State) : Outcome → Prop
  | .stop failure => failure.error.fault ≠ .noOpenParen ∧ failure.error.fault ≠ .emptyExpression ∧
      s.Marks source failure.error.position
  | _ => True

theorem Outcome.Blames.mono {source : Source} {s middle : State} {o : Outcome}
    (h : o.Blames source middle)
    (hmarks : ∀ {position}, middle.Marks source position → s.Marks source position) :
    o.Blames source s := by
  cases o with
  | stop failure => exact ⟨h.1, h.2.1, hmarks h.2.2⟩
  | expr | arguments => trivial

/-- A group or a call that is not closed is blamed on one of its tokens. -/
theorem Outcome.blames_close {source : Source} {s after : State} {rest : List Token}
    {opened : Nat} {opening : Opening} (hrest : rest <:+ s.rest)
    (hopened : s.Marks source opened) (e : Expr)
    (h : (Outcome.expr e after).Leaves (s.inside source rest opened opening)) :
    (Outcome.close source opened e after).Blames source s := by
  obtain ⟨hsuffix, -, hframes⟩ := h
  rcases Outcome.close_cases source opened e after with
    ⟨_, _, _, _, _, _, _, hclose⟩ | ⟨fault, position, hclose, hfault⟩
  · rw [hclose]
    trivial
  · rw [hclose]
    have hinside {position : Nat} (hmarks : after.Marks source position) :
        s.Marks source position := .inside hrest hopened (hmarks.mono hsuffix hframes)
    rcases hfault with ⟨-, hempty⟩ | ⟨rfl, hposition⟩ | ⟨found, rfl, hposition⟩
    · rw [hframes] at hempty
      exact nomatch hempty
    · refine ⟨nofun, nofun, hinside (.inr (.inl ?_))⟩
      rw [hframes] at hposition ⊢
      exact ⟨_, List.mem_cons_self, hposition.symm⟩
    · refine ⟨nofun, nofun, hinside ?_⟩
      rw [hposition]
      exact after.marks_current source

/-- **A run that stops blames a token, an open parenthesis or the end of the text.** -/
theorem Run.blames {source : Source} {phase : Phase} {s : State} {o : Outcome}
    (h : Run source phase s o) : o.Blames source s := by
  induction h with
  | top h inner ih => exact ih
  | level h operand chain ihoperand ihchain =>
    obtain ⟨hrest, -, hframes⟩ := operand.leaves
    exact ihchain.mono (.mono hrest hframes)
  | levelStop h operand ih => exact ih
  | chain h operand chain ihoperand ihchain =>
    obtain ⟨hrest, -, hframes⟩ := operand.leaves
    exact ihchain.mono (.mono (hrest.trans (suffix_of_infixOfLevel? h)) hframes)
  | chainStop h operand ih => exact ih.mono (.mono (suffix_of_infixOfLevel? h) rfl)
  | unprefixed h operand ih => exact ih
  | prefixDeep h hdeep =>
    obtain ⟨symbol, length, hrest, _⟩ := prefixAt?_eq_some_iff.mp h
    exact ⟨nofun, nofun, .inl ⟨_, hrest ▸ List.mem_cons_self, rfl⟩⟩
  | prefixStop h hdeep inner ih => exact ih.mono (.mono (suffix_of_prefixAt? h) rfl)
  | groupDeep h hdeep => exact ⟨nofun, nofun, .inl ⟨_, h ▸ List.mem_cons_self, rfl⟩⟩
  | group h hdeep inner ih =>
    exact Outcome.blames_close (h ▸ List.suffix_cons _ _) (.inl ⟨_, h ▸ List.mem_cons_self, rfl⟩) _
      inner.leaves
  | groupStop h hdeep inner ih =>
    exact ih.mono (.inside (h ▸ List.suffix_cons _ _) (.inl ⟨_, h ▸ List.mem_cons_self, rfl⟩))
  | callDeep h hdeep =>
    exact ⟨nofun, nofun, .inl ⟨_, h ▸ List.mem_cons_of_mem _ List.mem_cons_self, rfl⟩⟩
  | callEmpty h hdeep hnext =>
    exact Outcome.blames_close (h ▸ (List.suffix_cons _ _).trans (List.suffix_cons _ _))
      (.inl ⟨_, h ▸ List.mem_cons_of_mem _ List.mem_cons_self, rfl⟩) _ ⟨List.suffix_rfl, rfl, rfl⟩
  | call h hdeep hnext inner ih =>
    exact Outcome.blames_close (h ▸ (List.suffix_cons _ _).trans (List.suffix_cons _ _))
      (.inl ⟨_, h ▸ List.mem_cons_of_mem _ List.mem_cons_self, rfl⟩) _ inner.leaves
  | callStop h hdeep hnext inner ih =>
    exact ih.mono (.inside (h ▸ (List.suffix_cons _ _).trans (List.suffix_cons _ _))
      (.inl ⟨_, h ▸ List.mem_cons_of_mem _ List.mem_cons_self, rfl⟩))
  | @unexpected s h =>
    exact ⟨s.unexpected_fault_ne source nofun nofun fun _ => nofun,
      s.unexpected_fault_ne source nofun nofun fun _ => nofun, s.marks_current source⟩
  | @argumentMissing s name h => exact ⟨nofun, nofun, s.marks_current source⟩
  | argumentStop hcomma hclose first ih => exact ih
  | argumentsStop hcomma hclose first hnext others ihfirst ihothers =>
    obtain ⟨hrest, -, hframes⟩ := first.leaves
    exact ihothers.mono (.mono ((suffix_of_afterComma? hnext).trans hrest) hframes)
  | chainEnd | prefixed | number | history | constant | argumentLast | argument => trivial

/-! ## Whole expressions -/

section

variable {tokens : List Token} {text : List Char} {limit : Int}

theorem ofTokens?_of_empty
    (h : (({ rest := tokens } : State).current ⟨text, limit⟩).kind = .endOfInput) :
    ofTokens? tokens text limit = .error ⟨.emptyExpression, 0⟩ := by
  simp only [ofTokens?, parseAll, h]
  rfl

theorem parseAll_of_expr {source : Source}
    (h : (({ rest := tokens } : State).current source).kind ≠ .endOfInput) {e : Expr}
    {after : State} (hrun : Run source (.level 0) { rest := tokens } (.expr e after)) :
    parseAll source tokens = after.finish source e :=
  parseAll_of_runAll_expr h hrun.run_eq

theorem parseAll_of_stop {source : Source}
    (h : (({ rest := tokens } : State).current source).kind ≠ .endOfInput) {failure : Stop}
    (hrun : Run source (.level 0) { rest := tokens } (.stop failure)) :
    parseAll source tokens = .error failure :=
  parseAll_of_runAll_stop h hrun.run_eq

/-- What is left after the expression decides about a token list with an expression in front. -/
theorem ofTokens?_of_expr
    (h : (({ rest := tokens } : State).current ⟨text, limit⟩).kind ≠ .endOfInput) {e : Expr}
    {after : State} (hrun : Run ⟨text, limit⟩ (.level 0) { rest := tokens } (.expr e after)) :
    ofTokens? tokens text limit =
      match after.finish ⟨text, limit⟩ e with
      | .ok (e, _) => .ok e
      | .error failure => .error failure.error := by
  have hresult : ofTokens? tokens text limit = match parseAll ⟨text, limit⟩ tokens with
      | .ok (e, _) => .ok e
      | .error failure => .error failure.error := rfl
  rw [hresult, parseAll_of_expr h hrun]

theorem ofTokens?_of_stop
    (h : (({ rest := tokens } : State).current ⟨text, limit⟩).kind ≠ .endOfInput) {failure : Stop}
    (hrun : Run ⟨text, limit⟩ (.level 0) { rest := tokens } (.stop failure)) :
    ofTokens? tokens text limit = .error failure.error := by
  rw [ofTokens?, parseAll_of_stop h hrun]

/-- An expression is complete if nothing follows it; otherwise what follows is to blame. -/
theorem State.finish_cases (source : Source) (s : State) (e : Expr) :
    ((s.current source).kind = .endOfInput ∧ s.finish source e = .ok (e, s)) ∨
    ((s.current source).kind ≠ .endOfInput ∧ ∃ fault,
      (fault = .unmatchedClose ∨ fault = .trailingToken (s.current source).kind) ∧
      s.finish source e = .error ⟨⟨fault, (s.current source).position⟩, s.rest⟩) := by
  unfold State.finish
  cases h : (s.current source).kind with
  | endOfInput => exact .inl ⟨rfl, by simp only [h]⟩
  | closeParen => exact .inr ⟨nofun, _, .inl rfl, by simp only [h]; rfl⟩
  | _ => exact .inr ⟨nofun, _, .inr rfl, by simp only [h]; rfl⟩

/-- A level gives an expression or stops. -/
theorem exists_run_level (source : Source) (level : Nat) (s : State) :
    (∃ e after, Run source (.level level) s (.expr e after)) ∨
      ∃ failure, Run source (.level level) s (.stop failure) := by
  have hrun := run_spec source (.level level) s
  cases houtcome : run source (.level level) s with
  | expr e after => exact .inl ⟨e, after, houtcome ▸ hrun⟩
  | arguments es after => exact absurd houtcome (Outcome.ofExpr_ne_arguments _ _ _)
  | stop failure => exact .inr ⟨failure, houtcome ▸ hrun⟩

/-- A token list is an expression if a run from its start takes all of it. -/
theorem ofTokens?_eq_ok_iff {e : Expr} :
    ofTokens? tokens text limit = .ok e ↔
      (({ rest := tokens } : State).current ⟨text, limit⟩).kind ≠ .endOfInput ∧
        ∃ after, Run ⟨text, limit⟩ (.level 0) { rest := tokens } (.expr e after) ∧
          (after.current ⟨text, limit⟩).kind = .endOfInput := by
  constructor
  · intro h
    by_cases hempty : (({ rest := tokens } : State).current ⟨text, limit⟩).kind = .endOfInput
    · exact nomatch (ofTokens?_of_empty hempty).symm.trans h
    · refine ⟨hempty, ?_⟩
      rcases exists_run_level ⟨text, limit⟩ 0 { rest := tokens } with
        ⟨e', after, hrun⟩ | ⟨failure, hrun⟩
      · rw [ofTokens?_of_expr hempty hrun] at h
        rcases after.finish_cases ⟨text, limit⟩ e' with ⟨hend, hfinish⟩ | ⟨_, _, _, hfinish⟩
        · rw [hfinish] at h
          cases h
          exact ⟨after, hrun, hend⟩
        · rw [hfinish] at h
          exact nomatch h
      · exact nomatch (ofTokens?_of_stop hempty hrun).symm.trans h
  · rintro ⟨hne, after, hrun, hend⟩
    rw [ofTokens?_of_expr hne hrun]
    rcases after.finish_cases ⟨text, limit⟩ e with ⟨_, hfinish⟩ | ⟨hne', _⟩
    · rw [hfinish]
    · exact absurd hend hne'

/-- **An error about a token list** is about there being no tokens, and then at position zero, or
blames a token or the end of the text. -/
theorem blames_of_ofTokens?_eq_error {error : GrammarError}
    (h : ofTokens? tokens text limit = .error error) :
    error = ⟨.emptyExpression, 0⟩ ∨
      (error.fault ≠ .noOpenParen ∧ error.fault ≠ .emptyExpression ∧
        ((∃ token ∈ tokens, token.position = error.position) ∨ error.position = text.length)) := by
  -- no parenthesis is open at the start
  have hmarks {position : Nat}
      (h : ({ rest := tokens } : State).Marks ⟨text, limit⟩ position) :
      (∃ token ∈ tokens, token.position = position) ∨ position = text.length := by
    rcases h with h | ⟨_, hmem, _⟩ | h
    · exact .inl h
    · exact absurd hmem List.not_mem_nil
    · exact .inr h
  by_cases hempty : (({ rest := tokens } : State).current ⟨text, limit⟩).kind = .endOfInput
  · cases (ofTokens?_of_empty hempty).symm.trans h
    exact .inl rfl
  · right
    rcases exists_run_level ⟨text, limit⟩ 0 { rest := tokens } with
      ⟨e, after, hrun⟩ | ⟨failure, hrun⟩
    · rw [ofTokens?_of_expr hempty hrun] at h
      obtain ⟨hrest, -, hframes⟩ := hrun.leaves
      have hcurrent := hmarks ((after.marks_current ⟨text, limit⟩).mono hrest hframes)
      rcases after.finish_cases ⟨text, limit⟩ e with ⟨_, hfinish⟩ | ⟨_, fault, hfault, hfinish⟩
      · rw [hfinish] at h
        exact nomatch h
      · rw [hfinish] at h
        cases h
        rcases hfault with rfl | rfl
        · exact ⟨nofun, nofun, hcurrent⟩
        · exact ⟨nofun, nofun, hcurrent⟩
    · cases (ofTokens?_of_stop hempty hrun).symm.trans h
      obtain ⟨hopen, hempty', hposition⟩ := hrun.blames
      exact ⟨hopen, hempty', hmarks hposition⟩

end

end TypedCalc.Expr
