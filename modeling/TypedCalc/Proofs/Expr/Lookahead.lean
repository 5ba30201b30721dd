import TypedCalc.Proofs.Expr.Blame

/-!
# The parser looks one token ahead

A run depends on the tokens that it takes and on the next one, and on nothing behind that.  It also
does not depend on a limit of nesting that does not end it.

* `Run.lookahead`: other tokens may follow the next one, and the limit may be higher; the outcome
  stays the same but for the tokens that are left.
-/

namespace TypedCalc.Expr

/-! ## What an outcome leaves -/

namespace Outcome

/-- The tokens that are left. -/
def rest : Outcome → List Token
  | .expr _ after | .arguments _ after => after.rest
  | .stop failure => failure.rest

/-- The same outcome with other tokens left. -/
def withRest : Outcome → List Token → Outcome
  | .expr e after, tokens => .expr e { after with rest := tokens }
  | .arguments es after, tokens => .arguments es { after with rest := tokens }
  | .stop failure, tokens => .stop { failure with rest := tokens }

/-- Whether the limit of nesting ended a run. -/
def IsTooDeep : Outcome → Prop
  | .stop failure => ∃ limit, failure.error.fault = .tooDeep limit
  | .expr _ _ | .arguments _ _ => False

end Outcome

/-! ## What the next token decides -/

theorem head?_append_congr {taken rest rest' : List Token} (h : rest'.head? = rest.head?) :
    (taken ++ rest').head? = (taken ++ rest).head? := by
  rw [List.head?_append, List.head?_append, h]

theorem infixOfLevel?_eq_none_congr {level : Nat} {tokens tokens' : List Token}
    (hhead : tokens'.head? = tokens.head?) (h : infixOfLevel? level tokens = none) :
    infixOfLevel? level tokens' = none := by
  cases hfound : infixOfLevel? level tokens' with
  | none => rfl
  | some found =>
    obtain ⟨symbol, length, rfl, hop, hlevel⟩ := infixOfLevel?_eq_some_iff.mp hfound
    obtain ⟨rest, hrest⟩ := List.head?_eq_some_iff.mp hhead.symm
    have hsome := infixOfLevel?_eq_some_iff.mpr ⟨symbol, length, hrest, hop, hlevel⟩
    exact nomatch h.symm.trans hsome

theorem prefixAt?_eq_none_congr {tokens tokens' : List Token}
    (hhead : tokens'.head? = tokens.head?) (h : prefixAt? tokens = none) :
    prefixAt? tokens' = none := by
  cases hfound : prefixAt? tokens' with
  | none => rfl
  | some found =>
    obtain ⟨symbol, length, rfl, hop⟩ := prefixAt?_eq_some_iff.mp hfound
    obtain ⟨rest, hrest⟩ := List.head?_eq_some_iff.mp hhead.symm
    have hsome := prefixAt?_eq_some_iff.mpr ⟨symbol, length, hrest, hop⟩
    exact nomatch h.symm.trans hsome

theorem afterComma?_eq_none_congr {tokens tokens' : List Token}
    (hhead : tokens'.head? = tokens.head?) (h : afterComma? tokens = none) :
    afterComma? tokens' = none := by
  cases hfound : afterComma? tokens' with
  | none => rfl
  | some found =>
    obtain ⟨position, length, rfl⟩ := afterComma?_eq_some hfound
    obtain ⟨rest, rfl⟩ := List.head?_eq_some_iff.mp hhead.symm
    exact nomatch h

section

variable (source : Source) {s : State} {rest rest' : List Token}

theorem State.current_congr {s' : State} (h : s'.rest.head? = s.rest.head?) (limit : Int) :
    s'.current { source with limit := limit } = s.current source := by
  unfold State.current
  rw [h]

theorem State.current_withRest_congr (h : rest.head? = s.rest.head?) (limit : Int) :
    ({ s with rest := rest } : State).current { source with limit := limit } = s.current source :=
  State.current_congr source h limit

theorem State.current_inside_congr (s : State) (h : rest'.head? = rest.head?) (opened : Nat)
    (opening : Opening) (limit : Int) :
    (s.inside { source with limit := limit } rest' opened opening).current
        { source with limit := limit } =
      (s.inside source rest opened opening).current source :=
  State.current_congr source h limit

theorem State.unexpected_congr (h : rest.head? = s.rest.head?) (limit : Int) :
    ({ s with rest := rest } : State).unexpected { source with limit := limit } =
      { s.unexpected source with rest := rest } := by
  unfold State.unexpected
  rw [State.current_withRest_congr source h]

end

/-- Whether a group or a call is closed is decided by the next token. -/
theorem Outcome.close_lookahead (source : Source) (opened : Nat) (e : Expr) (s : State) :
    ∃ taken, s.rest = taken ++ (Outcome.close source opened e s).rest ∧
      ∀ (limit : Int) (rest : List Token),
        rest.head? = (Outcome.close source opened e s).rest.head? →
        Outcome.close { source with limit := limit } opened e { s with rest := taken ++ rest } =
          (Outcome.close source opened e s).withRest rest := by
  obtain ⟨tokens, depth, frames⟩ := s
  cases tokens with
  | nil =>
    refine ⟨[], rfl, fun limit rest hhead => ?_⟩
    obtain rfl : rest = [] := List.head?_eq_none_iff.mp hhead
    rfl
  | cons token tokens =>
    obtain ⟨kind, position, length⟩ := token
    -- a token that is not taken is still the next one
    have hstay {outcome : Outcome} (hrest : outcome.rest = ⟨kind, position, length⟩ :: tokens)
        (hsame : ∀ limit more, Outcome.close { source with limit := limit } opened e
          ⟨⟨kind, position, length⟩ :: more, depth, frames⟩ =
            outcome.withRest (⟨kind, position, length⟩ :: more)) :
        ∃ taken, ⟨kind, position, length⟩ :: tokens = taken ++ outcome.rest ∧
          ∀ (limit : Int) (rest : List Token), rest.head? = outcome.rest.head? →
            Outcome.close { source with limit := limit } opened e ⟨taken ++ rest, depth, frames⟩ =
              outcome.withRest rest := by
      refine ⟨[], hrest.symm, fun limit rest hhead => ?_⟩
      rw [hrest] at hhead
      obtain ⟨more, rfl⟩ := List.head?_eq_some_iff.mp hhead
      exact hsame limit more
    cases kind with
    | closeParen =>
      cases frames with
      | nil => exact hstay rfl fun _ _ => rfl
      | cons frame frames => exact ⟨[_], rfl, fun _ _ _ => rfl⟩
    | _ => exact hstay rfl fun _ _ => rfl

/-! ## Runs -/

/-- Whether an outcome depends on the tokens taken and on the next one alone. -/
def LooksAhead (source : Source) (phase : Phase) (s : State) (o : Outcome) : Prop :=
  ∃ taken, s.rest = taken ++ o.rest ∧ ∀ (limit : Int) (rest : List Token),
    source.limit ≤ limit → rest.head? = o.rest.head? →
      Run { source with limit := limit } phase { s with rest := taken ++ rest } (o.withRest rest)

section

variable {source : Source} {phase first second outer : Phase} {s inner next closed : State}
  {o o' : Outcome}

/-- A phase that starts with some tokens and goes on like another one looks as far ahead, if it sees
no more of what follows the tokens than the next one. -/
theorem LooksAhead.after (tokens : List Token) (h : LooksAhead source phase inner o)
    (hstart : s.rest = tokens ++ inner.rest) (hend : o'.rest = o.rest)
    (hrun : ∀ (limit : Int) (start rest : List Token), source.limit ≤ limit →
      start.head? = inner.rest.head? → rest.head? = o.rest.head? →
      Run { source with limit := limit } phase { inner with rest := start } (o.withRest rest) →
      Run { source with limit := limit } outer { s with rest := tokens ++ start }
        (o'.withRest rest)) :
    LooksAhead source outer s o' := by
  obtain ⟨taken, htaken, hinner⟩ := h
  refine ⟨tokens ++ taken, ?_, fun limit rest hlimit hhead => ?_⟩
  · rw [hstart, htaken, hend, List.append_assoc]
  · rw [hend] at hhead
    rw [List.append_assoc]
    refine hrun limit _ rest hlimit ?_ hhead (hinner limit rest hlimit hhead)
    exact htaken ▸ head?_append_congr hhead

/-- The same of two phases in a row, with tokens before the first one and between them. -/
theorem LooksAhead.andThen (tokens between : List Token) (hfirst : LooksAhead source first inner o')
    (hsecond : LooksAhead source second next o) (hstart : s.rest = tokens ++ inner.rest)
    (hmiddle : o'.rest = between ++ next.rest) {result : Outcome} (hend : result.rest = o.rest)
    (hrun : ∀ (limit : Int) (start middle rest : List Token), source.limit ≤ limit →
      start.head? = inner.rest.head? →
      Run { source with limit := limit } first { inner with rest := start }
        (o'.withRest (between ++ middle)) →
      Run { source with limit := limit } second { next with rest := middle } (o.withRest rest) →
      Run { source with limit := limit } outer { s with rest := tokens ++ start }
        (result.withRest rest)) :
    LooksAhead source outer s result := by
  obtain ⟨taken, htaken, hthen⟩ := hsecond
  obtain ⟨before, hbefore, hinner⟩ := hfirst
  refine ⟨tokens ++ (before ++ (between ++ taken)), ?_, fun limit rest hlimit hhead => ?_⟩
  · rw [hstart, hbefore, hmiddle, htaken, hend]
    simp only [List.append_assoc]
  · rw [hend] at hhead
    have hbetween : (between ++ (taken ++ rest)).head? = o'.rest.head? := by
      rw [hmiddle, htaken]
      exact head?_append_congr (head?_append_congr hhead)
    rw [List.append_assoc, List.append_assoc, List.append_assoc]
    refine hrun limit _ (taken ++ rest) rest hlimit ?_ (hinner limit _ hlimit hbetween)
      (hthen limit rest hlimit hhead)
    exact hbefore ▸ head?_append_congr hbetween

/-- The same of a phase inside parentheses. -/
theorem LooksAhead.close (tokens : List Token) (h : LooksAhead source phase inner o)
    (hstart : s.rest = tokens ++ inner.rest) (hclosed : o.rest = closed.rest) {opened : Nat}
    {e : Expr}
    (hrun : ∀ (limit : Int) (start rest : List Token), source.limit ≤ limit →
      start.head? = inner.rest.head? →
      Run { source with limit := limit } phase { inner with rest := start } (o.withRest rest) →
      Run { source with limit := limit } .operand { s with rest := tokens ++ start }
        (Outcome.close { source with limit := limit } opened e { closed with rest := rest })) :
    LooksAhead source .operand s (Outcome.close source opened e closed) := by
  obtain ⟨taken, htaken, hclose⟩ := Outcome.close_lookahead source opened e closed
  obtain ⟨before, hbefore, hinner⟩ := h
  refine ⟨tokens ++ (before ++ taken), ?_, fun limit rest hlimit hhead => ?_⟩
  · rw [hstart, hbefore, hclosed, htaken, List.append_assoc, List.append_assoc]
  · have hnext : (taken ++ rest).head? = o.rest.head? := by
      rw [hclosed, htaken]
      exact head?_append_congr hhead
    rw [← hclose limit rest hhead, List.append_assoc, List.append_assoc]
    refine hrun limit _ (taken ++ rest) hlimit ?_ (hinner limit _ hlimit hnext)
    exact hbefore ▸ head?_append_congr hnext

end

/-- **The parser looks one token ahead.**  A run that the limit does not end takes some tokens; it
goes the same way under a higher limit and whatever comes after the next token. -/
theorem Run.lookahead {source : Source} {phase : Phase} {s : State} {o : Outcome}
    (h : Run source phase s o) (hshallow : ¬ o.IsTooDeep) : LooksAhead source phase s o := by
  induction h with
  | top h inner ih => exact (ih hshallow).after [] rfl rfl fun _ _ _ _ _ _ hrun => .top h hrun
  | level h operand chain ihoperand ihchain =>
    exact (ihoperand id).andThen [] [] (ihchain hshallow) rfl rfl rfl
      fun _ _ _ _ _ _ hoperand hchain => .level h hoperand hchain
  | levelStop h operand ih =>
    exact (ih hshallow).after [] rfl rfl fun _ _ _ _ _ _ hrun => .levelStop h hrun
  | chainEnd h =>
    exact ⟨[], rfl, fun limit rest _ hhead => .chainEnd (infixOfLevel?_eq_none_congr hhead h)⟩
  | @chain level left right s after op position rest o h operand chain ihoperand ihchain =>
    obtain ⟨symbol, length, hs, hop⟩ := infixOfLevel?_eq_some_iff.mp h
    refine (ihoperand id).andThen [⟨.operator symbol, position, length⟩] [] (ihchain hshallow) hs
      rfl rfl fun _ start _ _ _ _ hoperand hchain => ?_
    exact .chain (infixOfLevel?_eq_some_iff.mpr ⟨symbol, length, rfl, hop⟩) hoperand hchain
  | @chainStop level left s op position rest failure h operand ih =>
    obtain ⟨symbol, length, hs, hop⟩ := infixOfLevel?_eq_some_iff.mp h
    refine (ih hshallow).after [⟨.operator symbol, position, length⟩] hs rfl
      fun _ start _ _ _ _ hrun => ?_
    exact .chainStop (infixOfLevel?_eq_some_iff.mpr ⟨symbol, length, rfl, hop⟩) hrun
  | unprefixed h operand ih =>
    exact (ih hshallow).after [] rfl rfl fun _ _ _ _ hhead _ hrun =>
      .unprefixed (prefixAt?_eq_none_congr hhead h) hrun
  | @prefixed s after op position rest operand h hdeep inner ih =>
    obtain ⟨symbol, length, hs, hop⟩ := prefixAt?_eq_some_iff.mp h
    refine (ih id).after [⟨.operator symbol, position, length⟩] hs rfl
      fun limit start rest' hlimit _ _ hrun => ?_
    exact @Run.prefixed _ _ { after with rest := rest' } _ _ _ _
      (prefixAt?_eq_some_iff.mpr ⟨symbol, length, rfl, hop⟩) (by dsimp only; omega) hrun
  | @prefixStop s op position rest failure h hdeep inner ih =>
    obtain ⟨symbol, length, hs, hop⟩ := prefixAt?_eq_some_iff.mp h
    refine (ih hshallow).after [⟨.operator symbol, position, length⟩] hs rfl
      fun limit start _ hlimit _ _ hrun => ?_
    exact .prefixStop (prefixAt?_eq_some_iff.mpr ⟨symbol, length, rfl, hop⟩)
      (by dsimp only; omega) hrun
  | number h => exact ⟨[_], h, fun _ _ _ _ => .number rfl⟩
  | history h => exact ⟨[_], h, fun _ _ _ _ => .history rfl⟩
  | constant h hnext =>
    refine ⟨[_], h, fun _ rest _ (hhead : rest.head? = _) => .constant rfl ?_⟩
    rwa [hhead]
  | @group s after opened length rest e h hdeep inner ih =>
    exact (ih id).close [⟨.openParen, opened, length⟩] h rfl fun limit _ _ hlimit _ hrun =>
      .group rfl (by dsimp only; omega) hrun
  | @groupStop s opened length rest failure h hdeep inner ih =>
    exact (ih hshallow).after [⟨.openParen, opened, length⟩] h rfl
      fun limit _ _ hlimit _ _ hrun => .groupStop rfl (by dsimp only; omega) hrun
  | @callEmpty s name position opened length length' rest h hdeep hnext =>
    -- the parenthesis that closes the call is all that is read inside it
    obtain ⟨taken, (hrest : rest = _), hclose⟩ := Outcome.close_lookahead source opened
      (.call position name []) (s.inside source rest opened (.call name))
    refine ⟨⟨.name name, position, length⟩ :: ⟨.openParen, opened, length'⟩ :: taken, ?_,
      fun limit rest' hlimit hhead => ?_⟩
    · rw [h, List.cons_append, List.cons_append, ← hrest]
    · rw [← hclose limit rest' hhead]
      have hnext' : (taken ++ rest').head? = rest.head? := hrest ▸ head?_append_congr hhead
      have hcurrent := State.current_inside_congr source s hnext' opened (.call name) limit
      exact .callEmpty rfl (by dsimp only; omega) ((congrArg Token.kind hcurrent).trans hnext)
  | @call s after name position opened length length' rest es h hdeep hnext inner ih =>
    refine (ih id).close [⟨.name name, position, length⟩, ⟨.openParen, opened, length'⟩] h rfl
      fun limit start _ hlimit (hhead : start.head? = rest.head?) hrun => ?_
    have hcurrent := State.current_inside_congr source s hhead opened (.call name) limit
    exact .call rfl (by dsimp only; omega)
      (fun hclosing => hnext ((congrArg Token.kind hcurrent).symm.trans hclosing)) hrun
  | @callStop s name position opened length length' rest failure h hdeep hnext inner ih =>
    refine (ih hshallow).after [⟨.name name, position, length⟩, ⟨.openParen, opened, length'⟩] h rfl
      fun limit start _ hlimit (hhead : start.head? = rest.head?) _ hrun => ?_
    have hcurrent := State.current_inside_congr source s hhead opened (.call name) limit
    exact .callStop rfl (by dsimp only; omega)
      (fun hclosing => hnext ((congrArg Token.kind hcurrent).symm.trans hclosing)) hrun
  | @unexpected s h =>
    refine ⟨[], rfl, fun limit rest _ (hhead : rest.head? = s.rest.head?) => ?_⟩
    rw [Outcome.withRest, ← State.unexpected_congr source hhead limit]
    exact .unexpected (hhead.symm ▸ h)
  | @argumentMissing s name h =>
    refine ⟨[], rfl, fun limit rest _ (hhead : rest.head? = s.rest.head?) => ?_⟩
    have hcurrent := State.current_withRest_congr source hhead limit
    rw [Outcome.withRest, ← hcurrent]
    exact .argumentMissing (hcurrent.symm ▸ h)
  | @argumentStop s name failure hcomma hclose first ih =>
    refine (ih hshallow).after [] rfl rfl fun limit start _ _ hhead _ hrun => ?_
    have hcurrent := State.current_withRest_congr source hhead limit
    exact .argumentStop (hcurrent ▸ hcomma) (hcurrent ▸ hclose) hrun
  | @argumentLast s after name e hcomma hclose first hnext ih =>
    refine (ih id).after [] rfl rfl fun limit start _ _ hhead hhead' hrun => ?_
    have hcurrent := State.current_withRest_congr source hhead limit
    exact .argumentLast (hcurrent ▸ hcomma) (hcurrent ▸ hclose) hrun
      (afterComma?_eq_none_congr hhead' hnext)
  | @argument s after after' name e es rest hcomma hclose first hnext others ihfirst ihothers =>
    obtain ⟨position, length, hafter⟩ := afterComma?_eq_some hnext
    refine (ihfirst id).andThen [] [⟨.comma, position, length⟩] (ihothers id) rfl hafter rfl
      fun limit start _ _ _ hhead hfirst hothers => ?_
    have hcurrent := State.current_withRest_congr source hhead limit
    exact .argument (hcurrent ▸ hcomma) (hcurrent ▸ hclose) hfirst rfl hothers
  | @argumentsStop s after name e rest failure hcomma hclose first hnext others ihfirst ihothers =>
    obtain ⟨position, length, hafter⟩ := afterComma?_eq_some hnext
    refine (ihfirst id).andThen [] [⟨.comma, position, length⟩] (ihothers hshallow) rfl hafter rfl
      fun limit start _ _ _ hhead hfirst hothers => ?_
    have hcurrent := State.current_withRest_congr source hhead limit
    exact .argumentsStop (hcurrent ▸ hcomma) (hcurrent ▸ hclose) hfirst rfl hothers
  | prefixDeep | groupDeep | callDeep => exact absurd ⟨_, rfl⟩ hshallow

end TypedCalc.Expr
