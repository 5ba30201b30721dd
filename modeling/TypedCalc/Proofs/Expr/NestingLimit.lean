import TypedCalc.Proofs.Expr.Openers
import TypedCalc.Proofs.Expr.Viable

/-!
# The limit of nesting

A limit ends a run of the parser at the first opener that has as many others around it, and it does
not show anywhere else.

* `Run.walks`: a run goes along with the openers of the tokens that it takes, and a limit changes
  its outcome at the first opener that has too many others around it, if there is one.
* `ofTokens?_nesting_limit`: the same of whole expressions, with a limit that no tokens exceed as
  the outcome that is not changed.
-/

namespace TypedCalc.Expr

/-! ## A run and its openers -/

/-- What a limit makes of an outcome: nothing if no opener has as many others around it, and
otherwise the error that the first such opener is nested too deeply. -/
def Outcome.Limited (limit : Nat) (entries : List Entry) (unlimited limited : Outcome) : Prop :=
  match entries.find? (fun entry => entry.around == limit) with
  | none => limited = unlimited
  | some entry => ∃ rest, limited = .stop ⟨⟨.tooDeep limit, entry.position⟩, rest⟩

section

variable {limit : Nat} {entries more : List Entry} {entry : Entry} {o o' limited : Outcome}

theorem Outcome.limited_cons_of_eq (h : entry.around = limit) (entries : List Entry) (o : Outcome)
    (rest : List Token) :
    Outcome.Limited limit (entry :: entries) o
      (.stop ⟨⟨.tooDeep limit, entry.position⟩, rest⟩) := by
  have hfound : (entry :: entries).find? (fun entry => entry.around == limit) = some entry :=
    List.find?_cons_of_pos (beq_iff_eq.mpr h)
  rw [Limited, hfound]
  exact ⟨rest, rfl⟩

theorem Outcome.Limited.cons_of_ne (h : o.Limited limit entries limited)
    (hne : entry.around ≠ limit) : o.Limited limit (entry :: entries) limited := by
  have hnext : (entry :: entries).find? (fun entry => entry.around == limit) =
      entries.find? (fun entry => entry.around == limit) :=
    List.find?_cons_of_neg (mt beq_iff_eq.mp hne)
  rwa [Limited, hnext]

theorem Outcome.Limited.eq_of_forall_ne (h : o.Limited limit entries limited)
    (hne : ∀ entry ∈ entries, entry.around ≠ limit) : limited = o := by
  have hnone : entries.find? (fun entry => entry.around == limit) = none :=
    List.find?_eq_none.mpr fun entry hmem => mt beq_iff_eq.mp (hne entry hmem)
  rwa [Limited, hnone] at h

/-- An outcome that a limit neither changes nor ends is that of openers that do not reach it. -/
theorem Outcome.Limited.forall_ne (h : o.Limited limit entries o) (hshallow : ¬ o.IsTooDeep) :
    ∀ entry ∈ entries, entry.around ≠ limit := by
  unfold Limited at h
  split at h
  · rename_i hnone
    intro entry hmem
    simpa using List.find?_eq_none.mp hnone entry hmem
  · obtain ⟨rest, rfl⟩ := h
    exact absurd ⟨_, rfl⟩ hshallow

theorem Outcome.Limited.eq_stop {before after : List Entry}
    (h : o.Limited limit (before ++ entry :: after) limited)
    (hbefore : ∀ earlier ∈ before, earlier.around ≠ limit) (hentry : entry.around = limit) :
    ∃ rest, limited = .stop ⟨⟨.tooDeep limit, entry.position⟩, rest⟩ := by
  have hfirst : (before ++ entry :: after).find? (fun entry => entry.around == limit) =
      some entry := by
    refine List.find?_eq_some_iff_append.mpr ⟨beq_iff_eq.mpr hentry, before, after, rfl, ?_⟩
    exact fun earlier hmem => by simpa using hbefore earlier hmem
  rwa [Limited, hfirst] at h

/-- An outcome after another one is limited as they are, in a row, if it keeps errors. -/
theorem Outcome.Limited.append {next : Outcome → Outcome} (h : o.Limited limit entries limited)
    (hnext : o'.Limited limit more (next o))
    (hstop : ∀ failure, next (.stop failure) = .stop failure) :
    o'.Limited limit (entries ++ more) (next limited) := by
  unfold Limited at h hnext ⊢
  rw [List.find?_append]
  cases hfind : entries.find? (fun entry => entry.around == limit) with
  | none =>
    rw [hfind] at h
    obtain rfl : limited = o := h
    exact hnext
  | some entry =>
    rw [hfind] at h
    obtain ⟨rest, rfl⟩ := h
    exact ⟨rest, hstop _⟩

end

/-- Whether a result is a complete operand with only its prefix operators open in it. -/
def Outcome.EndsIn (outer : List Opener) (w : Openers) : Outcome → Prop
  | .stop _ => True
  | .expr _ _ | .arguments _ _ => w.Completes outer

/-- Whether an outcome comes about along tokens inside some openers, and every limit that these do
not exceed makes of it what the openers among the tokens say. -/
def Walks (outer : List Opener) (w : Openers) (tokens : List Token) (depth : Nat) (o : Outcome)
    (limited : Nat → Outcome) : Prop :=
  ∃ taken, tokens = taken ++ o.rest ∧ o.EndsIn outer (w.after taken) ∧
    ∀ limit, depth ≤ limit → o.Limited limit (w.entries taken) (limited limit)

section

variable {outer outer' : List Opener} {w : Openers} {tokens rest : List Token} {token : Token}
  {depth : Nat} {o o' : Outcome} {failure : Stop} {limited limited' : Nat → Outcome}

theorem Walks.congr (h : Walks outer w tokens depth o limited)
    (heq : ∀ limit, limited' limit = limited limit) : Walks outer w tokens depth o limited' := by
  obtain rfl : limited' = limited := funext heq
  exact h

/-- An outcome that takes no token. -/
theorem Walks.done (hrest : o.rest = tokens) (hend : o.EndsIn outer w)
    (h : ∀ limit, limited limit = o) : Walks outer w tokens depth o limited :=
  ⟨[], hrest.symm, hend, fun limit _ => h limit⟩

/-- A token that enters nothing. -/
theorem Walks.skip (hentry : w.entry? token = none)
    (h : Walks outer (w.step token.kind) rest depth o limited) :
    Walks outer w (token :: rest) depth o limited := by
  obtain ⟨taken, rfl, hend, hlimit⟩ := h
  refine ⟨token :: taken, rfl, hend, fun limit hle => ?_⟩
  rw [Openers.entries_cons_of_none hentry]
  exact hlimit limit hle

/-- A token that is entered if the limit allows one more opener. -/
theorem Walks.enter {position : Nat} {left : List Token}
    (hentry : w.entry? token = some ⟨position, depth⟩)
    (h : Walks outer (w.step token.kind) rest (depth + 1) o limited)
    (hlimited : ∀ limit : Nat, limited' limit =
      if (limit : Int) < (depth + 1 : Nat) then .stop ⟨⟨.tooDeep limit, position⟩, left⟩
      else limited limit) : Walks outer w (token :: rest) depth o limited' := by
  obtain ⟨taken, rfl, hend, hlimit⟩ := h
  refine ⟨token :: taken, rfl, hend, fun limit hle => ?_⟩
  rw [Openers.entries_cons_of_some hentry, hlimited]
  rcases Nat.eq_or_lt_of_le hle with heq | hlt
  · rw [if_pos (by omega)]
    exact Outcome.limited_cons_of_eq heq _ _ _
  · rw [if_neg (by omega)]
    exact (hlimit limit hlt).cons_of_ne (Nat.ne_of_lt hlt)

/-- One outcome after another, which does not come about if the first one is an error. -/
theorem Walks.bind {f : Nat → Outcome → Outcome}
    (hstop : ∀ limit failure, f limit (.stop failure) = .stop failure)
    (h : Walks outer w tokens depth o limited)
    (hnext : ∀ w', o.EndsIn outer w' →
      Walks outer' w' o.rest depth o' (fun limit => f limit o)) :
    Walks outer' w tokens depth o' (fun limit => f limit (limited limit)) := by
  obtain ⟨taken, htokens, hend, hlimit⟩ := h
  obtain ⟨more, hmore, hend', hlimit'⟩ := hnext _ hend
  refine ⟨taken ++ more, by rw [htokens, hmore, List.append_assoc], ?_, fun limit hle => ?_⟩
  · rw [Openers.after_append]
    exact hend'
  · rw [Openers.entries_append]
    exact (hlimit limit hle).append (hlimit' limit hle) (hstop limit)

/-- What comes after an expression. -/
theorem Walks.andThen {f : Nat → Expr → State → Outcome}
    (heq : ∀ limit, limited' limit = (limited limit).andThen (f limit))
    (h : Walks outer w tokens depth o limited)
    (hnext : ∀ w', o.EndsIn outer w' →
      Walks outer' w' o.rest depth o' (fun limit => o.andThen (f limit))) :
    Walks outer' w tokens depth o' limited' :=
  (Walks.bind (f := fun limit first => first.andThen (f limit)) (fun _ _ => rfl) h hnext).congr
    heq

/-- What comes after arguments. -/
theorem Walks.andThenAll {f : Nat → List Expr → State → Outcome}
    (heq : ∀ limit, limited' limit = (limited limit).andThenAll (f limit))
    (h : Walks outer w tokens depth o limited)
    (hnext : ∀ w', o.EndsIn outer w' →
      Walks outer' w' o.rest depth o' (fun limit => o.andThenAll (f limit))) :
    Walks outer' w tokens depth o' limited' :=
  (Walks.bind (f := fun limit first => first.andThenAll (f limit)) (fun _ _ => rfl) h
    hnext).congr heq

/-- Nothing comes after an error. -/
theorem Walks.stop {left : List Token} (w : Openers) (hrest : failure.rest = left) :
    Walks outer w left depth (.stop failure) (fun _ => .stop failure) :=
  .done hrest trivial fun _ => rfl

end

/-! ## The parser -/

/-- What is open when a phase starts inside some openers.  An infix operator ends the prefix
operators before it, so an expression of several operands does not start after one. -/
def Phase.Starts (outer : List Opener) (w : Openers) : Phase → Prop
  | .level _ | .arguments _ => w = ⟨outer, false⟩ ∧ Openers.IsSettled outer
  | .chain _ _ => w.Completes outer ∧ Openers.IsSettled outer
  | .prefixed | .operand => w = ⟨outer, false⟩

section

variable {outer : List Opener} {w : Openers} {o : Outcome}

/-- An infix operator or a comma behind a complete operand enters nothing. -/
theorem Walks.separator {token : Token} {rest : List Token} {depth : Nat} {limited : Nat → Outcome}
    (hkind : (∃ symbol, token.kind = .operator symbol) ∨ token.kind = .comma)
    (hend : w.Completes outer) (houter : Openers.IsSettled outer)
    (h : Walks outer ⟨outer, false⟩ rest depth o limited) :
    Walks outer w (token :: rest) depth o limited := by
  have hentry : w.entry? token = none := by
    rcases hkind with ⟨symbol, hkind⟩ | hkind
    · rw [Openers.entry?, hkind]
      exact if_pos hend.complete
    · rw [Openers.entry?, hkind]
  refine .skip hentry ?_
  rw [hend.step_separator houter hkind]
  exact h

theorem State.length_inside {source : Source} {s : State} {rest : List Token} {opened : Nat}
    {opening : Opening} (h : outer.length = s.depth) :
    (Opener.paren :: outer).length = (s.inside source rest opened opening).depth :=
  congrArg (· + 1) h

/-- The closing parenthesis of a group or a call. -/
theorem Outcome.walks_close (source : Source) (e : Expr) (opened depth : Nat) (after : State)
    (h : w.IsInside (.paren :: outer)) :
    Walks outer w after.rest depth (Outcome.close source opened e after)
      (fun limit => Outcome.close { source with limit := limit } opened e after) := by
  rcases Outcome.close_cases source opened e after with
    ⟨position, length, rest, frame, frames, hrest, hframes, hclose⟩ | ⟨fault, position, hclose, -⟩
  · have hstep : w.step .closeParen = ⟨outer, true⟩ := by
      rw [Openers.step, h.settled_eq (Openers.isSettled_paren outer)]
      rfl
    rw [hrest, hclose]
    refine .skip rfl ?_
    rw [hstep]
    exact .done rfl (Openers.completes_self _) fun _ => hclose
  · rw [hclose]
    exact .done rfl trivial fun _ => hclose

/-- **A run goes along with its openers.** -/
theorem Run.walks {source : Source} {phase : Phase} {s : State} (h : Run source phase s o)
    (hshallow : ¬ o.IsTooDeep) (hstart : phase.Starts outer w) (hdepth : outer.length = s.depth) :
    Walks outer w s.rest s.depth o (fun limit => run { source with limit := limit } phase s) := by
  induction h generalizing outer w with
  | @top level s o h inner ih =>
    exact (ih hshallow hstart.1 hdepth).congr fun _ => run_level_of_not_lt _ _ h
  | @level level s after first o h operand chain ihoperand ihchain =>
    obtain ⟨-, hsame, -⟩ := operand.leaves
    rw [hsame] at ihchain
    exact .andThen (fun _ => run_level_of_lt _ _ h) (ihoperand id hstart hdepth)
      fun _ hend => ihchain hshallow ⟨hend, hstart.2⟩ hdepth
  | levelStop h operand ih =>
    exact .andThen (fun _ => run_level_of_lt _ _ h) (ih hshallow hstart hdepth)
      fun _ _ => .stop _ rfl
  | chainEnd h => exact .done rfl hstart.1 fun _ => run_chain_of_none _ _ _ h
  | @chain level left right s after op position rest o h operand chain ihoperand ihchain =>
    obtain ⟨symbol, length, hs, hop⟩ := infixOfLevel?_eq_some_iff.mp h
    obtain ⟨-, hsame, -⟩ := operand.leaves
    rw [hsame] at ihchain
    rw [hs]
    refine .separator (.inl ⟨symbol, rfl⟩) hstart.1 hstart.2 ?_
    exact .andThen (fun _ => run_chain_of_some _ _ _ h) (ihoperand id ⟨rfl, hstart.2⟩ hdepth)
      fun _ hend => ihchain hshallow ⟨hend, hstart.2⟩ hdepth
  | @chainStop level left s op position rest failure h operand ih =>
    obtain ⟨symbol, length, hs, hop⟩ := infixOfLevel?_eq_some_iff.mp h
    rw [hs]
    refine .separator (.inl ⟨symbol, rfl⟩) hstart.1 hstart.2 ?_
    exact .andThen (fun _ => run_chain_of_some _ _ _ h) (ih hshallow ⟨rfl, hstart.2⟩ hdepth)
      fun _ _ => .stop _ rfl
  | unprefixed h operand ih =>
    exact (ih hshallow hstart hdepth).congr fun _ => run_prefixed_of_none _ _ h
  | @prefixed s after op position rest operand h hdeep inner ih =>
    obtain ⟨symbol, length, hs, hop⟩ := prefixAt?_eq_some_iff.mp h
    obtain rfl : w = ⟨outer, false⟩ := hstart
    rw [hs]
    -- the operand is inside the operator, and the result inside what the operator is inside
    refine .enter (hdepth ▸ rfl) ?_ fun _ => run_prefixed_of_some _ _ h
    exact .andThen (fun _ => rfl) (ih id rfl (congrArg (· + 1) hdepth)) fun _ hend =>
      .done rfl hend.of_sign fun _ => rfl
  | @prefixStop s op position rest failure h hdeep inner ih =>
    obtain ⟨symbol, length, hs, hop⟩ := prefixAt?_eq_some_iff.mp h
    obtain rfl : w = ⟨outer, false⟩ := hstart
    rw [hs]
    refine .enter (hdepth ▸ rfl) ?_ fun _ => run_prefixed_of_some _ _ h
    exact .andThen (fun _ => rfl) (ih hshallow rfl (congrArg (· + 1) hdepth)) fun _ _ => .stop _ rfl
  | number h =>
    obtain rfl : w = ⟨outer, false⟩ := hstart
    rw [h]
    exact .skip rfl (.done rfl (Openers.completes_self _) fun _ => run_number _ _ h)
  | history h =>
    obtain rfl : w = ⟨outer, false⟩ := hstart
    rw [h]
    exact .skip rfl (.done rfl (Openers.completes_self _) fun _ => run_history _ _ h)
  | constant h hnext =>
    obtain rfl : w = ⟨outer, false⟩ := hstart
    rw [h]
    exact .skip rfl (.done rfl (Openers.completes_self _) fun _ => run_constant _ _ h hnext)
  | @group s after opened length rest e h hdeep inner ih =>
    obtain rfl : w = ⟨outer, false⟩ := hstart
    have hinner := ih id ⟨rfl, Openers.isSettled_paren _⟩ (State.length_inside hdepth)
    rw [h]
    refine .enter (hdepth ▸ rfl) ?_ fun _ => run_group _ _ h
    exact .andThen (fun _ => rfl) hinner fun _ hend =>
      Outcome.walks_close source e opened _ after hend.isInside
  | @groupStop s opened length rest failure h hdeep inner ih =>
    obtain rfl : w = ⟨outer, false⟩ := hstart
    have hinner := ih hshallow ⟨rfl, Openers.isSettled_paren _⟩ (State.length_inside hdepth)
    rw [h]
    refine .enter (hdepth ▸ rfl) ?_ fun _ => run_group _ _ h
    exact .andThen (fun _ => rfl) hinner fun _ _ => .stop _ rfl
  | @callEmpty s name position opened length length' rest h hdeep hnext =>
    obtain rfl : w = ⟨outer, false⟩ := hstart
    rw [h]
    -- the name enters nothing, and the parenthesis behind it is inside what the name is inside
    refine .skip rfl (.enter (hdepth ▸ rfl) ?_ fun _ => run_call_empty _ _ h hnext)
    exact Outcome.walks_close source _ opened _ (s.inside source rest opened (.call name))
      (Openers.isInside_self _ _)
  | @call s after name position opened length length' rest es h hdeep hnext inner ih =>
    obtain rfl : w = ⟨outer, false⟩ := hstart
    have hinner := ih id ⟨rfl, Openers.isSettled_paren _⟩ (State.length_inside hdepth)
    rw [h]
    refine .skip rfl (.enter (hdepth ▸ rfl) ?_ fun _ => run_call _ _ h hnext)
    exact .andThenAll (fun _ => rfl) hinner fun _ hend =>
      Outcome.walks_close source _ opened _ after hend.isInside
  | @callStop s name position opened length length' rest failure h hdeep hnext inner ih =>
    obtain rfl : w = ⟨outer, false⟩ := hstart
    have hinner := ih hshallow ⟨rfl, Openers.isSettled_paren _⟩ (State.length_inside hdepth)
    rw [h]
    refine .skip rfl (.enter (hdepth ▸ rfl) ?_ fun _ => run_call _ _ h hnext)
    exact .andThenAll (fun _ => rfl) hinner fun _ _ => .stop _ rfl
  | unexpected h => exact .done rfl trivial fun _ => run_unexpected _ _ h
  | argumentMissing h => exact .done rfl trivial fun _ => run_arguments_of_missing _ _ h
  | argumentStop hcomma hclose first ih =>
    exact .andThen (fun _ => run_arguments _ _ hcomma hclose) (ih hshallow hstart hdepth)
      fun _ _ => .stop _ rfl
  | argumentLast hcomma hclose first hnext ih =>
    refine .andThen (fun _ => run_arguments _ _ hcomma hclose) (ih id hstart hdepth)
      fun _ hend => .done rfl hend fun _ => ?_
    simp only [Outcome.andThen, hnext]
  | @argument s after after' name e es rest hcomma hclose first hnext others ihfirst ihothers =>
    obtain ⟨position, length, hafter⟩ := afterComma?_eq_some hnext
    obtain ⟨-, hsame, -⟩ := first.leaves
    refine .andThen (fun _ => run_arguments _ _ hcomma hclose) (ihfirst id hstart hdepth)
      fun w' hend => ?_
    have hothers := ihothers id ⟨rfl, hstart.2⟩ (hdepth.trans hsame.symm)
    rw [Outcome.rest, hafter, ← hsame]
    refine .separator (.inr rfl) hend hstart.2 ?_
    refine .andThenAll (f := fun _ others after => .arguments (e :: others) after) (fun _ => ?_)
      hothers fun _ hend' => .done rfl hend' fun _ => rfl
    simp only [Outcome.andThen, hnext]
  | @argumentsStop s after name e rest failure hcomma hclose first hnext others ihfirst ihothers =>
    obtain ⟨position, length, hafter⟩ := afterComma?_eq_some hnext
    obtain ⟨-, hsame, -⟩ := first.leaves
    refine .andThen (fun _ => run_arguments _ _ hcomma hclose) (ihfirst id hstart hdepth)
      fun w' hend => ?_
    have hothers := ihothers hshallow ⟨rfl, hstart.2⟩ (hdepth.trans hsame.symm)
    rw [Outcome.rest, hafter, ← hsame]
    refine .separator (.inr rfl) hend hstart.2 ?_
    refine .andThenAll (f := fun _ others after => .arguments (e :: others) after) (fun _ => ?_)
      hothers fun _ _ => .stop _ rfl
    simp only [Outcome.andThen, hnext]
  | prefixDeep | groupDeep | callDeep => exact absurd ⟨_, rfl⟩ hshallow

end

/-! ## Limits that do not show -/

/-- Whether a limit allows every token that is left to be an opener. -/
def State.HasRoom (source : Source) (s : State) : Prop :=
  ((s.depth + s.rest.length : Nat) : Int) ≤ source.limit

section

variable {source : Source} {phase : Phase} {s s' : State} {o : Outcome} {limit : Int}

theorem State.HasRoom.mono (h : s.HasRoom source)
    (hle : s'.depth + s'.rest.length ≤ s.depth + s.rest.length) : s'.HasRoom source :=
  Int.le_trans (Int.ofNat_le.mpr hle) h

/-- Where a result leaves room, there is room for what follows. -/
theorem State.HasRoom.leaves {e : Expr} (h : s.HasRoom source)
    (hleaves : (Outcome.expr e s').Leaves s) : s'.HasRoom source := by
  obtain ⟨hrest, hdepth, -⟩ := hleaves
  exact h.mono (Nat.add_le_add (Nat.le_of_eq hdepth) hrest.length_le)

theorem State.HasRoom.inside (h : s.HasRoom source) {rest : List Token}
    (hrest : rest.length < s.rest.length) (opened : Nat) (opening : Opening) :
    (s.inside source rest opened opening).HasRoom source :=
  h.mono (by dsimp only [State.inside]; omega)

/-- Where a token is left and there is room, the limit allows one more opener. -/
theorem State.HasRoom.not_lt (h : s.HasRoom source) (hrest : 0 < s.rest.length) :
    ¬ source.limit < (s.depth + 1 : Nat) := by
  unfold State.HasRoom at h
  omega

theorem Outcome.not_isTooDeep_close (source : Source) (opened : Nat) (e : Expr) (s : State) :
    ¬ (Outcome.close source opened e s).IsTooDeep := by
  rcases Outcome.close_cases source opened e s with
    ⟨_, _, _, _, _, _, _, h⟩ | ⟨fault, position, h, hfault⟩
  · rw [h]
    exact id
  · rw [h]
    rintro ⟨limit, rfl : fault = _⟩
    rcases hfault with ⟨hfault, -⟩ | ⟨hfault, -⟩ | ⟨_, hfault, -⟩
    · exact nomatch hfault
    · exact nomatch hfault
    · exact nomatch hfault

theorem State.not_isTooDeep_unexpected (source : Source) (s : State) :
    ¬ (Outcome.stop (s.unexpected source)).IsTooDeep :=
  fun ⟨_, h⟩ => absurd h (s.unexpected_fault_ne source nofun nofun fun _ => nofun)

/-- **No tokens exceed a limit of their number.** -/
theorem Run.not_isTooDeep (h : Run source phase s o) (hroom : s.HasRoom source) :
    ¬ o.IsTooDeep := by
  induction h with
  | top h inner ih => exact ih hroom
  | level h operand chain ihoperand ihchain => exact ihchain (hroom.leaves operand.leaves)
  | levelStop h operand ih => exact ih hroom
  | @chain level left right s after op position rest o h operand chain ihoperand ihchain =>
    have hrest := length_of_infixOfLevel? h
    have hoperand : State.HasRoom source { s with rest := rest } :=
      hroom.mono (Nat.add_le_add_left (Nat.le_of_lt hrest) _)
    exact ihchain (hoperand.leaves operand.leaves)
  | chainStop h operand ih =>
    have hrest := length_of_infixOfLevel? h
    exact ih (hroom.mono (Nat.add_le_add_left (Nat.le_of_lt hrest) _))
  | unprefixed h operand ih => exact ih hroom
  | prefixDeep h hdeep =>
    have hrest := length_of_prefixAt? h
    exact absurd hdeep (hroom.not_lt (Nat.zero_lt_of_lt hrest))
  | prefixStop h hdeep inner ih =>
    have hrest := length_of_prefixAt? h
    exact ih (hroom.mono (by dsimp only; omega))
  | groupDeep h hdeep | callDeep h hdeep =>
    exact absurd hdeep (hroom.not_lt (by rw [h]; exact Nat.succ_pos _))
  | groupStop h hdeep inner ih =>
    exact ih (hroom.inside (by rw [h]; exact Nat.lt_succ_self _) _ _)
  | callStop h hdeep hnext inner ih =>
    exact ih (hroom.inside (by rw [h, List.length_cons, List.length_cons]; omega) _ _)
  | group | callEmpty | call => exact Outcome.not_isTooDeep_close _ _ _ _
  | unexpected h => exact State.not_isTooDeep_unexpected _ _
  | argumentMissing h => exact fun ⟨limit, h⟩ => nomatch h
  | argumentStop hcomma hclose first ih => exact ih hroom
  | @argumentsStop s after name e rest failure hcomma hclose first hnext others ihfirst ihothers =>
    have hrest := (suffix_of_afterComma? hnext).length_le
    have hafter : after.HasRoom source := hroom.leaves first.leaves
    exact ihothers (hafter.mono (Nat.add_le_add_left hrest _))
  | chainEnd | prefixed | number | history | constant | argumentLast | argument => exact id

/-- **A higher limit does not show** in a run that a limit does not end. -/
theorem Run.of_limit_le (h : Run source phase s o) (hshallow : ¬ o.IsTooDeep)
    (hle : source.limit ≤ limit) : Run { source with limit := limit } phase s o := by
  obtain ⟨taken, hrest, hrun⟩ := h.lookahead hshallow
  have hsame : o.withRest o.rest = o := by cases o <;> rfl
  have hstart : ({ s with rest := taken ++ o.rest } : State) = s := by rw [← hrest]
  have hrun' := hrun limit o.rest hle rfl
  rwa [hsame, hstart] at hrun'

end

/-! ## Whole expressions -/

/-- The tokens that are left when the parser is done. -/
def unread : Except Stop (Expr × State) → List Token
  | .ok (_, after) => after.rest
  | .error failure => failure.rest

section

variable {tokens : List Token} {text : List Char} {limit limit' : Int} {o : Outcome}

/-- Limits under which a run has the same outcome give the same result. -/
theorem ofTokens?_congr (h : Run ⟨text, limit⟩ (.level 0) { rest := tokens } o)
    (h' : Run ⟨text, limit'⟩ (.level 0) { rest := tokens } o) :
    ofTokens? tokens text limit' = ofTokens? tokens text limit := by
  by_cases hend : (({ rest := tokens } : State).current ⟨text, limit⟩).kind = .endOfInput
  · have hend' : (({ rest := tokens } : State).current ⟨text, limit'⟩).kind = .endOfInput := hend
    rw [ofTokens?_of_empty hend, ofTokens?_of_empty hend']
  · have hend' : (({ rest := tokens } : State).current ⟨text, limit'⟩).kind ≠ .endOfInput := hend
    rcases exists_run_level ⟨text, limit⟩ 0 { rest := tokens } with
      ⟨e, after, hrun⟩ | ⟨failure, hrun⟩
    · obtain rfl : o = .expr e after := h.run_eq.symm.trans hrun.run_eq
      rw [ofTokens?_of_expr hend h, ofTokens?_of_expr hend' h']
      rfl
    · obtain rfl : o = .stop failure := h.run_eq.symm.trans hrun.run_eq
      rw [ofTokens?_of_stop hend h, ofTokens?_of_stop hend' h']

/-- The openers that a run enters do not reach a limit that does not end it. -/
theorem Run.forall_around_ne {limit : Nat}
    (h : Run ⟨text, limit⟩ (.level 0) { rest := tokens } o) (hshallow : ¬ o.IsTooDeep) :
    ∃ taken, tokens = taken ++ o.rest ∧
      ∀ entry ∈ Openers.entries {} taken, entry.around ≠ limit := by
  have hstart : Phase.Starts [] ({} : Openers) (.level 0) := ⟨rfl, rfl⟩
  obtain ⟨taken, htaken, -, hlimits⟩ := h.walks hshallow hstart rfl
  have hsame : Outcome.Limited limit (Openers.entries {} taken) o
      (run ⟨text, limit⟩ (.level 0) { rest := tokens }) := hlimits limit (Nat.zero_le _)
  rw [h.run_eq] at hsame
  exact ⟨taken, htaken, hsame.forall_ne hshallow⟩

/-- **A sentence is read under every limit that its openers do not reach.** -/
theorem Derives.ofTokens?_eq_ok {last : Token} {limit : Nat} {e : Expr} (h : Derives 0 tokens e)
    (hlast : last.kind = .endOfInput)
    (hentries : ∀ entry ∈ Openers.entries {} tokens, entry.around ≠ limit) (text : List Char) :
    ofTokens? (tokens ++ [last]) text limit = .ok e := by
  have hlong : ofTokens? (tokens ++ [last]) text tokens.length = .ok e :=
    (ofTokens?_eq_ok_iff_derives_of_le hlast h.kind_ne_endOfInput (Int.le_refl _)).mpr h
  obtain ⟨-, ⟨rest, depth, frames⟩, hrun, hend⟩ := ofTokens?_eq_ok_iff.mp hlong
  have hstart : Phase.Starts [] ({} : Openers) (.level 0) := ⟨rfl, rfl⟩
  obtain ⟨taken, htaken, -, hlimits⟩ := hrun.walks id hstart rfl
  obtain ⟨taken', (htaken' : tokens ++ [last] = taken' ++ rest), hderives⟩ :=
    hrun.takes (Nat.zero_le _)
  obtain rfl : taken = taken' := List.append_cancel_right (htaken.symm.trans htaken')
  obtain rfl : taken = tokens := eq_of_append_end h.kind_ne_endOfInput hderives.kind_ne_endOfInput
    hlast htaken hend
  have hsame := (hlimits limit (Nat.zero_le _)).eq_of_forall_ne hentries
  have hrun' := run_spec ⟨text, limit⟩ (.level 0) { rest := taken ++ [last] }
  rw [← hlong]
  exact ofTokens?_congr hrun (hsame ▸ hrun')

/-- What is left of a text that is not empty is what its first expression leaves. -/
theorem unread_parseAll {source : Source}
    (hend : (({ rest := tokens } : State).current source).kind ≠ .endOfInput)
    (h : Run source (.level 0) { rest := tokens } o) :
    unread (parseAll source tokens) = o.rest := by
  rcases exists_run_level source 0 { rest := tokens } with ⟨e, after, hrun⟩ | ⟨failure, hrun⟩
  · obtain rfl : o = .expr e after := h.run_eq.symm.trans hrun.run_eq
    rw [parseAll_of_expr hend h]
    rcases after.finish_cases source e with ⟨-, hfinish⟩ | ⟨-, fault, -, hfinish⟩
    · rw [hfinish]
      rfl
    · rw [hfinish]
      rfl
  · obtain rfl : o = .stop failure := h.run_eq.symm.trans hrun.run_eq
    rw [parseAll_of_stop hend h]
    rfl

/-- If the error is not about the limit, neither is the run. -/
theorem Run.not_isTooDeep_of_ofTokens?
    (hend : (({ rest := tokens } : State).current ⟨text, limit⟩).kind ≠ .endOfInput)
    (h : Run ⟨text, limit⟩ (.level 0) { rest := tokens } o)
    (hne : ∀ bound position, ofTokens? tokens text limit ≠ .error ⟨.tooDeep bound, position⟩) :
    ¬ o.IsTooDeep := by
  cases o with
  | expr | arguments => exact id
  | stop failure =>
    obtain ⟨⟨fault, position⟩, rest⟩ := failure
    rintro ⟨bound, rfl : fault = _⟩
    exact hne bound position (ofTokens?_of_stop hend h)

/-- A higher limit changes no result but the error about the limit. -/
theorem ofTokens?_of_limit_le (hle : limit ≤ limit')
    (hne : ∀ bound position, ofTokens? tokens text limit ≠ .error ⟨.tooDeep bound, position⟩) :
    ofTokens? tokens text limit' = ofTokens? tokens text limit := by
  by_cases hend : (({ rest := tokens } : State).current ⟨text, limit⟩).kind = .endOfInput
  · have hend' : (({ rest := tokens } : State).current ⟨text, limit'⟩).kind = .endOfInput := hend
    rw [ofTokens?_of_empty hend, ofTokens?_of_empty hend']
  · have hrun := run_spec ⟨text, limit⟩ (.level 0) { rest := tokens }
    exact ofTokens?_congr hrun (hrun.of_limit_le (hrun.not_isTooDeep_of_ofTokens? hend hne) hle)

/-- No tokens exceed a limit of their number. -/
theorem ofTokens?_ne_tooDeep (hlimit : tokens.length ≤ limit) (bound : Int) (position : Nat) :
    ofTokens? tokens text limit ≠ .error ⟨.tooDeep bound, position⟩ := by
  intro herror
  have hroom : State.HasRoom ⟨text, limit⟩ { rest := tokens } := by
    rw [State.HasRoom, Nat.zero_add]
    exact hlimit
  by_cases hend : (({ rest := tokens } : State).current ⟨text, limit⟩).kind = .endOfInput
  · exact nomatch herror.symm.trans (ofTokens?_of_empty hend)
  · rcases exists_run_level ⟨text, limit⟩ 0 { rest := tokens } with
      ⟨e, after, hrun⟩ | ⟨failure, hrun⟩
    · rw [ofTokens?_of_expr hend hrun] at herror
      rcases after.finish_cases ⟨text, limit⟩ e with ⟨-, hfinish⟩ | ⟨-, fault, hfault, hfinish⟩
      · rw [hfinish] at herror
        exact nomatch herror
      · rw [hfinish] at herror
        obtain rfl : fault = .tooDeep bound :=
          congrArg GrammarError.fault (Except.error.inj herror)
        rcases hfault with hfault | hfault
        · exact nomatch hfault
        · exact nomatch hfault
    · have hfailure := Except.error.inj ((ofTokens?_of_stop hend hrun).symm.trans herror)
      exact hrun.not_isTooDeep hroom ⟨bound, congrArg GrammarError.fault hfailure⟩

end

/-- **The limit of nesting is exact and does not show.**  Under a limit that no tokens exceed the
parser takes some tokens before it is done.  Under another limit it ends at the first opener among
these that has as many others around it, and if there is none, with the same result.  A higher limit
changes no result but the error about the limit. -/
theorem ofTokens?_nesting_limit (tokens : List Token) (text : List Char) (limit : Nat)
    (unlimited : Int) (hunlimited : tokens.length ≤ unlimited) :
    (∃ taken, tokens = taken ++ unread (parseAll ⟨text, unlimited⟩ tokens) ∧
      ((∀ entry ∈ Openers.entries {} taken, entry.around ≠ limit) →
        ofTokens? tokens text limit = ofTokens? tokens text unlimited) ∧
      ∀ before entry after, Openers.entries {} taken = before ++ entry :: after →
        (∀ earlier ∈ before, earlier.around ≠ limit) → entry.around = limit →
        ∃ error, ofTokens? tokens text limit = .error error ∧
          error.fault = .tooDeep limit ∧ error.position = entry.position ∧
          error.report.errorClass = .grammar ∧ error.report.position = some (entry.position : Int) ∧
          error.report.message =
            "Expression too deeply nested (max depth: " ++ toString limit ++ ")") ∧
    (∀ bound position,
      ofTokens? tokens text unlimited ≠ .error ⟨.tooDeep bound, position⟩) ∧
    ∀ smaller larger : Int, smaller ≤ larger →
      (∀ bound position, ofTokens? tokens text smaller ≠ .error ⟨.tooDeep bound, position⟩) →
      ofTokens? tokens text larger = ofTokens? tokens text smaller := by
  have hshallow := @ofTokens?_ne_tooDeep tokens text unlimited hunlimited
  refine ⟨?_, hshallow, fun smaller larger hle hne => ofTokens?_of_limit_le hle hne⟩
  by_cases hend : (({ rest := tokens } : State).current ⟨text, unlimited⟩).kind = .endOfInput
  · have hend' : (({ rest := tokens } : State).current ⟨text, limit⟩).kind = .endOfInput := hend
    refine ⟨[], ?_, fun _ => ?_, fun before entry after hentries => ?_⟩
    · simp only [parseAll, hend]
      rfl
    · rw [ofTokens?_of_empty hend, ofTokens?_of_empty hend']
    · exact absurd hentries.symm (List.append_ne_nil_of_right_ne_nil _ (List.cons_ne_nil _ _))
  · have hend' : (({ rest := tokens } : State).current ⟨text, limit⟩).kind ≠ .endOfInput := hend
    have hrun := run_spec ⟨text, unlimited⟩ (.level 0) { rest := tokens }
    have hrun' := run_spec ⟨text, limit⟩ (.level 0) { rest := tokens }
    have hstart : Phase.Starts [] ({} : Openers) (.level 0) := ⟨rfl, rfl⟩
    obtain ⟨taken, htaken, -, hlimits⟩ :=
      hrun.walks (hrun.not_isTooDeep_of_ofTokens? hend hshallow) hstart rfl
    have hlimited : Outcome.Limited limit (Openers.entries {} taken)
        (run ⟨text, unlimited⟩ (.level 0) { rest := tokens })
        (run ⟨text, limit⟩ (.level 0) { rest := tokens }) := hlimits limit (Nat.zero_le _)
    refine ⟨taken, (unread_parseAll hend hrun).symm ▸ htaken, fun hnone => ?_,
      fun before entry after hentries hbefore hentry => ?_⟩
    · have hsame := hlimited.eq_of_forall_ne hnone
      exact ofTokens?_congr hrun (hsame ▸ hrun')
    · rw [hentries] at hlimited
      obtain ⟨rest, hstop⟩ := hlimited.eq_stop hbefore hentry
      exact ⟨⟨.tooDeep limit, entry.position⟩, ofTokens?_of_stop hend' (hstop ▸ hrun'), rfl, rfl,
        rfl, rfl, rfl⟩

/-- In `-1 + -(2)` the first prefix operator is no longer open at the parenthesis, which is inside
the second one: one opener is not enough and two are. -/
theorem ofTokens?_nesting_limit_sum :
    let digit (n : Int) : TokenKind := .number ⟨.integer (.ofInt FixedInt.literalType n), none⟩
    let sign (op : ArithmeticOperator) : TokenKind := .operator (.between (.arithmetic op))
    let tokens : List Token := [⟨sign .subtract, 0, 1⟩, ⟨digit 1, 1, 1⟩, ⟨sign .add, 3, 1⟩,
      ⟨sign .subtract, 5, 1⟩, ⟨.openParen, 6, 1⟩, ⟨digit 2, 7, 1⟩, ⟨.closeParen, 8, 1⟩,
      ⟨.endOfInput, 9, 0⟩]
    tokens.length ≤ (8 : Int) ∧
      (∃ error, ofTokens? tokens "-1 + -(2)".toList 1 = .error error ∧ error.position = 6) ∧
      ofTokens? tokens "-1 + -(2)".toList 2 = ofTokens? tokens "-1 + -(2)".toList 8 := by
  intro digit sign tokens
  have hlength : tokens.length ≤ (8 : Int) := by decide
  have hunread : unread (parseAll ⟨"-1 + -(2)".toList, 8⟩ tokens) = [⟨.endOfInput, 9, 0⟩] := by
    with_unfolding_all rfl
  refine ⟨hlength, ?_, ?_⟩
  · obtain ⟨⟨taken, htaken, -, hdeep⟩, -, -⟩ :=
      ofTokens?_nesting_limit tokens "-1 + -(2)".toList 1 8 hlength
    rw [hunread] at htaken
    obtain rfl : tokens.dropLast = taken := by rw [htaken, List.dropLast_concat]
    obtain ⟨error, herror, -, hposition, -⟩ :=
      hdeep [⟨0, 0⟩, ⟨5, 0⟩] ⟨6, 1⟩ [] rfl (by decide) rfl
    exact ⟨error, herror, hposition⟩
  · obtain ⟨⟨taken, htaken, hsame, -⟩, -, -⟩ :=
      ofTokens?_nesting_limit tokens "-1 + -(2)".toList 2 8 hlength
    rw [hunread] at htaken
    obtain rfl : tokens.dropLast = taken := by rw [htaken, List.dropLast_concat]
    exact hsame (by decide)

end TypedCalc.Expr
