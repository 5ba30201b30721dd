import TypedCalc.Calculator
import TypedCalc.Proofs.Expr.NestingLimit
import TypedCalc.Proofs.Token.Compose

/-!
# Parentheses that are open at the end

A text that ends inside parentheses is wrong in nothing else: as many closing parentheses as are
open make an expression of it, and no other number does.

* `Run.isOf_frames`: the frames that the error lists are those of opening parentheses that were
  taken, each with the name in front of it.
* `Derives.opens_eq_closes`: a sentence has as many opening parentheses as closing ones.
* `ofTokens?_of_unclosed`: what the error lists, and which closing parentheses help, for tokens.
* `Calculator.parse_unclosed`: the diagnosis of a text and what comes of following its advice.
-/

namespace TypedCalc

namespace Expr

/-! ## The frames of an error -/

/-- What a parenthesis belongs to that is opened after some tokens. -/
def openingAfter (before : List Token) : Opening :=
  match before.getLast? with
  | some ⟨.name name, _, _⟩ => .call name
  | _ => .group

end Expr

/-- Whether a frame is that of an opening parenthesis among the tokens of a text. -/
def Frame.IsOf (text : List Char) (tokens : List Token) (frame : Frame) : Prop :=
  ∃ before opening after, tokens = before ++ opening :: after ∧ opening.kind = .openParen ∧
    frame = ⟨opening.position, Expr.openingAfter before, snippetAt text opening.position⟩

/-- The end of the text is no opening parenthesis. -/
theorem Frame.IsOf.of_concat {text : List Char} {tokens : List Token} {last : Token} {frame : Frame}
    (h : frame.IsOf text (tokens ++ [last])) (hlast : last.kind = .endOfInput) :
    frame.IsOf text tokens := by
  obtain ⟨before, opening, after, htokens, hkind, rfl⟩ := h
  rcases List.eq_nil_or_concat' after with rfl | ⟨after, token, rfl⟩
  · obtain ⟨-, hsame⟩ := List.append_inj' htokens rfl
    obtain rfl := List.singleton_inj.mp hsame
    exact nomatch hlast.symm.trans hkind
  · rw [← List.cons_append, ← List.append_assoc] at htokens
    obtain ⟨htokens, -⟩ := List.append_inj' htokens rfl
    exact ⟨before, opening, after, htokens, hkind, rfl⟩

namespace Expr

theorem openingAfter_concat (before : List Token) {token : Token}
    (h : ∀ name, token.kind ≠ .name name) : openingAfter (before ++ [token]) = .group := by
  obtain ⟨kind, position, length⟩ := token
  rw [openingAfter, List.getLast?_concat]
  cases kind with
  | name name => exact absurd rfl (h name)
  | _ => rfl

/-- Whether an operand can start after some tokens without making a call of the last one. -/
def Phase.FollowsOn (before : List Token) : Phase → Prop
  | .chain _ _ => True
  | .level _ | .prefixed | .operand | .arguments _ => openingAfter before = .group

section

variable {source : Source} {phase : Phase} {s : State} {tokens before rest : List Token}
  {frames : List Frame} {failure : Stop}

/-- Inside a parenthesis there is one more frame, that of the parenthesis. -/
theorem State.isOf_inside {opened length : Nat} {opening : Opening}
    (hframes : ∀ frame ∈ s.frames, frame.IsOf source.text tokens)
    (htokens : tokens = before ++ ⟨.openParen, opened, length⟩ :: rest)
    (hopening : openingAfter before = opening) :
    ∀ frame ∈ (s.inside source rest opened opening).frames, frame.IsOf source.text tokens :=
  List.forall_mem_cons.mpr ⟨⟨before, _, rest, htokens, rfl, hopening ▸ rfl⟩, hframes⟩

/-- The same of the parenthesis of a call, which stands behind a name. -/
theorem State.isOf_inside_call {name : String} {position opened length length' : Nat}
    (hframes : ∀ frame ∈ s.frames, frame.IsOf source.text tokens)
    (htokens : tokens = before ++ s.rest)
    (h : s.rest = ⟨.name name, position, length⟩ :: ⟨.openParen, opened, length'⟩ :: rest) :
    ∀ frame ∈ (s.inside source rest opened (.call name)).frames, frame.IsOf source.text tokens := by
  have hcall : tokens =
      before ++ [⟨.name name, position, length⟩] ++ ⟨.openParen, opened, length'⟩ :: rest := by
    rw [htokens, h, List.append_assoc, List.singleton_append]
  refine State.isOf_inside hframes hcall ?_
  rw [openingAfter, List.getLast?_concat]

/-- **The frames of an error are those of opening parentheses**, each with the name in front. -/
theorem Run.isOf_frames {o : Outcome} (h : Run source phase s o) (ho : o = .stop failure)
    (hfault : failure.error.fault = .unclosed frames) (before : List Token)
    (htokens : tokens = before ++ s.rest) (hbefore : phase.FollowsOn before)
    (hframes : ∀ frame ∈ s.frames, frame.IsOf source.text tokens) :
    ∀ frame ∈ frames, frame.IsOf source.text tokens := by
  induction h generalizing before with
  | top _ _ ih | levelStop _ _ ih | unprefixed _ _ ih | argumentStop _ _ _ ih =>
    exact ih ho before htokens hbefore hframes
  | level h operand chain ihoperand ihchain =>
    obtain ⟨⟨taken, hrest⟩, -, hsame⟩ := operand.leaves
    exact ihchain ho (before ++ taken) (by rw [htokens, ← hrest, List.append_assoc]) trivial
      (hsame ▸ hframes)
  | @chain level left right s later op position rest o h operand chain ihoperand ihchain =>
    obtain ⟨token, hs, rfl, hop⟩ := infixOfLevel?_eq_some_iff_isInfix.mp h
    obtain ⟨⟨taken, (hrest : taken ++ later.rest = rest)⟩, -, hsame⟩ := operand.leaves
    refine ihchain ho (before ++ token :: taken) ?_ trivial (hsame ▸ hframes)
    rw [htokens, hs, ← hrest, List.append_assoc, List.cons_append]
  | @chainStop level left s op position rest failure' h operand ih =>
    obtain ⟨token, hs, rfl, ⟨symbol, hkind, -⟩, -⟩ := infixOfLevel?_eq_some_iff_isInfix.mp h
    refine ih ho (before ++ [token]) ?_ (openingAfter_concat before ?_) hframes
    · rw [htokens, hs, List.append_assoc, List.singleton_append]
    · simp [hkind]
  | @prefixStop s op position rest failure' h hdeep inner ih =>
    obtain ⟨token, hs, rfl, symbol, hkind, -⟩ := prefixAt?_eq_some_iff_isPrefix.mp h
    refine ih ho (before ++ [token]) ?_ (openingAfter_concat before ?_) hframes
    · rw [htokens, hs, List.append_assoc, List.singleton_append]
    · simp [hkind]
  | group h hdeep inner ih =>
    obtain rfl := Outcome.eq_frames_of_close ho hfault
    obtain ⟨-, -, hsame⟩ := inner.leaves
    exact hsame ▸ State.isOf_inside hframes (h ▸ htokens) hbefore
  | @groupStop s opened length rest failure' h hdeep inner ih =>
    refine ih ho (before ++ [⟨.openParen, opened, length⟩]) ?_
      (openingAfter_concat before (by simp)) (State.isOf_inside hframes (h ▸ htokens) hbefore)
    rw [htokens, h, List.append_assoc, List.singleton_append]
    rfl
  | callEmpty h hdeep hnext =>
    obtain rfl := Outcome.eq_frames_of_close ho hfault
    exact State.isOf_inside_call hframes htokens h
  | call h hdeep hnext inner ih =>
    obtain rfl := Outcome.eq_frames_of_close ho hfault
    obtain ⟨-, -, hsame⟩ := inner.leaves
    exact hsame ▸ State.isOf_inside_call hframes htokens h
  | @callStop s name position opened length length' rest failure' h hdeep hnext inner ih =>
    refine ih ho (before ++ [⟨.name name, position, length⟩] ++
      [⟨.openParen, opened, length'⟩]) ?_ (openingAfter_concat _ (by simp))
      (State.isOf_inside_call hframes htokens h)
    simp [htokens, h, State.inside]
  | @argumentsStop s later name e rest failure' hcomma hclose first hnext others ihfirst ihothers =>
    obtain ⟨⟨taken, hrest⟩, -, hsame⟩ := first.leaves
    obtain ⟨position, length, hlater⟩ := afterComma?_eq_some hnext
    refine ihothers ho (before ++ taken ++ [⟨.comma, position, length⟩]) ?_
      (openingAfter_concat _ (by simp)) (hsame ▸ hframes)
    simp [htokens, ← hrest, hlater]
  | @unexpected s h =>
    cases ho
    exact absurd hfault (s.unexpected_fault_ne source (by simp) (by simp) (by simp))
  | prefixDeep | groupDeep | callDeep | argumentMissing =>
    cases ho
    cases hfault
  | chainEnd | prefixed | number | history | constant | argumentLast | argument => cases ho

end

/-! ## Counting parentheses -/

/-- The number of tokens of a kind. -/
def countKind (kind : TokenKind) (tokens : List Token) : Nat := tokens.countP (·.kind = kind)

theorem countKind_append (kind : TokenKind) (tokens more : List Token) :
    countKind kind (tokens ++ more) = countKind kind tokens + countKind kind more :=
  List.countP_append

theorem countKind_eq_length {kind : TokenKind} {tokens : List Token}
    (h : ∀ token ∈ tokens, token.kind = kind) : countKind kind tokens = tokens.length := by
  rw [countKind, List.countP_eq_length]
  simpa using h

theorem countKind_eq_zero {kind other : TokenKind} {tokens : List Token}
    (h : ∀ token ∈ tokens, token.kind = kind) (hne : kind ≠ other) :
    countKind other tokens = 0 := by
  rw [countKind, List.countP_eq_zero]
  intro token hmem
  simp [h token hmem, hne]

/-- Where no closing parenthesis is without its opening one, the numbers of both say how many are
open. -/
theorem length_openPositions {stack : List Nat} {tokens : List Token}
    (h : countKind .closeParen tokens ≤ stack.length) :
    (openPositions stack tokens).length + countKind .closeParen tokens =
      stack.length + countKind .openParen tokens := by
  fun_induction openPositions stack tokens with
  | case1 => rfl
  | case2 stack position length rest ih =>
    simp [countKind] at h ih ⊢
    omega
  | case3 stack position length rest ih =>
    simp [countKind] at h ih ⊢
    omega
  | case4 stack token rest hopen hclose ih =>
    obtain ⟨kind, position, length⟩ := token
    have hkind : kind ≠ .openParen := fun heq => hopen position length (heq ▸ rfl)
    have hkind' : kind ≠ .closeParen := fun heq => hclose position length (heq ▸ rfl)
    simp [countKind, hkind, hkind'] at h ih ⊢
    omega

/-- **A sentence has as many opening parentheses as closing ones.** -/
theorem Derives.opens_eq_closes {level : Nat} {tokens : List Token} {e : Expr}
    (h : Derives level tokens e) : countKind .openParen tokens = countKind .closeParen tokens := by
  -- with so many open parentheses before the sentence none is missing
  obtain ⟨stack, hstack⟩ : ∃ stack : List Nat, stack.length = countKind .closeParen tokens :=
    ⟨List.replicate _ 0, List.length_replicate⟩
  have hlength := length_openPositions (Nat.le_of_eq hstack.symm)
  rw [h.openPositions_eq] at hlength
  omega

/-- A sentence whose last tokens are closing parentheses has so many open ones before these. -/
theorem Derives.opens_eq_add {level : Nat} {tokens closings : List Token} {e : Expr}
    (h : Derives level (tokens ++ closings) e)
    (hkinds : ∀ closing ∈ closings, closing.kind = .closeParen) :
    countKind .openParen tokens = countKind .closeParen tokens + closings.length := by
  have hbalanced := h.opens_eq_closes
  rwa [countKind_append, countKind_append, countKind_eq_zero hkinds (by simp),
    countKind_eq_length hkinds, Nat.add_zero] at hbalanced

/-- The open parentheses stand in the order in which they were opened. -/
theorem openPositions_sublist (stack : List Nat) (tokens : List Token) :
    (openPositions stack tokens).Sublist ((tokens.map (·.position)).reverse ++ stack) := by
  fun_induction openPositions stack tokens with
  | case1 => simp
  | case2 stack position length rest ih => simpa using ih
  | case3 stack position length rest ih =>
    refine ih.trans ?_
    simpa using (List.tail_sublist stack).trans (List.sublist_cons_self position stack)
  | case4 stack token rest hopen hclose ih =>
    refine ih.trans ?_
    simp

/-! ## Whole expressions -/

/-- Whether frames are those of the parentheses that are open after the tokens of a text, in the
order of the text. -/
structure AreUnclosed (text : List Char) (tokens : List Token) (frames : List Frame) : Prop where
  /-- They stand where these parentheses do. -/
  positions : frames.map (·.position) = (openPositions [] tokens).reverse
  /-- Each of them says what its parenthesis belongs to and how the text goes on. -/
  isOf : ∀ frame ∈ frames, frame.IsOf text tokens

section

variable {tokens closings : List Token} {last : Token} {text : List Char} {limit : Int}
  {error : GrammarError} {frames : List Frame}

/-- Behind an error about open parentheses there is a run that took all tokens. -/
theorem exists_run_of_unclosed (hlast : last.kind = .endOfInput)
    (htokens : ∀ token ∈ tokens, token.kind ≠ .endOfInput)
    (herror : ofTokens? (tokens ++ [last]) text limit = .error error)
    (hfault : error.fault = .unclosed frames) :
    Run ⟨text, limit⟩ (.level 0) { rest := tokens ++ [last] } (.stop ⟨error, [last]⟩) := by
  obtain ⟨⟨_, rest⟩, hparse, rfl⟩ : ∃ failure : Stop,
      parseAll ⟨text, limit⟩ (tokens ++ [last]) = .error failure ∧ failure.error = error := by
    unfold ofTokens? at herror
    split at herror
    · exact nomatch herror
    · rename_i failure hfailure
      exact ⟨failure, hfailure, Except.error.inj herror⟩
  rcases parseAll_eq_error hparse with ⟨-, hempty⟩ | hrun | ⟨e, s, -, hfinish⟩
  · cases hempty
    exact nomatch hfault
  · obtain ⟨hend, -⟩ := (hrun.points rfl).unclosed frames hfault
    obtain ⟨taken, hhalts⟩ := hrun.halts rfl
    have hviable : Viable 0 taken := hhalts.canGoOn (Nat.zero_le _)
    obtain rfl : taken = tokens :=
      eq_of_append_end htokens hviable.kind_ne_endOfInput hlast hhalts.rest hend
    obtain rfl : [last] = rest := List.append_cancel_left hhalts.rest
    exact hrun
  · rcases s.finish_cases ⟨text, limit⟩ e with ⟨-, hok⟩ | ⟨-, fault, hcause, hstop⟩
    · exact nomatch hfinish.symm.trans hok
    · cases hfinish.symm.trans hstop
      obtain rfl : fault = .unclosed frames := hfault
      rcases hcause with hcause | hcause
      · exact nomatch hcause
      · exact nomatch hcause

/-- **Tokens that end inside parentheses** list the open ones, and as many closing ones as are open
make an expression of them under the same limit, while no other number does. -/
theorem ofTokens?_of_unclosed (hlast : last.kind = .endOfInput)
    (htokens : ∀ token ∈ tokens, token.kind ≠ .endOfInput)
    (herror : ofTokens? (tokens ++ [last]) text limit = .error error)
    (hfault : error.fault = .unclosed frames) :
    AreUnclosed text tokens frames.reverse ∧
      countKind .openParen tokens = countKind .closeParen tokens + frames.length ∧
      ∀ (closings : List Token) (last' : Token) (text' : List Char),
        (∀ closing ∈ closings, closing.kind = .closeParen) → last'.kind = .endOfInput →
        ((∃ e, ofTokens? (tokens ++ closings ++ [last']) text' limit = .ok e) ↔
          closings.length = frames.length) := by
  have hrun := exists_run_of_unclosed hlast htokens herror hfault
  have hshallow : ¬ (Outcome.stop ⟨error, [last]⟩).IsTooDeep := by
    rintro ⟨bound, hdeep⟩
    exact nomatch hfault.symm.trans hdeep
  -- what the run took are all tokens, each time that a lemma names it
  obtain ⟨taken, hbreaks⟩ := hrun.breaks rfl
  obtain rfl : tokens = taken := List.append_cancel_right hbreaks.rest
  have hopen := hbreaks.leavesOpen frames hfault
  obtain ⟨limit, rfl⟩ := Int.eq_ofNat_of_zero_le (Int.le_of_lt hopen.limit_pos)
  obtain ⟨taken, hrest, hentries⟩ := hrun.forall_around_ne hshallow
  obtain rfl : tokens = taken := List.append_cancel_right hrest
  have hsentence (closings : List Token) (hlength : closings.length = frames.length)
      (hkinds : ∀ closing ∈ closings, closing.kind = .closeParen) :
      ∃ e, Derives 0 (tokens ++ closings) e :=
    hopen.completes closings hlength hkinds (Nat.zero_le _)
  have hcount : countKind .openParen tokens = countKind .closeParen tokens + frames.length := by
    obtain ⟨e, hderives⟩ := hsentence (List.replicate frames.length ⟨.closeParen, 0, 1⟩)
      List.length_replicate (by simp)
    simpa using hderives.opens_eq_add (by simp)
  refine ⟨⟨?_, ?_⟩, hcount, fun closings last' text' hkinds hlast' => ⟨?_, fun hlength => ?_⟩⟩
  · rw [List.map_reverse, hopen.positions]
    rfl
  · have hframes : ∀ frame ∈ frames, frame.IsOf text (tokens ++ [last]) :=
      hrun.isOf_frames rfl hfault [] rfl rfl nofun
    exact fun frame hmem => (hframes frame (List.mem_reverse.mp hmem)).of_concat hlast
  · rintro ⟨e, hparse⟩
    have hkinds' : ∀ token ∈ tokens ++ closings, token.kind ≠ .endOfInput :=
      List.forall_mem_append.mpr ⟨htokens, fun closing hmem => by simp [hkinds closing hmem]⟩
    have hbalanced := (derives_of_ofTokens?_eq_ok hlast' hkinds' hparse).opens_eq_add hkinds
    omega
  · obtain ⟨e, hderives⟩ := hsentence closings hlength hkinds
    refine ⟨e, hderives.ofTokens?_eq_ok hlast' ?_ text'⟩
    rw [Openers.entries_append, Openers.entries_closings hkinds, List.append_nil]
    exact hentries

end

end Expr

/-! ## Texts -/

theorem GrammarFault.eq_unclosed_of_message {fault : GrammarFault} {wording : LimitWording}
    {missing : String} (h : (fault.report wording).message =
      "Unmatched opening parenthesis - missing " ++ missing) :
    ∃ frames, fault = .unclosed frames := by
  -- the other messages differ in their first eleven characters
  have hstart := congrArg (fun message => message.toList.take 11) h
  cases fault with
  | unclosed frames => exact ⟨frames, rfl⟩
  | _ => simp [report, String.toList_append] at hstart

theorem head?_toList_append {first second : String} {c : Char} (h : first.toList.head? = some c) :
    (first ++ second).toList.head? = some c := by
  obtain ⟨rest, h⟩ := List.head?_eq_some_iff.mp h
  rw [String.toList_append, h, List.cons_append, List.head?_cons]

theorem LexicalFault.head?_digitLimit (limit : Nat) :
    (digitLimit limit).toList.head? = some 'E' := by
  unfold digitLimit
  exact head?_toList_append (head?_toList_append (by decide))

theorem LexicalFault.message_ne (fault : LexicalFault) (missing : String) :
    fault.report.message ≠ "Unmatched opening parenthesis - missing " ++ missing := by
  intro h
  by_cases hconversion : fault.isConversion = true
  · -- what the interpreter says starts with another letter
    have hother : fault.report.message.toList.head? = some 'U' := by
      rw [h]
      exact head?_toList_append (by decide)
    have hfirst : fault.report.message.toList.head? = some 'E' := by
      cases fault with
      | tooManyDigits limit count =>
        exact head?_toList_append (head?_toList_append (head?_toList_append
          (head?_toList_append (head?_digitLimit limit))))
      | tooManyDigitsToWrite limit =>
        exact head?_toList_append (head?_toList_append (head?_digitLimit limit))
      | _ => cases hconversion
    exact absurd (hfirst.symm.trans hother) (by decide)
  · have hstart := congrArg (fun message => message.toList.take 11) h
    cases fault with
    | tooManyDigits | tooManyDigitsToWrite => exact hconversion rfl
    | _ => simp [report, String.toList_append] at hstart

namespace Calculator

/-- **The diagnosis of parentheses that are open at the end of a text is right, and its advice
works.**  The message says how many opening parentheses have no closing one, and the context lists
these in the order of the text, each with what it belongs to.  With as many closing parentheses
behind it the text is an expression under the same limit, and with any other number it is not. -/
theorem parse_unclosed (limit : Int) (text missing : String) (error : CalculatorError)
    (wording : LimitWording) (herror : parse limit text = .error error)
    (hmessage : (error.report wording).message =
      "Unmatched opening parenthesis - missing " ++ missing) :
    ∃ (words : List Token) (frames : List Frame),
      Token.ofText? text = .ok (words ++ [⟨.endOfInput, text.length, 0⟩]) ∧
      missing = toString frames.length ++ " closing " ++
        (if frames.length = 1 then "parenthesis" else "parentheses") ∧
      Expr.countKind .openParen words = Expr.countKind .closeParen words + frames.length ∧
      (error.report wording).context = "Unclosed parentheses:\n" ++
        String.intercalate "\n" (GrammarFault.frameLines frames) ∧
      Expr.AreUnclosed text.toList words frames ∧
      (frames.map (·.position)).Pairwise (· < ·) ∧
      ∀ count : Nat,
        (∃ e, parse limit (text ++ String.ofList (List.replicate count ')')) = .ok e) ↔
          count = frames.length := by
  rw [parse, Result.bind_eq_error_iff] at herror
  rcases herror with herror | ⟨tokens, hscan, herror⟩
  · obtain ⟨fault, -, rfl⟩ := Result.mapError_eq_error_iff.mp herror
    exact absurd (fault.message_report.symm.trans hmessage) (fault.fault.message_ne missing)
  obtain ⟨⟨fault, position⟩, hgrammar, rfl⟩ := Result.mapError_eq_error_iff.mp herror
  obtain ⟨frames, rfl⟩ := GrammarFault.eq_unclosed_of_message hmessage
  have hscan := Result.mapError_eq_ok_iff.mp hscan
  obtain ⟨words, rfl, hpartitions⟩ := Token.exists_partitions hscan
  have hwords : ∀ token ∈ words, token.kind ≠ .endOfInput := by
    intro token hmem
    obtain ⟨_, _, _, -, -, -, hword, -⟩ := hpartitions.standsIn token hmem
    exact hword.kind_ne_endOfInput
  obtain ⟨hunclosed, hcount, hadvice⟩ := Expr.ofTokens?_of_unclosed rfl hwords hgrammar rfl
  refine ⟨words, frames.reverse, hscan, ?_, ?_, rfl, hunclosed, ?_, fun count => ?_⟩
  · have hcounted : "Unmatched opening parenthesis - missing " ++ toString frames.length ++
        " closing " ++ (if frames.length = 1 then "parenthesis" else "parentheses") =
          "Unmatched opening parenthesis - missing " ++ missing := hmessage
    rw [String.append_assoc, String.append_assoc] at hcounted
    rw [List.length_reverse, String.append_assoc]
    exact (String.append_right_inj _).mp hcounted.symm
  · rwa [List.length_reverse]
  · have hincreasing : (words.map (·.position)).Pairwise (· < ·) := by
      refine List.pairwise_map.mpr (hpartitions.apart.imp_of_mem fun hmem _ happart => ?_)
      have hpos := (hpartitions.standsIn _ hmem).length_pos
      omega
    have hsublist := (Expr.openPositions_sublist [] words).reverse
    rw [List.append_nil, List.reverse_reverse] at hsublist
    rw [hunclosed.positions]
    exact hincreasing.sublist hsublist
  · rw [List.length_reverse]
    obtain ⟨closings, rfl, hkinds, last, hlast, htext⟩ := Token.exists_ofText?_closings hscan count
    rw [← hadvice closings last _ hkinds hlast, parse, htext]
    exact exists_congr fun e => Result.mapError_eq_ok_iff

/-- In `max(1, (2` the call and the group in it are open, so two closing parentheses are missing. -/
theorem parse_unclosed_call :
    let frames : List Frame := [⟨3, .call "max", "(1, (2"⟩, ⟨7, .group, "(2"⟩]
    let error : CalculatorError := .grammar ⟨.unclosed frames.reverse, 7⟩
    parse 50 "max(1, (2" = .error error ∧
      error.report.message =
        "Unmatched opening parenthesis - missing " ++ "2 closing parentheses" ∧
      error.report.context = "Unclosed parentheses:\n" ++
        "  1. call to max at position 3: (1, (2\n  2. parenthesized expression at position 7: (2" ∧
      ∀ count : Nat,
        (∃ e, parse 50 ("max(1, (2" ++ String.ofList (List.replicate count ')')) = .ok e) ↔
          count = 2 := by
  intro frames error
  have herror : parse 50 "max(1, (2" = .error error := by with_unfolding_all rfl
  have hmessage : error.report.message =
      "Unmatched opening parenthesis - missing " ++ "2 closing parentheses" := by decide
  obtain ⟨words, frames', hwords, -, hcount, -, -, -, hadvice⟩ :=
    parse_unclosed 50 "max(1, (2" "2 closing parentheses" error {} herror hmessage
  have htokens : ∃ tokens, Token.ofText? "max(1, (2" = .ok tokens ∧
      Expr.countKind .openParen tokens = 2 ∧ Expr.countKind .closeParen tokens = 0 :=
    ⟨_, by with_unfolding_all rfl, by decide, by decide⟩
  obtain ⟨tokens, hscan, hopens, hcloses⟩ := htokens
  obtain rfl := Except.ok.inj (hscan.symm.trans hwords)
  rw [Expr.countKind_append] at hopens hcloses
  have hlength : frames'.length = 2 := by
    have hend : Expr.countKind .openParen [⟨.endOfInput, "max(1, (2".length, 0⟩] = 0 := by decide
    omega
  exact ⟨herror, hmessage, by decide, hlength ▸ hadvice⟩

end Calculator

end TypedCalc
