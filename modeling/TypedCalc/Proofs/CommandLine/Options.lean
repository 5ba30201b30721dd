import TypedCalc.CommandLine.Options
import TypedCalc.Proofs.Result

/-!
# More words on a command line

A command line that asks for a run is complete: no switch in it waits for a value, and nothing is
left over.  So what follows it is read as if it stood alone, from the options so far.

* `CommandLine.completes_of_read`: a command line that asks for a run is complete.
* `CommandLine.ofArguments_ownArguments`: an expression after the words that several runs share, and
  the switch for a run that has nothing to do with the history.
-/

namespace TypedCalc.CommandLine

/-- Whether words are complete: they give options, from where any more words are read. -/
structure Completes (progress : Progress) (ws : List Word) (options : Options) : Prop where
  leftOver : progress.leftOver = []
  separator : .separator ∉ ws
  ambiguous : ∀ text, .ambiguous text ∉ ws
  append : ∀ more, read progress (ws ++ more) = read { options := options } more

namespace Completes

variable {progress : Progress} {options : Options} {rest : List Word}

theorem nil (h : progress.leftOver = []) : Completes progress [] progress.options where
  leftOver := h
  separator := List.not_mem_nil
  ambiguous _ := List.not_mem_nil
  append more := by
    obtain ⟨options, leftOver⟩ := progress
    cases h
    rfl

/-- Words that are read in one go. -/
theorem taken {after : Progress} (ws : List Word) (h : Completes after rest options)
    (hleftOver : after.leftOver = progress.leftOver) (hseparator : .separator ∉ ws)
    (hambiguous : ∀ text, .ambiguous text ∉ ws)
    (hread : ∀ more, read progress (ws ++ more) = read after more) :
    Completes progress (ws ++ rest) options where
  leftOver := hleftOver.symm.trans h.leftOver
  separator := by
    rw [List.mem_append, not_or]
    exact ⟨hseparator, h.separator⟩
  ambiguous text := by
    rw [List.mem_append, not_or]
    exact ⟨hambiguous text, h.ambiguous text⟩
  append more := by rw [List.append_assoc, hread, h.append]

end Completes

theorem completes_of_read {progress : Progress} {ws : List Word} {options : Options}
    (h : read progress ws = .ok (.run options)) : Completes progress ws options := by
  fun_induction read progress ws with
  | case1 progress hempty =>
    cases h
    exact .nil (List.isEmpty_iff.mp hempty)
  | case3 progress text rest ih | case4 progress text rest ih | case5 progress rest ih =>
    exact absurd (ih h).leftOver (List.append_ne_nil_of_right_ne_nil _ (List.cons_ne_nil _ _))
  | case7 progress switch htakes value rest ih =>
    obtain ⟨assigned, hassign, h⟩ := Result.bind_eq_ok_iff.mp h
    refine .taken [.long switch (some value)] (ih assigned h) rfl (by simp) (by simp) fun more => ?_
    rw [List.singleton_append, read, if_pos htakes, hassign]
    rfl
  | case8 progress switch htakes value rest ih =>
    obtain ⟨assigned, hassign, h⟩ := Result.bind_eq_ok_iff.mp h
    refine .taken [.long switch none, .argument value] (ih assigned h) rfl (by simp) (by simp)
      fun more => ?_
    rw [List.cons_append, List.singleton_append, read, if_pos htakes, hassign]
    rfl
  | case12 progress switch attached rest htakes hattached hhelp ih =>
    refine .taken [.long switch attached] (ih h) rfl (by simp) (by simp) fun more => ?_
    rw [List.singleton_append, read.eq_def]
    dsimp only
    rw [if_neg htakes, if_neg hattached, if_neg hhelp]
  | case15 progress switch attached plain unknown rest hcluster hhelp stray ih =>
    have hcompletes := ih h
    have hstray : stray = [] := (List.append_eq_nil_iff.mp hcompletes.leftOver).2
    refine .taken [.short switch attached] hcompletes ?_ (by simp) (by simp) fun more => ?_
    · show progress.leftOver ++ stray = progress.leftOver
      rw [hstray, List.append_nil]
    · rw [List.singleton_append, read.eq_def]
      dsimp only
      rw [hcluster]
      dsimp only
      rw [if_neg hhelp]
  | case17 progress switch attached plain valued value unknown rest hcluster hhelp ih =>
    obtain ⟨assigned, hassign, h⟩ := Result.bind_eq_ok_iff.mp h
    refine .taken [.short switch attached] (ih assigned h) rfl (by simp) (by simp) fun more => ?_
    rw [List.singleton_append, read.eq_def]
    dsimp only
    rw [hcluster]
    dsimp only
    rw [if_neg hhelp, hassign]
    rfl
  | case19 progress switch attached plain valued unknown value rest hcluster hhelp ih =>
    obtain ⟨assigned, hassign, h⟩ := Result.bind_eq_ok_iff.mp h
    refine .taken [.short switch attached, .argument value] (ih assigned h) rfl (by simp) (by simp)
      fun more => ?_
    rw [List.cons_append, List.singleton_append, read.eq_def]
    dsimp only
    rw [hcluster]
    dsimp only
    rw [if_neg hhelp, hassign]
    rfl
  | _ => exact nomatch h

/-! ## Whole command lines -/

theorem words_append {front : List String} (h : .separator ∉ words front) (more : List String) :
    words (front ++ more) = words front ++ words more := by
  induction front with
  | nil => rfl
  | cons text rest ih =>
    rw [List.cons_append, words, words] at *
    split at h
    · exact absurd List.mem_cons_self h
    · rename_i word hword
      rw [List.mem_cons, not_or] at h
      rw [ih h.2]
      cases htext : Word.ofText text with
      | separator => exact absurd htext hword
      | _ => rfl

theorem ofArguments_eq_ok_iff {arguments : List String} {request : Request} :
    Request.ofArguments arguments = .ok request ↔
      (∀ text, .ambiguous text ∉ words arguments) ∧ read {} (words arguments) = .ok request := by
  unfold Request.ofArguments
  dsimp only
  split
  · rename_i hsome
    obtain ⟨word, hmem, hword⟩ := List.exists_of_findSome?_eq_some hsome
    refine ⟨nofun, fun h => ?_⟩
    cases word with
    | ambiguous text => exact absurd hmem (h.1 text)
    | _ => exact nomatch hword
  · rename_i hnone
    rw [List.findSome?_eq_none_iff] at hnone
    exact ⟨fun h => ⟨fun text hmem => (nomatch hnone _ hmem), h⟩, fun h => h.2⟩

/-- **More words** after a command line that asks for a run are read from its options. -/
theorem ofArguments_append {shared more : List String} {options : Options} {request : Request}
    (h : Request.ofArguments shared = .ok (.run options))
    (hambiguous : ∀ text, .ambiguous text ∉ words more)
    (hmore : read { options := options } (words more) = .ok request) :
    Request.ofArguments (shared ++ more) = .ok request := by
  obtain ⟨hnone, hread⟩ := ofArguments_eq_ok_iff.mp h
  have hcompletes := completes_of_read hread
  rw [ofArguments_eq_ok_iff, words_append hcompletes.separator, hcompletes.append]
  refine ⟨fun text => ?_, hmore⟩
  rw [List.mem_append, not_or]
  exact ⟨hnone text, hambiguous text⟩

/-- Everything after the equals sign is the expression. -/
theorem ofText_expression (text : String) :
    Word.ofText ("--expr=" ++ text) = .long .expression (some text.toList) := by
  have htext : ("--expr=" ++ text).toList = '-' :: '-' :: ("expr=".toList ++ text.toList) := by
    rw [String.toList_append]
    rfl
  have hlong : Word.ofText ("--expr=" ++ text) = Word.ofLong ("expr=".toList ++ text.toList) := by
    rw [Word.ofText, htext]
    rfl
  have hname : ("expr=".toList ++ text.toList).takeWhile (· != '=') = "expr".toList := rfl
  have hcontains : ("expr=".toList ++ text.toList).contains '=' = true := rfl
  have hswitch : Switch.ofLongName? "expr".toList = some .expression := by decide
  rw [hlong, Word.ofLong]
  simp only [hname, hcontains, hswitch, if_true]
  rfl

theorem ofText_noHistory : Word.ofText "--no-history" = .long .noHistory none := by decide

/-- The words of a run after those that several runs share: its expression, and whether it is a run
that has nothing to do with the history. -/
def ownArguments (text : String) (isolated : Bool) : List String :=
  ("--expr=" ++ text) :: if isolated then ["--no-history"] else []

theorem words_ownArguments (text : String) (isolated : Bool) :
    words (ownArguments text isolated) = .long .expression (some text.toList) ::
      if isolated then [.long .noHistory none] else [] := by
  rw [ownArguments, words, ofText_expression]
  cases isolated with
  | false => rfl
  | true =>
    rw [if_pos rfl, if_pos rfl, words, ofText_noHistory]
    rfl

/-- **The options of a run** are the shared ones with its expression and its switch. -/
theorem ofArguments_ownArguments {shared : List String} {options : Options}
    (h : Request.ofArguments shared = .ok (.run options)) (hfile : options.file = none)
    (hhistory : options.noHistory = false) (text : String) (isolated : Bool) :
    Request.ofArguments (shared ++ ownArguments text isolated) =
      .ok (.run { options with expression := some text, noHistory := isolated }) := by
  have htakes : Switch.expression.takesValue = true := rfl
  have hassign : options.assign (String.ofList text.toList) .expression =
      .ok { options with expression := some text } := by
    rw [Options.assign, hfile, String.ofList_toList]
    rfl
  refine ofArguments_append h ?_ ?_
  · intro other
    rw [words_ownArguments]
    cases isolated <;> simp
  · rw [words_ownArguments, read, if_pos htakes, hassign]
    cases isolated with
    | false =>
      cases options
      cases hhistory
      rfl
    | true => rfl

end TypedCalc.CommandLine
