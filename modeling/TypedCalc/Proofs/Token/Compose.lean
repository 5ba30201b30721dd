import TypedCalc.Proofs.Token.Partition
import TypedCalc.Proofs.Token.Shift

/-!
# Scans of texts put together

A text can be cut where a word starts, and a blank or a closing parenthesis can be put where a word
ends: no word reads on across either.  So the scan of a text is that of its front and that of its
back, and what tokens say does not depend on the blanks between them.

* `TokenKind.EndsBefore.shorten`, `TokenKind.EndsBefore.append_divider`: what ends a word still does
  when it is cut short or a divider is put behind it.
* `Token.Scans.exists_cut`: a scan cut where a word starts.
* `Token.Scans.exists_scansBeforeDivider`: a scan with a divider behind it.
* `Token.scan_compositional`: both, for whole texts.
* `Token.exists_ofText?_closings`: a text with closing parentheses behind it.
-/

namespace TypedCalc

/-! ## Ends of words -/

theorem continuesNumber_of_isBlank {c : Char} (h : Text.isBlank c = true) :
    continuesNumber c = false := by
  rw [Bool.eq_false_iff]
  intro hcontinues
  exact Bool.false_ne_true ((Token.isBlank_of_continuesNumber hcontinues).symm.trans h)

theorem isNameChar_of_isBlank {c : Char} (h : Text.isBlank c = true) : isNameChar c = false := by
  rw [Bool.eq_false_iff]
  intro hname
  exact Bool.false_ne_true
    ((continuesNumber_of_isBlank h).symm.trans (continuesNumber_of_isNameChar hname))

theorem continuesHistory_of_isBlank {c : Char} (h : Text.isBlank c = true) :
    continuesHistory c = false := by
  have hpoint : c ≠ '.' := by
    rintro rfl
    exact absurd h (by decide)
  rw [continuesHistory, isNameChar_of_isBlank h, beq_eq_false_iff_ne.mpr hpoint, Bool.or_false]

/-- Whether a character divides words: no number, reference or name goes on with it, and it is in
no operator symbol. -/
structure IsDivider (c : Char) : Prop where
  number : continuesNumber c = false
  history : continuesHistory c = false
  name : isNameChar c = false
  symbol : ∀ entry ∈ OperatorSymbol.table, c ∉ entry.1

theorem isDivider_of_isBlank {c : Char} (h : Text.isBlank c = true) : IsDivider c where
  number := continuesNumber_of_isBlank h
  history := continuesHistory_of_isBlank h
  name := isNameChar_of_isBlank h
  symbol := by
    intro entry hentry hmem
    have hword := (Token.IsWord.operator hentry).isBlank_eq_false c hmem
    exact absurd (hword.symm.trans h) Bool.false_ne_true

theorem isDivider_closeParen : IsDivider ')' :=
  ⟨by decide, by decide, by decide, by decide⟩

namespace TokenKind

variable {kind : TokenKind} {front back more : List Char} {c : Char}

/-- A property of the next character, if there is one, holds of the next one of a shorter text. -/
theorem forall_head?_shorten {p : Char → Prop} (h : ∀ c ∈ back.head?, p c)
    (hfront : front <+: back) : ∀ c ∈ front.head?, p c := by
  obtain ⟨rest, rfl⟩ := hfront
  cases front with
  | nil => exact fun _ hc => absurd hc (Option.not_mem_none _)
  | cons c front => exact h

theorem forall_head?_append {p : Char → Prop} (h : ∀ c ∈ front.head?, p c) (hc : p c) :
    ∀ d ∈ (front ++ c :: more).head?, p d := by
  cases front with
  | nil =>
    rintro _ ⟨⟩
    exact hc
  | cons => exact h

/-- **A word that ends before a text ends before any shorter one.** -/
theorem EndsBefore.shorten (h : kind.EndsBefore back) (hfront : front <+: back) :
    kind.EndsBefore front := by
  cases kind with
  | number | history | name => exact forall_head?_shorten h hfront
  | operator symbol =>
    intro entry hentry hstarts
    refine h entry hentry (hstarts.trans ?_)
    exact (List.prefix_append_right_inj _).mpr hfront
  | openParen | closeParen | comma | endOfInput => trivial

/-- **A word that ends before a text ends there with a divider behind the text.** -/
theorem EndsBefore.append_divider (h : kind.EndsBefore front) (hdivider : IsDivider c) :
    kind.EndsBefore (front ++ c :: more) := by
  cases kind with
  | number => exact forall_head?_append h hdivider.number
  | history => exact forall_head?_append h hdivider.history
  | name => exact forall_head?_append h hdivider.name
  | operator symbol =>
    intro entry hentry hstarts
    rw [← List.append_assoc] at hstarts
    refine h entry hentry ?_
    rcases List.prefix_or_prefix_of_prefix hstarts (List.prefix_append _ (c :: more)) with
      hshort | ⟨rest, hrest⟩
    · exact hshort
    · -- an entry that went on behind the text would have the divider in it
      cases rest with
      | nil =>
        rw [List.append_nil] at hrest
        exact hrest ▸ List.prefix_refl _
      | cons d rest =>
        rw [← hrest] at hstarts
        obtain ⟨rfl, -⟩ := List.cons_prefix_cons.mp ((List.prefix_append_right_inj _).mp hstarts)
        refine absurd ?_ (hdivider.symbol entry hentry)
        rw [← hrest]
        simp
  | openParen | closeParen | comma | endOfInput => trivial

end TokenKind

namespace Token

/-! ## Where words start -/

/-- Whether a scan of a text that starts at a position leaves a place open: a character stands there
that is not blank and belongs to no token. -/
def Scan.LeavesOpen (start : Nat) (cs : List Char) (scan : Scan) (place : Nat) : Prop :=
  ∃ i c, place = start + i ∧ cs[i]? = some c ∧ Text.isBlank c = false ∧
    ∀ token ∈ scan.tokens, ¬ token.Covers place

/-- Whether a word of a text starts at a place: a token, or the word that no token could be read
from, which starts at the first place that is left open. -/
def Scan.StartsWord (start : Nat) (cs : List Char) (scan : Scan) (place : Nat) : Prop :=
  (∃ token ∈ scan.tokens, token.position = place) ∨
    scan.LeavesOpen start cs place ∧ ∀ other, scan.LeavesOpen start cs other → place ≤ other

section

variable {start place : Nat} {cs rest : List Char} {scan more : Scan}

/-- Characters in front of a text leave no place open if they are blank or belong to tokens. -/
theorem Scan.leavesOpen_append_iff (first : List Char)
    (hfirst : ∀ i c, first[i]? = some c → Text.isBlank c = false →
      ∃ token ∈ scan.tokens, token.Covers (start + i))
    (hrest : ∀ place, start + first.length ≤ place →
      ((∃ token ∈ scan.tokens, token.Covers place) ↔ ∃ token ∈ more.tokens, token.Covers place)) :
    scan.LeavesOpen start (first ++ rest) place ↔
      more.LeavesOpen (start + first.length) rest place := by
  have hopen {scan : Scan} :
      (∀ token ∈ scan.tokens, ¬ token.Covers place) ↔
        ¬ ∃ token ∈ scan.tokens, token.Covers place := by
    simp only [not_exists, not_and]
  unfold LeavesOpen
  simp only [hopen]
  constructor
  · rintro ⟨i, c, hplace, hc, hblank, hnone⟩
    have hi : first.length ≤ i := by
      by_contra hlt
      rw [List.getElem?_append_left (Nat.lt_of_not_le hlt)] at hc
      exact hnone (hplace ▸ hfirst i c hc hblank)
    rw [List.getElem?_append_right hi] at hc
    refine ⟨i - first.length, c, by omega, hc, hblank, ?_⟩
    rwa [← hrest place (by omega)]
  · rintro ⟨i, c, hplace, hc, hblank, hnone⟩
    refine ⟨first.length + i, c, by omega, ?_, hblank, ?_⟩
    · rw [List.getElem?_append_right (by omega), Nat.add_sub_cancel_left]
      exact hc
    · rwa [hrest place (by omega)]

theorem Scan.StartsWord.blank {c : Char} (hblank : Text.isBlank c = true)
    (h : scan.StartsWord start (c :: rest) place) : scan.StartsWord (start + 1) rest place := by
  have hopen (place : Nat) :
      scan.LeavesOpen start (c :: rest) place ↔ scan.LeavesOpen (start + 1) rest place := by
    refine leavesOpen_append_iff [c] (fun i d hd hnot => ?_) fun _ _ => Iff.rfl
    obtain rfl := List.mem_singleton.mp (List.mem_of_getElem? hd)
    exact absurd (hnot.symm.trans hblank) Bool.false_ne_true
  simpa only [StartsWord, hopen] using h

theorem Scan.StartsWord.word {word : List Char} {kind : TokenKind}
    (h : (scan.prepend [⟨kind, start, word.length⟩]).StartsWord start (word ++ rest) place) :
    place = start ∨ scan.StartsWord (start + word.length) rest place := by
  have hmem (token : Token) : token ∈ (scan.prepend [⟨kind, start, word.length⟩]).tokens ↔
      token = ⟨kind, start, word.length⟩ ∨ token ∈ scan.tokens := List.mem_cons
  have hopen (place : Nat) :
      (scan.prepend [⟨kind, start, word.length⟩]).LeavesOpen start (word ++ rest) place ↔
        scan.LeavesOpen (start + word.length) rest place := by
    refine leavesOpen_append_iff word (fun i c hc _ => ?_) fun place hplace => ?_
    · have hi := (List.getElem?_eq_some_iff.mp hc).1
      exact ⟨_, (hmem _).mpr (.inl rfl), Nat.le_add_right _ _, Nat.add_lt_add_left hi _⟩
    · simp only [hmem, or_and_right, exists_or, exists_eq_left]
      refine or_iff_right fun hcovers => ?_
      exact absurd hcovers.2 (Nat.not_lt.mpr hplace)
  simp only [StartsWord, hopen, hmem] at h
  rcases h with ⟨token, rfl | htoken, hplace⟩ | hleast
  · exact .inl hplace.symm
  · exact .inr (.inl ⟨token, htoken, hplace⟩)
  · exact .inr (.inr hleast)

/-- Where no word can be read, it is the word that starts there which cannot be read. -/
theorem Scan.StartsWord.stuck {c : Char} {error : LexicalError} (hblank : Text.isBlank c = false)
    (h : Scan.StartsWord start (c :: rest) ⟨[], some error⟩ place) : place = start := by
  rcases h with ⟨_, ⟨⟩, -⟩ | ⟨⟨i, -, rfl, -⟩, hleast⟩
  have hle := hleast start ⟨0, c, rfl, rfl, hblank, fun _ hmem => absurd hmem List.not_mem_nil⟩
  omega

end

/-! ## Cutting a text -/

section

variable {position place : Nat} {cs : List Char} {scan : Scan}

theorem scansAs_nil (position : Nat) (rest : List Char) : ScansAs position [] rest [] := rfl

/-- **A scan can be cut where a word starts**: the front is scanned as the tokens that stand in it,
whether the back follows or nothing does. -/
theorem Scans.exists_cut (h : Scans position cs scan)
    (hstarts : scan.StartsWord position cs place) :
    ∃ front back before, cs = front ++ back ∧ place = position + front.length ∧
      ScansAs position front back before ∧ ScansAs position front [] before ∧
      ∀ token ∈ before, token.position < place := by
  have hhere (position : Nat) (cs : List Char) :
      ∃ front back before, cs = front ++ back ∧ position = position + front.length ∧
        ScansAs position front back before ∧ ScansAs position front [] before ∧
        ∀ token ∈ before, token.position < position :=
    ⟨[], cs, [], rfl, rfl, scansAs_nil position cs, scansAs_nil position [],
      fun _ hmem => absurd hmem List.not_mem_nil⟩
  induction h with
  | atEnd position =>
    obtain rfl : place = position := by
      rcases hstarts with ⟨token, htoken, rfl⟩ | ⟨⟨_, _, _, ⟨⟩, _⟩, _⟩
      rw [List.mem_singleton.mp htoken]
    exact hhere place []
  | @blank position c rest scan hblank more ih =>
    obtain ⟨front, back, before, rfl, hplace, hback, hend, hbefore⟩ := ih (hstarts.blank hblank)
    refine ⟨c :: front, back, before, rfl, ?_, (scansAs_blank position hblank _).append hback,
      (scansAs_blank position hblank _).append hend, hbefore⟩
    rw [List.length_cons]
    omega
  | @word position word rest kind scan hword hends more ih =>
    rcases hstarts.word with rfl | hstarts
    · exact hhere _ _
    obtain ⟨front, back, before, rfl, hplace, hback, hend, hbefore⟩ := ih hstarts
    have hfront : kind.EndsBefore (front ++ []) :=
      hends.shorten (by rw [List.append_nil]; exact List.prefix_append front back)
    refine ⟨word ++ front, back, _, (List.append_assoc ..).symm, ?_,
      (hword.scansAs hends position).append hback, (hword.scansAs hfront position).append hend, ?_⟩
    · rw [List.length_append]
      omega
    · refine List.forall_mem_cons.mpr ⟨?_, hbefore⟩
      have hpos := List.length_pos_of_ne_nil hword.ne_nil
      dsimp only
      omega
  | @stuck position c rest error hblank herror =>
    obtain rfl := hstarts.stuck hblank
    exact hhere _ _

/-! ## Blanks -/

/-- Blanks are passed over. -/
theorem scansAs_blanks {blanks : List Char} (h : ∀ c ∈ blanks, Text.isBlank c = true)
    (position : Nat) (rest : List Char) : ScansAs position blanks rest [] := by
  induction blanks generalizing position with
  | nil => exact scansAs_nil position rest
  | cons c blanks ih =>
    obtain ⟨hc, hblanks⟩ := List.forall_mem_cons.mp h
    exact (scansAs_blank position hc (blanks ++ rest)).append (ih hblanks (position + 1))

/-- Whether a text is scanned as some tokens if a divider is behind it. -/
def ScansBeforeDivider (position : Nat) (cs : List Char) (words : List Token) : Prop :=
  ∀ c rest, IsDivider c → ScansAs position cs (c :: rest) words

/-- **A scan that comes to the end goes on alike behind a divider.** -/
theorem Scans.exists_scansBeforeDivider (h : Scans position cs scan) (hdone : scan.failure = none) :
    ∃ words, scan.tokens = words ++ [⟨.endOfInput, position + cs.length, 0⟩] ∧
      ScansBeforeDivider position cs words := by
  refine h.exists_words (fun position c rest _ => scansAs_nil position (c :: rest)) ?_ ?_ hdone
  · intro position c rest words hblank hwords d back hd
    exact (scansAs_blank position hblank _).append (hwords d back hd)
  · intro position word rest words kind hword hends hwords d back hd
    exact (hword.scansAs (hends.append_divider hd) position).append (hwords d back hd)

end

/-! ## Whole texts -/

/-- The tokens of a scan that start before a place. -/
def Scan.before (scan : Scan) (place : Nat) : List Token :=
  scan.tokens.filter fun token => token.position < place

/-- Tokens in front of a place and a scan from that place on. -/
theorem Scan.before_prepend_shift {tokens : List Token} {place : Nat}
    (h : ∀ token ∈ tokens, token.position < place) (scan : Scan) :
    ((scan.shift place).prepend tokens).before place = tokens := by
  have hfront : tokens.filter (fun token => token.position < place) = tokens :=
    List.filter_eq_self.mpr fun token hmem => decide_eq_true (h token hmem)
  have hback : (scan.shift place).tokens.filter (fun token => token.position < place) = [] := by
    refine List.filter_eq_nil_iff.mpr fun token hmem => ?_
    obtain ⟨token, -, rfl⟩ := List.mem_map.mp hmem
    rw [decide_eq_true_eq, Nat.not_lt]
    exact Nat.le_add_left place token.position
  rw [before, prepend, List.filter_append, hfront, hback, List.append_nil]

/-- A text that is scanned as tokens whatever follows. -/
theorem ScansAs.scan_eq {front back : List Char} {tokens : List Token} {text : String}
    (h : ScansAs 0 front back tokens) (htext : text.toList = front ++ back) :
    scan text = ((scan (String.ofList back)).shift front.length).prepend tokens := by
  rw [scan, scan, htext, h, Nat.zero_add, scanFrom_eq_shift, String.toList_ofList]

/-- **A text cut where a word starts.** -/
theorem scan_cut {text : String} {place : Nat}
    (h : (scan text).StartsWord 0 text.toList place) :
    ofText? (String.ofList (text.toList.take place)) =
        .ok ((scan text).before place ++ [⟨.endOfInput, place, 0⟩]) ∧
      scan text = ((scan (String.ofList (text.toList.drop place))).shift place).prepend
        ((scan text).before place) := by
  obtain ⟨front, back, before, htext, hplace, hback, hend, hbefore⟩ :=
    (scans_scanFrom 0 text.toList).exists_cut h
  rw [Nat.zero_add] at hplace
  subst hplace
  have hscan := hback.scan_eq htext
  have hbeforeEq : (scan text).before front.length = before := by
    rw [hscan, Scan.before_prepend_shift hbefore]
  rw [hbeforeEq, htext, List.take_left, List.drop_left]
  refine ⟨?_, hscan⟩
  rw [← String.toList_ofList (l := front)] at hend
  rw [ofText?_of_scansAs hend, ← String.length_toList, String.toList_ofList]

/-- **Blanks behind a text** that is scanned to its end. -/
theorem scan_append_blanks {first blanks : String} {tokens : List Token}
    (hfirst : ofText? first = .ok tokens) (hne : blanks ≠ "")
    (hblanks : ∀ c ∈ blanks.toList, Text.isBlank c = true) (second : String) :
    scan (first ++ blanks ++ second) =
      ((scan second).shift (first.length + blanks.length)).prepend tokens.dropLast := by
  have hscans : Scans 0 first.toList (scan first) := scans_scanFrom 0 first.toList
  rw [scan_of_ofText? hfirst] at hscans
  obtain ⟨words, htokens, hwords⟩ := hscans.exists_scansBeforeDivider rfl
  obtain ⟨c, more, hcs⟩ := List.exists_cons_of_ne_nil (mt String.toList_eq_nil_iff.mp hne)
  have hc : Text.isBlank c = true := hblanks c (by rw [hcs]; exact List.mem_cons_self)
  have hfront := hwords c (more ++ second.toList) (isDivider_of_isBlank hc)
  rw [← List.cons_append, ← hcs] at hfront
  have htext : (first ++ blanks ++ second).toList =
      first.toList ++ blanks.toList ++ second.toList := by simp
  have hscan := (hfront.append (scansAs_blanks hblanks _ second.toList)).scan_eq htext
  obtain rfl : tokens = words ++ [_] := htokens
  rw [hscan, List.append_nil, String.ofList_toList, List.length_append, String.length_toList,
    String.length_toList, List.dropLast_concat]

/-- Closing parentheses are tokens of their own. -/
theorem exists_scansAs_closings (position count : Nat) (rest : List Char) :
    ∃ closings : List Token, closings.length = count ∧
      (∀ closing ∈ closings, closing.kind = .closeParen) ∧
      ScansAs position (List.replicate count ')') rest closings := by
  induction count generalizing position with
  | zero => exact ⟨[], rfl, by simp, scansAs_nil position rest⟩
  | succ count ih =>
    obtain ⟨closings, hlength, hkinds, hclosings⟩ := ih (position + 1)
    obtain ⟨closing, hkind, hclosing⟩ :=
      scansAs_closeParen position (List.replicate count ')' ++ rest)
    exact ⟨closing :: closings, by rw [List.length_cons, hlength],
      List.forall_mem_cons.mpr ⟨hkind, hkinds⟩, hclosing.append hclosings⟩

/-- **Closing parentheses behind a text** that is scanned to its end. -/
theorem exists_ofText?_closings {text : String} {words : List Token} {last : Token}
    (h : ofText? text = .ok (words ++ [last])) (count : Nat) :
    ∃ closings : List Token, closings.length = count ∧
      (∀ closing ∈ closings, closing.kind = .closeParen) ∧ ∃ last : Token, last.kind = .endOfInput ∧
        ofText? (text ++ String.ofList (List.replicate count ')')) =
          .ok (words ++ closings ++ [last]) := by
  have hscans : Scans 0 text.toList (scan text) := scans_scanFrom 0 text.toList
  rw [scan_of_ofText? h] at hscans
  obtain ⟨words', htokens, hwords⟩ := hscans.exists_scansBeforeDivider rfl
  obtain ⟨rfl, hlast⟩ := List.append_inj' htokens rfl
  obtain rfl := List.singleton_inj.mp hlast
  cases count with
  | zero => exact ⟨[], rfl, by simp, _, rfl, by simpa using h⟩
  | succ count =>
    have hfront := hwords ')' (List.replicate count ')') isDivider_closeParen
    obtain ⟨closings, hlength, hkinds, hclosings⟩ :=
      exists_scansAs_closings (0 + text.toList.length) (count + 1) []
    refine ⟨closings, hlength, hkinds, _, rfl, ofText?_of_scansAs ?_⟩
    rw [String.toList_append, String.toList_ofList]
    refine ScansAs.append ?_ hclosings
    rwa [List.append_nil, List.replicate_succ]

/-- Texts that differ in the blanks between their words only.  Behind a text that is scanned to its
end, blanks can stand in the place of other blanks, and in front of a word there can be some where
there were none. -/
inductive Respaced : String → String → Prop
  | same (text : String) : Respaced text text
  | symm {text text' : String} (h : Respaced text text') : Respaced text' text
  | trans {text text' text'' : String} (h : Respaced text text') (h' : Respaced text' text'') :
      Respaced text text''
  | gap {first blanks blanks' rest : String} {tokens : List Token}
      (hfirst : ofText? first = .ok tokens) (hne : blanks ≠ "") (hne' : blanks' ≠ "")
      (hblanks : ∀ c ∈ blanks.toList, Text.isBlank c = true)
      (hblanks' : ∀ c ∈ blanks'.toList, Text.isBlank c = true) :
      Respaced (first ++ blanks ++ rest) (first ++ blanks' ++ rest)
  | cut {text blanks : String} {place : Nat}
      (hstart : (scan text).StartsWord 0 text.toList place) (hne : blanks ≠ "")
      (hblanks : ∀ c ∈ blanks.toList, Text.isBlank c = true) :
      Respaced text (String.ofList (text.toList.take place) ++ blanks ++
        String.ofList (text.toList.drop place))

/-- A scan that goes on after some tokens says the same wherever it goes on. -/
theorem Scan.says_prepend_shift (rest : Scan) (distance distance' : Nat) (tokens : List Token) :
    ((rest.shift distance).prepend tokens).tokens.map Token.kind =
        ((rest.shift distance').prepend tokens).tokens.map Token.kind ∧
      ((rest.shift distance).prepend tokens).failure.map (fun error => error.report.message) =
        ((rest.shift distance').prepend tokens).failure.map fun error => error.report.message := by
  have hkind (distance : Nat) :
      (rest.shift distance).tokens.map Token.kind = rest.tokens.map Token.kind := by
    simp only [Scan.shift, List.map_map]
    rfl
  have hmessage (distance : Nat) :
      (rest.shift distance).failure.map (fun error => error.report.message) =
        rest.failure.map fun error => error.report.message := by
    simp only [Scan.shift, Option.map_map, Function.comp_def, LexicalError.message_shift]
  constructor
  · simp only [Scan.prepend, List.map_append, hkind]
  · exact (hmessage distance).trans (hmessage distance').symm

/-- **Blanks between words say nothing.** -/
theorem Respaced.scan_eq {text text' : String} (h : Respaced text text') :
    (scan text).tokens.map Token.kind = (scan text').tokens.map Token.kind ∧
      (scan text).failure.map (fun error => error.report.message) =
        (scan text').failure.map fun error => error.report.message := by
  induction h with
  | same text => exact ⟨rfl, rfl⟩
  | symm h ih => exact ⟨ih.1.symm, ih.2.symm⟩
  | trans h h' ih ih' => exact ⟨ih.1.trans ih'.1, ih.2.trans ih'.2⟩
  | gap hfirst hne hne' hblanks hblanks' =>
    rw [scan_append_blanks hfirst hne hblanks, scan_append_blanks hfirst hne' hblanks']
    exact Scan.says_prepend_shift _ _ _ _
  | @cut text blanks place hstart hne hblanks =>
    obtain ⟨hfirst, hscan⟩ := scan_cut hstart
    have hspaced := scan_append_blanks hfirst hne hblanks (String.ofList (text.toList.drop place))
    rw [List.dropLast_concat] at hspaced
    have hsays := Scan.says_prepend_shift (scan (String.ofList (text.toList.drop place))) place
      ((String.ofList (text.toList.take place)).length + blanks.length) ((scan text).before place)
    rwa [← hscan, ← hspaced] at hsays

/-- **Scanning is compositional.**  A text cut where a word starts, be it one that cannot be read,
falls into the tokens in front of the cut, and its scan goes on behind the cut like the scan of the
rest, with all places moved.  A text that falls into tokens can be put in front of any other with
blanks between the two: its tokens are followed by the scan of the other, moved likewise.  So the
blanks between words change neither what the tokens say nor what is wrong. -/
theorem scan_compositional :
    (∀ (text : String) (place : Nat), (scan text).StartsWord 0 text.toList place →
      ofText? (String.ofList (text.toList.take place)) =
          .ok ((scan text).before place ++ [⟨.endOfInput, place, 0⟩]) ∧
        scan text = ((scan (String.ofList (text.toList.drop place))).shift place).prepend
          ((scan text).before place)) ∧
      (∀ (first blanks second : String) (tokens : List Token), ofText? first = .ok tokens →
        blanks ≠ "" → (∀ c ∈ blanks.toList, Text.isBlank c = true) →
          scan (first ++ blanks ++ second) =
            ((scan second).shift (first.length + blanks.length)).prepend tokens.dropLast) ∧
      ∀ text text' : String, Respaced text text' →
        (scan text).tokens.map Token.kind = (scan text').tokens.map Token.kind ∧
          (scan text).failure.map (fun error => error.report.message) =
            (scan text').failure.map fun error => error.report.message :=
  ⟨fun _ _ => scan_cut,
    fun _ _ second _ hfirst hne hblanks => scan_append_blanks hfirst hne hblanks second,
    fun _ _ => Respaced.scan_eq⟩

/-- A text cut in front of a symbol that is half of a longer one, and in front of the reference that
cannot be read behind it. -/
theorem scan_compositional_reference :
    (ofText? "x" = .ok ((scan "x<=$12a").before 1 ++ [⟨.endOfInput, 1, 0⟩]) ∧
        scan "x<=$12a" = ((scan "<=$12a").shift 1).prepend ((scan "x<=$12a").before 1)) ∧
      ofText? "x<=" = .ok ((scan "x<=$12a").before 3 ++ [⟨.endOfInput, 3, 0⟩]) ∧
        scan "x<=$12a" = ((scan "$12a").shift 3).prepend ((scan "x<=$12a").before 3) := by
  have hcut := scan_compositional.1 "x<=$12a"
  have htokens : (scan "x<=$12a").tokens =
      [⟨.name "x", 0, 1⟩, ⟨.operator (.between (.comparison .lessEqual)), 1, 2⟩] := by
    with_unfolding_all rfl
  constructor
  · refine hcut 1 (.inl ?_)
    rw [htokens]
    exact ⟨_, List.mem_cons_of_mem _ List.mem_cons_self, rfl⟩
  · refine hcut 3 (.inr ⟨⟨3, '$', rfl, rfl, rfl, ?_⟩, ?_⟩)
    · rw [htokens]
      simp only [List.forall_mem_cons, Covers]
      exact ⟨by decide, by decide, fun _ hmem => absurd hmem List.not_mem_nil⟩
    · rintro _ ⟨i, c, rfl, -, -, hnone⟩
      rw [htokens] at hnone
      simp only [List.forall_mem_cons, Covers] at hnone
      omega

end Token

end TypedCalc
