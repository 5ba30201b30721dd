import TypedCalc.Proofs.Token.Spelling

/-!
# Tokens partition the text

A scan takes one word after the other, and every word it takes is a maximal one.  So the tokens of
a text lie side by side in it and nothing but blanks lies between them, and what a token says
depends on its own characters only.

* `Token.scans_scanFrom`: a scan goes word by word.
* `Token.Scans.exists_words`: induction on a scan that comes to the end.
* `Token.ofText?_partitions`: the tokens of a text are a partition of its characters that are not
  blank, into words that are maximal and are the same tokens when they stand alone.
-/

namespace TypedCalc.Token

/-! ## Word by word -/

/-- A word is the first token of a scan if what follows does not go on with it. -/
theorem IsWord.scansAs {word rest : List Char} {kind : TokenKind} (h : IsWord word kind)
    (hends : kind.EndsBefore rest) (position : Nat) :
    ScansAs position word rest [⟨kind, position, word.length⟩] :=
  scansAs_word h.ne_nil (fun c hc => h.isBlank_eq_false c (List.mem_of_mem_head? hc))
    (h.readOne hends position)

/-- How a text is scanned from a position on.  Blanks are passed over, and a word is taken as its
token if what follows does not go on with it. -/
inductive Scans : Nat → List Char → Scan → Prop
  /-- At the end. -/
  | atEnd (position : Nat) : Scans position [] ⟨[⟨.endOfInput, position, 0⟩], none⟩
  /-- A blank. -/
  | blank {position : Nat} {c : Char} {rest : List Char} {scan : Scan}
      (h : Text.isBlank c = true) (more : Scans (position + 1) rest scan) :
      Scans position (c :: rest) scan
  /-- A word. -/
  | word {position : Nat} {word rest : List Char} {kind : TokenKind} {scan : Scan}
      (h : IsWord word kind) (hends : kind.EndsBefore rest)
      (more : Scans (position + word.length) rest scan) :
      Scans position (word ++ rest) (scan.prepend [⟨kind, position, word.length⟩])
  /-- No word. -/
  | stuck {position : Nat} {c : Char} {rest : List Char} {error : LexicalError}
      (hblank : Text.isBlank c = false) (h : readOne position (c :: rest) = .error error) :
      Scans position (c :: rest) ⟨[], some error⟩

/-- **A scan goes word by word.** -/
theorem scans_scanFrom (position : Nat) (cs : List Char) :
    Scans position cs (scanFrom position 0 cs) := by
  -- a word takes off more than one character, so the induction is on the length
  induction hlength : cs.length using Nat.strong_induction_on generalizing position cs with
  | _ n ih =>
    subst hlength
    cases cs with
    | nil => exact .atEnd position
    | cons c rest =>
      by_cases hblank : Text.isBlank c = true
      · rw [scanFrom, if_pos hblank]
        exact .blank hblank (ih rest.length (by simp) (position + 1) rest rfl)
      · cases hread : readOne position (c :: rest) with
        | error error =>
          rw [scanFrom, if_neg hblank, hread]
          exact .stuck (Bool.eq_false_iff.mpr hblank) hread
        | ok lexeme =>
          obtain ⟨word, tail, hcs, -, hword, hends⟩ := exists_isWord (List.cons_ne_nil c rest) hread
          have hscan := hword.scansAs hends position
          have hshorter : tail.length < (c :: rest).length := by
            have hpos := List.length_pos_of_ne_nil hword.ne_nil
            rw [hcs, List.length_append]
            omega
          rw [hcs, hscan]
          exact .word hword hends (ih tail.length hshorter (position + word.length) tail rfl)

/-! ## A partition from a position on -/

/-- Whether a token takes up a place. -/
def Covers (token : Token) (i : Nat) : Prop :=
  token.position ≤ i ∧ i < token.position + token.length

/-- Whether a token is a word of a text that starts at a position, and a maximal one. -/
def StandsIn (start : Nat) (cs : List Char) (token : Token) : Prop :=
  ∃ before word rest, cs = before ++ (word ++ rest) ∧ token.position = start + before.length ∧
    token.length = word.length ∧ IsWord word token.kind ∧ token.kind.EndsBefore rest

/-- Whether tokens stand side by side in a text that starts at a position and take up all its
characters but the blank ones. -/
structure Partitions (start : Nat) (cs : List Char) (words : List Token) : Prop where
  standsIn : ∀ token ∈ words, StandsIn start cs token
  apart : words.Pairwise fun token later => token.position + token.length ≤ later.position
  covers : ∀ i c, cs[i]? = some c →
    ((∃ token ∈ words, token.Covers (start + i)) ↔ Text.isBlank c = false)

section

variable {start : Nat} {cs : List Char} {token : Token} {words : List Token}

theorem StandsIn.start_le (h : StandsIn start cs token) : start ≤ token.position := by
  obtain ⟨before, word, rest, -, hposition, -⟩ := h
  omega

theorem StandsIn.length_pos (h : StandsIn start cs token) : 1 ≤ token.length := by
  obtain ⟨before, word, rest, -, -, hlength, hword, -⟩ := h
  rw [hlength]
  exact List.length_pos_of_ne_nil hword.ne_nil

/-- Characters in front move the start. -/
theorem StandsIn.append (first : List Char) (h : StandsIn (start + first.length) cs token) :
    StandsIn start (first ++ cs) token := by
  obtain ⟨before, word, rest, rfl, hposition, hword⟩ := h
  refine ⟨first ++ before, word, rest, by simp, ?_, hword⟩
  rw [hposition, List.length_append, Nat.add_assoc]

/-- A place behind the characters in front is covered as it was without them. -/
theorem Partitions.covers_append (first : List Char)
    (h : Partitions (start + first.length) cs words) {i : Nat} {c : Char}
    (hi : first.length ≤ i) (hc : (first ++ cs)[i]? = some c) :
    (∃ token ∈ words, token.Covers (start + i)) ↔ Text.isBlank c = false := by
  rw [List.getElem?_append_right hi] at hc
  have hplace : start + first.length + (i - first.length) = start + i := by omega
  rw [← h.covers _ c hc, hplace]

theorem Partitions.nil (start : Nat) : Partitions start [] [] :=
  ⟨by simp, .nil, by simp⟩

/-- A blank in front belongs to no token. -/
theorem Partitions.blank {c : Char} (hblank : Text.isBlank c = true)
    (h : Partitions (start + 1) cs words) : Partitions start (c :: cs) words := by
  refine ⟨fun token hmem => (h.standsIn token hmem).append [c], h.apart, ?_⟩
  intro i d hd
  cases i with
  | zero =>
    obtain rfl : c = d := by simpa using hd
    rw [hblank]
    simp only [Bool.true_eq_false, iff_false]
    rintro ⟨token, hmem, hcovers, -⟩
    have hstart := (h.standsIn token hmem).start_le
    omega
  | succ i => exact h.covers_append [c] (by simp) hd

/-- A word in front is one more token. -/
theorem Partitions.word {word : List Char} {kind : TokenKind} (hword : IsWord word kind)
    (hends : kind.EndsBefore cs) (h : Partitions (start + word.length) cs words) :
    Partitions start (word ++ cs) (⟨kind, start, word.length⟩ :: words) := by
  refine ⟨?_, ?_, ?_⟩
  · refine List.forall_mem_cons.mpr ⟨?_, fun token hmem => (h.standsIn token hmem).append word⟩
    exact ⟨[], word, cs, rfl, rfl, rfl, hword, hends⟩
  · refine List.pairwise_cons.mpr ⟨fun later hmem => ?_, h.apart⟩
    exact (h.standsIn later hmem).start_le
  · intro i c hc
    by_cases hi : i < word.length
    · -- inside the word
      rw [List.getElem?_append_left hi] at hc
      have hblank := hword.isBlank_eq_false c (List.mem_of_getElem? hc)
      have hcovers : Covers ⟨kind, start, word.length⟩ (start + i) :=
        ⟨Nat.le_add_right _ _, Nat.add_lt_add_left hi _⟩
      exact ⟨fun _ => hblank, fun _ => ⟨_, List.mem_cons_self .., hcovers⟩⟩
    · -- behind it
      have hi := Nat.le_of_not_lt hi
      rw [← h.covers_append word hi hc]
      constructor
      · rintro ⟨token, hmem, hcovers⟩
        rcases List.mem_cons.mp hmem with rfl | hmem
        · have hlt := hcovers.2
          dsimp only at hlt
          omega
        · exact ⟨token, hmem, hcovers⟩
      · rintro ⟨token, hmem, hcovers⟩
        exact ⟨token, List.mem_cons_of_mem _ hmem, hcovers⟩

end

/-- **Induction on a scan that comes to the end.**  The tokens before the end have every property
that no tokens at the end have, that a blank in front keeps and that a word in front keeps. -/
theorem Scans.exists_words {P : Nat → List Char → List Token → Prop}
    (atEnd : ∀ position, P position [] [])
    (blank : ∀ {position c rest words}, Text.isBlank c = true →
      P (position + 1) rest words → P position (c :: rest) words)
    (word : ∀ {position word rest words} {kind : TokenKind}, IsWord word kind →
      kind.EndsBefore rest → P (position + word.length) rest words →
      P position (word ++ rest) (⟨kind, position, word.length⟩ :: words))
    {position : Nat} {cs : List Char} {scan : Scan} (h : Scans position cs scan)
    (hdone : scan.failure = none) :
    ∃ words, scan.tokens = words ++ [⟨.endOfInput, position + cs.length, 0⟩] ∧
      P position cs words := by
  induction h with
  | atEnd position => exact ⟨[], rfl, atEnd position⟩
  | blank hblank more ih =>
    obtain ⟨words, htokens, hwords⟩ := ih hdone
    refine ⟨words, ?_, blank hblank hwords⟩
    rw [htokens, List.length_cons, Nat.add_right_comm, Nat.add_assoc]
  | word hword hends more ih =>
    obtain ⟨words, htokens, hwords⟩ := ih hdone
    refine ⟨_, ?_, word hword hends hwords⟩
    rw [Scan.prepend, htokens, List.length_append, Nat.add_assoc]
    rfl
  | stuck => cases hdone

/-- The tokens of a text are a partition of it and the end. -/
theorem exists_partitions {text : String} {tokens : List Token} (h : ofText? text = .ok tokens) :
    ∃ words, tokens = words ++ [⟨.endOfInput, text.length, 0⟩] ∧
      Partitions 0 text.toList words := by
  have hscans : Scans 0 text.toList (scan text) := scans_scanFrom 0 text.toList
  rw [scan_of_ofText? h] at hscans
  obtain ⟨words, htokens, hwords⟩ :=
    hscans.exists_words Partitions.nil Partitions.blank Partitions.word rfl
  rw [Nat.zero_add, String.length_toList] at htokens
  exact ⟨words, htokens, hwords⟩

/-! ## The partition of a text -/

/-- The characters of a token in a text. -/
def wordIn (text : String) (token : Token) : List Char :=
  (text.toList.drop token.position).take token.length

/-- The character after a token in a text, if there is one. -/
def nextIn (text : String) (token : Token) : Option Char :=
  text.toList[token.position + token.length]?

/-- Whether a token of a text takes in as many characters as it can. -/
def IsMaximalIn (text : String) (token : Token) : Prop :=
  match token.kind with
  | .name _ => ∀ c ∈ token.nextIn text, isNameChar c = false
  | .history _ => ∀ c ∈ token.nextIn text, continuesHistory c = false
  | .number _ => ∀ c ∈ token.nextIn text, continuesNumber c = false
  | .operator symbol =>
    (token.wordIn text, symbol) ∈ OperatorSymbol.table ∧
      ∀ entry ∈ OperatorSymbol.table, entry.1 <+: text.toList.drop token.position →
        entry.1.length ≤ token.length
  | _ => True

/-- Whether tokens are a partition of the characters of a text that are not blank. -/
structure IsPartition (text : String) (words : List Token) : Prop where
  /-- Every token stands in the text and is not empty, and none is the end. -/
  inside : ∀ token ∈ words, token.kind ≠ .endOfInput ∧ 1 ≤ token.length ∧
    token.position + token.length ≤ text.length
  /-- The tokens stand in the order of the text. -/
  increasing : words.Pairwise fun token later => token.position < later.position
  /-- No two tokens overlap. -/
  apart : words.Pairwise fun token later => token.position + token.length ≤ later.position
  /-- The characters outside the tokens are the blank ones. -/
  covers : ∀ i c, text.toList[i]? = some c →
    ((∃ token ∈ words, token.Covers i) ↔ Text.isBlank c = false)
  /-- The characters of a token alone are that token. -/
  alone : ∀ token ∈ words, ofText? (String.ofList (token.wordIn text)) =
    .ok [⟨token.kind, 0, token.length⟩, ⟨.endOfInput, token.length, 0⟩]
  /-- Every token is maximal. -/
  maximal : ∀ token ∈ words, token.IsMaximalIn text

/-- **A word alone** is the text of one token. -/
theorem IsWord.ofText? {word : List Char} {kind : TokenKind} (h : IsWord word kind) :
    ofText? (String.ofList word) =
      .ok [⟨kind, 0, word.length⟩, ⟨.endOfInput, word.length, 0⟩] := by
  have hscan := h.scansAs kind.endsBefore_nil 0
  rw [← String.toList_ofList (l := word)] at hscan
  rw [ofText?_of_scansAs hscan, String.toList_ofList, ← String.length_toList,
    String.toList_ofList]
  rfl

section

variable {text : String} {token : Token}

/-- A token that stands in a text has the characters of its word. -/
theorem StandsIn.exists_wordIn (h : StandsIn 0 text.toList token) :
    ∃ rest, text.toList.drop token.position = token.wordIn text ++ rest ∧
      token.nextIn text = rest.head? ∧ (token.wordIn text).length = token.length ∧
      IsWord (token.wordIn text) token.kind ∧ token.kind.EndsBefore rest := by
  obtain ⟨before, word, rest, htext, hposition, hlength, hword, hends⟩ := h
  rw [Nat.zero_add] at hposition
  have hdrop : text.toList.drop token.position = word ++ rest := by
    rw [htext, hposition, List.drop_left]
  have hwordIn : token.wordIn text = word := by
    rw [wordIn, hdrop, hlength, List.take_left]
  refine ⟨rest, ?_, ?_, ?_, ?_, hends⟩
  · rw [hwordIn, hdrop]
  · rw [nextIn, ← List.head?_drop, ← List.drop_drop, hdrop, hlength, List.drop_left]
  · rw [hwordIn, hlength]
  · rwa [hwordIn]

theorem StandsIn.isMaximalIn (h : StandsIn 0 text.toList token) : token.IsMaximalIn text := by
  obtain ⟨rest, hdrop, hnext, hlength, hword, hends⟩ := h.exists_wordIn
  unfold IsMaximalIn
  cases hkind : token.kind with
  | number v =>
    rw [hkind] at hends
    rw [hnext]
    exact hends
  | history index =>
    rw [hkind] at hends
    rw [hnext]
    exact hends
  | name name =>
    rw [hkind] at hends
    rw [hnext]
    exact hends
  | operator symbol =>
    rw [hkind] at hends hword
    have hmem := hword.mem_table
    rw [TokenKind.EndsBefore, OperatorSymbol.toList_text_of_mem_table _ hmem, hlength] at hends
    rw [hdrop]
    exact ⟨hmem, hends⟩
  | openParen | closeParen | comma | endOfInput => trivial

theorem StandsIn.end_le (h : StandsIn 0 text.toList token) :
    token.position + token.length ≤ text.length := by
  obtain ⟨before, word, rest, htext, hposition, hlength, -, -⟩ := h
  have htotal := congrArg List.length htext
  rw [String.length_toList, List.length_append, List.length_append] at htotal
  omega

/-- **The tokens of a text partition it.**  The end of the text comes last, and the tokens before it
lie side by side with nothing but blanks between them.  Each of them takes in as many characters as
it can, and these characters alone are the same token. -/
theorem ofText?_partitions {tokens : List Token} (h : ofText? text = .ok tokens) :
    ∃ words, tokens = words ++ [⟨.endOfInput, text.length, 0⟩] ∧ IsPartition text words := by
  obtain ⟨words, htokens, hwords⟩ := exists_partitions h
  refine ⟨words, htokens, ?_⟩
  constructor
  case inside =>
    intro token hmem
    have hstands := hwords.standsIn token hmem
    obtain ⟨rest, -, -, -, hword, -⟩ := hstands.exists_wordIn
    exact ⟨hword.kind_ne_endOfInput, hstands.length_pos, hstands.end_le⟩
  case increasing =>
    refine hwords.apart.imp_of_mem fun hmem _ happart => ?_
    have hpos := (hwords.standsIn _ hmem).length_pos
    omega
  case apart => exact hwords.apart
  case covers =>
    intro i c hc
    have hcovers := hwords.covers i c hc
    rwa [Nat.zero_add] at hcovers
  case alone =>
    intro token hmem
    obtain ⟨rest, -, -, hlength, hword, -⟩ := (hwords.standsIn token hmem).exists_wordIn
    rw [hword.ofText?, hlength]
  case maximal => exact fun token hmem => (hwords.standsIn token hmem).isMaximalIn

/-- A text where tokens touch: digits that end at an operator symbol, a symbol that is half of a
longer one, a degree with its scale and a radix. -/
theorem ofText?_partitions_touching :
    ∃ tokens words, ofText? "max(0x1BB,.5°C) <<$12!=\tx_1" = .ok tokens ∧
      tokens.map (fun token => (token.position, token.length)) =
        [(0, 3), (3, 1), (4, 5), (9, 1), (10, 4), (14, 1), (16, 2), (18, 3), (21, 2), (24, 3),
          (27, 0)] ∧
      tokens = words ++ [⟨.endOfInput, 27, 0⟩] ∧
      IsPartition "max(0x1BB,.5°C) <<$12!=\tx_1" words := by
  have htext : ∃ tokens, ofText? "max(0x1BB,.5°C) <<$12!=\tx_1" = .ok tokens ∧
      tokens.map (fun token => (token.position, token.length)) =
        [(0, 3), (3, 1), (4, 5), (9, 1), (10, 4), (14, 1), (16, 2), (18, 3), (21, 2), (24, 3),
          (27, 0)] :=
    ⟨_, by with_unfolding_all rfl, by with_unfolding_all rfl⟩
  obtain ⟨tokens, htokens, hplaces⟩ := htext
  obtain ⟨words, hwords, hpartition⟩ := ofText?_partitions htokens
  exact ⟨tokens, words, htokens, hplaces, hwords, hpartition⟩

end

end TypedCalc.Token
