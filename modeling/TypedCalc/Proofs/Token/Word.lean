import TypedCalc.Proofs.Token.Number

/-!
# The words of tokens

Every sort of token has its words, and a word is read as its token wherever it stands, as long as
what follows does not go on with it.  What goes on with a word depends on the sort: a character of
names for a name, the second half of a longer symbol for an operator symbol.

* `OperatorSymbol.match?_eq_some_iff`: the symbol that is found is the longest one.
* `Token.IsWord.readOne`: a word is read as its token.
* `Token.exists_isWord`: nothing else is read as a token.
-/

namespace TypedCalc

/-! ## Operator symbols -/

namespace OperatorSymbol

theorem toList_text_of_mem_table : ∀ entry ∈ table, entry.2.text.toList = entry.1 := by decide

theorem eq_of_mem_table :
    ∀ entry ∈ table, ∀ other ∈ table, entry.1 = other.1 → entry = other := by decide

/-- Longer symbols come first. -/
theorem pairwise_table : table.Pairwise fun entry later => later.1.length ≤ entry.1.length := by
  decide

theorem prefix_of_find?_eq_some {cs : List Char} {found : List Char × OperatorSymbol}
    (h : table.find? (fun entry => entry.1.isPrefixOf cs) = some found) : found.1 <+: cs := by
  obtain ⟨hstarts, -⟩ := List.find?_eq_some_iff_append.mp h
  exact List.isPrefixOf_iff_prefix.mp hstarts

/-- No symbol that a text starts with is longer than the first one in the table. -/
theorem length_le_of_find?_eq_some {cs : List Char} {found : List Char × OperatorSymbol}
    (h : table.find? (fun entry => entry.1.isPrefixOf cs) = some found) :
    ∀ entry ∈ table, entry.1 <+: cs → entry.1.length ≤ found.1.length := by
  intro entry hentry hprefix
  obtain ⟨-, before, after, htable, hbefore⟩ := List.find?_eq_some_iff_append.mp h
  have hsorted := pairwise_table
  rw [htable, List.pairwise_append, List.pairwise_cons] at hsorted
  rw [htable] at hentry
  -- no earlier symbol fits, and the later ones are no longer
  rcases List.mem_append.mp hentry with hmem | hmem
  · have hnot := hbefore entry hmem
    rw [List.isPrefixOf_iff_prefix.mpr hprefix] at hnot
    exact absurd hnot (by decide)
  · rcases List.mem_cons.mp hmem with rfl | hmem
    · exact Nat.le_refl _
    · exact hsorted.2.1.1 entry hmem

/-- **The symbol that is found is the longest** that the text starts with. -/
theorem match?_eq_some_iff {cs : List Char} {symbol : OperatorSymbol} {n : Nat} :
    match? cs = some (symbol, n) ↔
      ∃ word, (word, symbol) ∈ table ∧ word <+: cs ∧ n = word.length ∧
        ∀ entry ∈ table, entry.1 <+: cs → entry.1.length ≤ n := by
  constructor
  · intro h
    obtain ⟨found, hfound, hresult⟩ := Option.map_eq_some_iff.mp h
    obtain ⟨rfl, rfl⟩ := Prod.mk.inj hresult
    exact ⟨found.1, List.mem_of_find?_eq_some hfound, prefix_of_find?_eq_some hfound, rfl,
      length_le_of_find?_eq_some hfound⟩
  · rintro ⟨word, hmem, hprefix, rfl, hlongest⟩
    have hsome : (table.find? fun entry => entry.1.isPrefixOf cs).isSome = true :=
      List.find?_isSome.mpr ⟨_, hmem, List.isPrefixOf_iff_prefix.mpr hprefix⟩
    obtain ⟨found, hfound⟩ := Option.isSome_iff_exists.mp hsome
    have hfoundMem := List.mem_of_find?_eq_some hfound
    have hstarts := prefix_of_find?_eq_some hfound
    have hle := hlongest found hfoundMem hstarts
    have hge := length_le_of_find?_eq_some hfound _ hmem hprefix
    have hword : found.1 = word :=
      (List.prefix_of_prefix_length_le hstarts hprefix hle).eq_of_length_le hge
    obtain rfl := eq_of_mem_table found hfoundMem _ hmem hword
    rw [match?, hfound]
    rfl

end OperatorSymbol

/-! ## Names -/

/-- Whether a text is a name: a letter or an underscore, then letters, underscores and digits. -/
structure IsIdentifier (name : String) : Prop where
  start : ∃ c ∈ name.toList.head?, isNameStart c = true
  all : ∀ c ∈ name.toList, isNameChar c = true

theorem isDigit_of_isNameStart {c : Char} (h : isNameStart c = true) : c.isDigit = false := by
  rw [Bool.eq_false_iff]
  intro hdigit
  rw [isNameStart] at h
  delta Char.isAlpha Char.isUpper Char.isLower at h
  simp only [Char.isDigit, Bool.or_eq_true, Bool.and_eq_true, decide_eq_true_eq, beq_iff_eq,
    UInt32.le_iff_toNat_le] at h hdigit
  have horder : '9'.val.toNat < 'A'.val.toNat ∧ '9'.val.toNat < 'a'.val.toNat := by decide
  rcases h with (h | h) | rfl
  · omega
  · omega
  · exact absurd hdigit (by decide)

/-! ## Words -/

/-- Whether what follows the word of a token does not go on with it. -/
def TokenKind.EndsBefore : TokenKind → List Char → Prop
  | .number _, rest => ∀ c ∈ rest.head?, continuesNumber c = false
  | .history _, rest => ∀ c ∈ rest.head?, continuesHistory c = false
  | .name _, rest => ∀ c ∈ rest.head?, isNameChar c = false
  | .operator symbol, rest =>
    ∀ entry ∈ OperatorSymbol.table, entry.1 <+: symbol.text.toList ++ rest →
      entry.1.length ≤ symbol.text.toList.length
  | _, _ => True

/-- Nothing goes on with a word at the end of a text. -/
theorem TokenKind.endsBefore_nil (kind : TokenKind) : kind.EndsBefore [] := by
  cases kind with
  | number | history | name => exact fun _ hc => absurd hc (Option.not_mem_none _)
  | operator symbol =>
    intro entry _ hprefix
    rw [List.append_nil] at hprefix
    exact hprefix.length_le
  | openParen | closeParen | comma | endOfInput => trivial

namespace Token

/-- The words of tokens. -/
inductive IsWord : List Char → TokenKind → Prop
  | number {word : List Char} {v : Value} (h : IsNumber word v) : IsWord word (.number v)
  | history {digits : List Char} (h : IsWholeNumeral digits) :
      IsWord ('$' :: digits) (.history (Numeral.read 10 digits))
  | name {name : String} (h : IsIdentifier name) : IsWord name.toList (.name name)
  | openParen : IsWord ['('] .openParen
  | closeParen : IsWord [')'] .closeParen
  | comma : IsWord [','] .comma
  | operator {word : List Char} {symbol : OperatorSymbol}
      (h : (word, symbol) ∈ OperatorSymbol.table) : IsWord word (.operator symbol)

section

variable {word cs : List Char} {kind : TokenKind}

theorem IsWord.ne_nil (h : IsWord word kind) : word ≠ [] := by
  cases h with
  | number h => exact h.ne_nil
  | history | openParen | closeParen | comma => exact List.cons_ne_nil _ _
  | name h =>
    obtain ⟨c, hc, -⟩ := h.start
    rintro hnil
    rw [hnil] at hc
    cases hc
  | operator h =>
    have hall : ∀ entry ∈ OperatorSymbol.table, entry.1 ≠ [] := by decide
    exact hall _ h

theorem IsWord.kind_ne_endOfInput (h : IsWord word kind) : kind ≠ .endOfInput := by
  rintro rfl
  cases h

theorem IsWord.mem_table {symbol : OperatorSymbol} (h : IsWord word (.operator symbol)) :
    (word, symbol) ∈ OperatorSymbol.table := by
  cases h
  assumption

theorem isBlank_of_continuesNumber {c : Char} (h : continuesNumber c = true) :
    Text.isBlank c = false := by
  rw [Bool.eq_false_iff]
  intro hblank
  rw [continuesNumber, isNameChar, isNameStart] at h
  delta Char.isAlpha Char.isUpper Char.isLower Char.isDigit at h
  simp only [Text.isBlank, Bool.or_eq_true, Bool.and_eq_true, decide_eq_true_eq, beq_iff_eq,
    UInt32.le_iff_toNat_le] at h hblank
  have hbounds : 32 < 'A'.val.toNat ∧ 'Z'.val.toNat < 0x85 ∧ 32 < 'a'.val.toNat ∧
    'z'.val.toNat < 0x85 ∧ 32 < '0'.val.toNat ∧ '9'.val.toNat < 0x85 := by decide
  have hval : c.toNat = c.val.toNat := rfl
  rcases h with ((((h | h) | rfl) | h) | rfl) | rfl
  · omega
  · omega
  · exact absurd hblank (by decide)
  · omega
  · exact absurd hblank (by decide)
  · exact absurd hblank (by decide)

/-- **No character of a word is blank.** -/
theorem IsWord.isBlank_eq_false (h : IsWord word kind) : ∀ c ∈ word, Text.isBlank c = false := by
  have hname {c : Char} (hc : isNameChar c = true) : Text.isBlank c = false :=
    isBlank_of_continuesNumber (continuesNumber_of_isNameChar hc)
  cases h with
  | number h => exact fun c hc => isBlank_of_continuesNumber (h.continuesNumber c hc)
  | history h =>
    exact List.forall_mem_cons.mpr
      ⟨rfl, fun c hc => hname (isNameChar_of_isDigit (h.isDigit c hc))⟩
  | name h => exact fun c hc => hname (h.all c hc)
  | openParen | closeParen | comma => exact List.forall_mem_singleton.mpr rfl
  | operator h =>
    have hall : ∀ entry ∈ OperatorSymbol.table, entry.1.any Text.isBlank = false := by decide
    intro c hc
    exact Bool.eq_false_iff.mpr (List.any_eq_false.mp (hall _ h) c hc)

/-! ## Reading a word -/

theorem isDigit_of_continuesHistory {c : Char} (h : continuesHistory c = false) :
    c.isDigit = false :=
  Bool.eq_false_iff.mpr fun hdigit => by
    rw [continuesHistory, isNameChar_of_isDigit hdigit, Bool.true_or] at h
    exact Bool.false_ne_true h.symm

theorem readHistory_word {digits rest : List Char} (h : IsWholeNumeral digits)
    (hrest : ∀ c ∈ rest.head?, continuesHistory c = false) (position : Nat) :
    readHistory position ('$' :: digits ++ rest) =
      .ok ⟨.history (Numeral.read 10 digits), ('$' :: digits).length⟩ := by
  have htake := takeWhile_append_of_head h.isDigit fun c hc =>
    isDigit_of_continuesHistory (hrest c hc)
  have hempty : digits.isEmpty = false := List.isEmpty_eq_false_iff.mpr h.ne_nil
  have hzeros : ¬ (1 < digits.length ∧ digits.head? = some '0') := by
    rintro ⟨hlength, hhead⟩
    rw [h.zero hhead] at hlength
    exact Nat.lt_irrefl _ hlength
  have hdrop : ('$' :: digits ++ rest).drop (1 + digits.length) = rest := by
    rw [Nat.add_comm, List.cons_append, List.drop_succ_cons, List.drop_left]
  unfold readHistory
  simp only [List.cons_append, List.drop_succ_cons, List.drop_zero, htake, hempty,
    Bool.false_eq_true, if_false, hzeros]
  rw [← List.cons_append, hdrop, List.length_cons, Nat.add_comm digits.length]
  split
  · rename_i c hc
    rw [if_neg (Bool.eq_false_iff.mp (hrest c hc))]
    rfl
  · rfl

/-- **A word is read as its token**, if nothing goes on with it. -/
theorem IsWord.readOne (h : IsWord word kind) {rest : List Char} (hrest : kind.EndsBefore rest)
    (position : Nat) : readOne position (word ++ rest) = .ok ⟨kind, word.length⟩ := by
  cases h with
  | @number word v h =>
    have hnumber := h.readNumber hrest position
    have hstarts := h.startsNumber rest
    obtain ⟨c, cs, rfl⟩ := List.exists_cons_of_ne_nil h.ne_nil
    rw [List.cons_append] at hnumber hstarts ⊢
    rw [Token.readOne, if_pos hstarts, hnumber]
  | history h => exact readHistory_word h hrest position
  | @name name h =>
    have hname : readName (name.toList ++ rest) = ⟨.name name, name.toList.length⟩ := by
      simp only [readName, takeWhile_append_of_head h.all hrest, String.ofList_toList]
    obtain ⟨c, hc, hstart⟩ := h.start
    obtain ⟨cs, hcs⟩ := List.head?_eq_some_iff.mp hc
    rw [hcs, List.cons_append] at hname ⊢
    have hne (d : Char) (hd : isNameStart d = false) : c ≠ d := by
      rintro rfl
      exact Bool.false_ne_true (hd.symm.trans hstart)
    have hnumber : ¬ startsNumber (c :: (cs ++ rest)) = true := by
      rw [startsNumber_cons_of_ne (hne '.' (by decide)), isDigit_of_isNameStart hstart]
      exact Bool.false_ne_true
    rw [Token.readOne, if_neg hnumber, if_neg (hne '$' (by decide)), if_pos hstart, hname]
  | openParen | closeParen | comma => rfl
  | @operator word symbol h =>
    have hfirst : ∀ entry ∈ OperatorSymbol.table, entry.1.head?.all fun c => c ≠ '.' ∧
        c.isDigit = false ∧ c ≠ '$' ∧ isNameStart c = false ∧ c ≠ '(' ∧ c ≠ ')' ∧ c ≠ ',' := by
      decide
    have htext := OperatorSymbol.toList_text_of_mem_table _ h
    rw [TokenKind.EndsBefore, htext] at hrest
    have hmatch : OperatorSymbol.match? (word ++ rest) = some (symbol, word.length) :=
      OperatorSymbol.match?_eq_some_iff.mpr ⟨word, h, List.prefix_append _ _, rfl, hrest⟩
    obtain ⟨c, cs, rfl⟩ := List.exists_cons_of_ne_nil (IsWord.operator h).ne_nil
    obtain ⟨hpoint, hdigit, hdollar, hname, hopen, hclose, hcomma⟩ :=
      of_decide_eq_true (hfirst _ h)
    have hnumber : ¬ startsNumber (c :: (cs ++ rest)) = true := by
      rw [startsNumber_cons_of_ne hpoint, hdigit]
      exact Bool.false_ne_true
    rw [List.cons_append] at hmatch ⊢
    rw [Token.readOne, if_neg hnumber, if_neg hdollar, if_neg (Bool.eq_false_iff.mp hname),
      if_neg hopen, if_neg hclose, if_neg hcomma, hmatch]

/-! ## Nothing else is read -/

theorem exists_history {position : Nat} {lexeme : Lexeme}
    (h : readHistory position ('$' :: cs) = .ok lexeme) :
    ∃ digits rest, cs = digits ++ rest ∧ IsWholeNumeral digits ∧
      lexeme = ⟨.history (Numeral.read 10 digits), ('$' :: digits).length⟩ ∧
      ∀ c ∈ rest.head?, continuesHistory c = false := by
  obtain ⟨digits, rest, rfl, hdigits, hrest⟩ := exists_run Char.isDigit cs
  have hdrop : ('$' :: (digits ++ rest)).drop (1 + digits.length) = rest := by
    rw [Nat.add_comm, List.drop_succ_cons, List.drop_left]
  unfold readHistory at h
  simp only [List.drop_succ_cons, List.drop_zero, takeWhile_append_of_head hdigits hrest,
    hdrop] at h
  split at h
  · cases h
  rename_i hempty
  split at h
  · cases h
  rename_i hzeros
  have hne : digits ≠ [] := by simpa using hempty
  have hwhole : IsWholeNumeral digits := by
    refine ⟨hdigits, hne, fun hhead => ?_⟩
    obtain ⟨more, rfl⟩ := List.head?_eq_some_iff.mp hhead
    cases more with
    | nil => rfl
    | cons c more => exact absurd ⟨by simp, hhead⟩ hzeros
  have hlexeme : lexeme = ⟨.history (Numeral.read 10 digits), 1 + digits.length⟩ ∧
      ∀ c ∈ rest.head?, continuesHistory c = false := by
    split at h
    · rename_i c hc
      split at h
      · cases h
      · cases h
        refine ⟨rfl, fun d hd => ?_⟩
        obtain rfl := Option.some.inj (hc.symm.trans hd)
        exact Bool.eq_false_iff.mpr ‹_›
    · rename_i hnone
      cases h
      exact ⟨rfl, fun d hd => absurd (hnone.symm.trans hd) (Option.some_ne_none d).symm⟩
  refine ⟨digits, rest, rfl, hwhole, ?_, hlexeme.2⟩
  rw [hlexeme.1, List.length_cons, Nat.add_comm]

theorem exists_name {c : Char} (hstart : isNameStart c = true) :
    ∃ name rest, c :: cs = name ++ rest ∧
      readName (c :: cs) = ⟨.name (String.ofList name), name.length⟩ ∧
      IsWord name (.name (String.ofList name)) ∧ ∀ c ∈ rest.head?, isNameChar c = false := by
  obtain ⟨name, rest, hcs, hname, hrest⟩ := exists_run isNameChar (c :: cs)
  have hhead : c ∈ name.head? := by
    cases name with
    | nil =>
      obtain rfl : c :: cs = rest := hcs
      have hc := hrest c rfl
      rw [isNameChar, hstart, Bool.true_or] at hc
      exact absurd hc (by decide)
    | cons d name =>
      obtain ⟨rfl, -⟩ := List.cons.inj hcs
      rfl
  have hidentifier : IsIdentifier (String.ofList name) :=
    ⟨⟨c, by rwa [String.toList_ofList], hstart⟩, by rwa [String.toList_ofList]⟩
  have hword := IsWord.name hidentifier
  rw [String.toList_ofList] at hword
  refine ⟨name, rest, hcs, ?_, hword, hrest⟩
  rw [readName, hcs, takeWhile_append_of_head hname hrest]

/-- **Nothing but a word is read as a token**, and nothing that follows goes on with it. -/
theorem exists_isWord {position : Nat} {lexeme : Lexeme} (hne : cs ≠ [])
    (h : readOne position cs = .ok lexeme) :
    ∃ word rest, cs = word ++ rest ∧ lexeme.length = word.length ∧ IsWord word lexeme.kind ∧
      lexeme.kind.EndsBefore rest := by
  obtain ⟨c, cs, rfl⟩ := List.exists_cons_of_ne_nil hne
  rw [readOne] at h
  split at h
  · rename_i hstarts
    obtain ⟨word, rest, v, hcs, rfl, hword, hrest⟩ := exists_isNumber hstarts h
    exact ⟨word, rest, hcs, rfl, .number hword, hrest⟩
  split at h
  · rename_i hdollar
    obtain rfl := hdollar
    obtain ⟨digits, rest, rfl, hdigits, rfl, hrest⟩ := exists_history h
    exact ⟨'$' :: digits, rest, rfl, rfl, .history hdigits, hrest⟩
  split at h
  · rename_i hstart
    obtain ⟨name, rest, hcs, hread, hword, hrest⟩ := exists_name hstart
    rw [hread] at h
    cases h
    exact ⟨name, rest, hcs, rfl, hword, hrest⟩
  split at h
  · rename_i hparen
    cases h
    exact ⟨['('], cs, by rw [hparen]; rfl, rfl, .openParen, trivial⟩
  split at h
  · rename_i hparen
    cases h
    exact ⟨[')'], cs, by rw [hparen]; rfl, rfl, .closeParen, trivial⟩
  split at h
  · rename_i hcomma
    cases h
    exact ⟨[','], cs, by rw [hcomma]; rfl, rfl, .comma, trivial⟩
  split at h
  · rename_i symbol n hmatch
    cases h
    obtain ⟨word, hmem, ⟨rest, hcs⟩, rfl, hlongest⟩ := OperatorSymbol.match?_eq_some_iff.mp hmatch
    refine ⟨word, rest, hcs.symm, rfl, .operator hmem, ?_⟩
    rw [TokenKind.EndsBefore, OperatorSymbol.toList_text_of_mem_table _ hmem, hcs]
    exact hlongest
  · cases h

end

end Token

end TypedCalc
