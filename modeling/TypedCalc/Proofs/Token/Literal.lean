import TypedCalc.Proofs.Token.Conversion
import TypedCalc.Proofs.Token.Partition
import TypedCalc.Proofs.Value.Quotient

/-!
# Literals

The documented notations of numbers, told without the reader: digits in one of four bases, or with a
point among them, and perhaps a suffix behind the longest run of them.  A literal denotes a quotient
`num / 10 ^ places` with a unit.

* `Token.IsLiteral`: the texts of literals and what they denote.
* `Token.IsLiteral.exists_isNumber`, `Token.IsNumber.exists_isLiteral`: literals are the words that
  are read as numbers.
* `Token.ofText?_literal`: a text that starts like a number and has no character that cannot belong
  to one is one token if it is a literal, and an error at its start if it is not.
-/

namespace TypedCalc

namespace Token

/-! ## Notations -/

/-- The documented notations of digits, with the quotient `num / 10 ^ places` that they denote and
the characters that their last run takes in. -/
inductive IsDigits : List Char → Nat → Nat → (Char → Bool) → Prop
  /-- A zero, the letter of a radix and digits of it, for a number of at most 64 bits. -/
  | radix (radix : Radix) {digits : List Char}
      (hdigits : ∀ c ∈ digits, Numeral.isDigitOf radix.base c = true) (hne : digits ≠ [])
      (hfits : Numeral.denotation radix.base digits ≤ 2 ^ 64 - 1) :
      IsDigits ('0' :: radix.letter :: digits) (Numeral.denotation radix.base digits) 0
        (Numeral.isDigitOf radix.base)
  /-- Decimal digits, for a number of at most 64 bits. -/
  | whole {digits : List Char} (hdigits : ∀ c ∈ digits, c.isDigit = true) (hne : digits ≠ [])
      (hfits : Numeral.denotation 10 digits ≤ 2 ^ 64 - 1) :
      IsDigits digits (Numeral.denotation 10 digits) 0 Char.isDigit
  /-- A point with decimal digits behind it, and perhaps some in front. -/
  | fraction {whole fraction : List Char} (hwhole : ∀ c ∈ whole, c.isDigit = true)
      (hfraction : ∀ c ∈ fraction, c.isDigit = true) (hne : fraction ≠ []) :
      IsDigits (whole ++ '.' :: fraction) (Numeral.denotation 10 (whole ++ fraction))
        fraction.length Char.isDigit

/-- The documented notations of numbers, with the quotient and the unit that they denote. -/
inductive IsLiteral : List Char → Nat → Nat → Option Measure → Prop
  /-- Digits alone. -/
  | bare {digits : List Char} {num places : Nat} {isDigit : Char → Bool}
      (h : IsDigits digits num places isDigit) : IsLiteral digits num places none
  /-- The longest run of digits and one suffix of a unit. -/
  | withUnit {digits : List Char} {num places : Nat} {isDigit : Char → Bool} {suffix : String}
      {unit : Measure} (h : IsDigits digits num places isDigit) (hsuffix : suffix ∈ unit.suffixes)
      (hlongest : ∀ c ∈ suffix.toList.head?, isDigit c = false) :
      IsLiteral (digits ++ suffix.toList) num places (some unit)

/-! ## Literals are read as numbers -/

section

variable {word : List Char} {num places : Nat} {isDigit goesOn : Char → Bool} {number : Number}
  {unit : Option Measure} {v : Value}

/-- **Documented digits are read** as what they denote, and a suffix ends them for the reader if it
is no digit. -/
theorem IsDigits.exists_isMagnitude (h : IsDigits word num places isDigit) :
    ∃ number goesOn, IsMagnitude word number goesOn ∧
      (Value.mk number none).Denotes num places none ∧
      ∀ c, isDigit c = false → c ≠ '.' → goesOn c = false := by
  cases h with
  | @radix radix digits hdigits hne hfits =>
    have hread := Numeral.read_eq_denotation radix.base digits
    have hmaximum := (natCast_le_maximum_iff _).mpr hfits
    refine ⟨_, _, .radix radix hdigits hne (hread ▸ hmaximum), ?_, fun c hc _ => hc⟩
    rw [hread]
    exact Value.denotes_integer hmaximum
  | whole hdigits hne hfits =>
    have hread := Numeral.read_eq_denotation 10 word
    have hmaximum := (natCast_le_maximum_iff _).mpr hfits
    refine ⟨_, _, .whole hdigits hne (hread ▸ hmaximum), ?_, fun c hc hpoint => ?_⟩
    · rw [hread]
      exact Value.denotes_integer hmaximum
    · show (c.isDigit || c == '.') = false
      rw [hc, beq_eq_false_iff_ne.mpr hpoint, Bool.or_false]
  | @fraction whole fraction hwhole hfraction hne =>
    refine ⟨_, _, .fraction hwhole hfraction hne, ?_, fun c hc _ => hc⟩
    rw [Numeral.read_eq_denotation]
    exact Value.denotes_fraction (Nat.ne_of_gt (List.length_pos_iff.mpr hne))

/-- **Digits that are read are documented.** -/
theorem IsMagnitude.exists_isDigits (h : IsMagnitude word number goesOn) :
    ∃ num places isDigit, IsDigits word num places isDigit ∧
      ∀ c, goesOn c = false → isDigit c = false := by
  cases h with
  | radix radix hdigits hne hfits =>
    rw [Numeral.read_eq_denotation] at hfits
    exact ⟨_, _, _, .radix radix hdigits hne ((natCast_le_maximum_iff _).mp hfits), fun _ hc => hc⟩
  | whole hdigits hne hfits =>
    rw [Numeral.read_eq_denotation] at hfits
    exact ⟨_, _, _, .whole hdigits hne ((natCast_le_maximum_iff _).mp hfits),
      fun _ hc => (Bool.or_eq_false_iff.mp hc).1⟩
  | fraction hwhole hfraction hne =>
    exact ⟨_, _, _, .fraction hwhole hfraction hne, fun _ hc => hc⟩

theorem ofSuffix?_ofList_toList {suffix : String} {unit : Measure} :
    Measure.ofSuffix? (String.ofList suffix.toList) = some unit ↔ suffix ∈ unit.suffixes := by
  rw [String.ofList_toList]
  exact Measure.ofSuffix?_eq_some_iff

theorem IsSuffix.head?_ne_point (h : IsSuffix word) : ∀ c ∈ word.head?, c ≠ '.' := by
  rintro _ hc rfl
  cases h with
  | size h =>
    obtain ⟨⟩ := hc
    exact absurd h (by decide)
  | degree | scale => cases hc

/-- **A literal is a number** whose value is what the literal denotes. -/
theorem IsLiteral.exists_isNumber (h : IsLiteral word num places unit) :
    ∃ v, IsNumber word v ∧ v.Denotes num places unit := by
  cases h with
  | bare h =>
    obtain ⟨number, goesOn, hmagnitude, hdenotes, -⟩ := h.exists_isMagnitude
    exact ⟨_, .plain hmagnitude, hdenotes⟩
  | withUnit h hsuffix hlongest =>
    obtain ⟨number, goesOn, hmagnitude, hdenotes, hstops⟩ := h.exists_isMagnitude
    have hword := ofSuffix?_ofList_toList.mpr hsuffix
    refine ⟨_, .withUnit hmagnitude hword fun c hc => ?_, hdenotes.attach _⟩
    exact hstops c (hlongest c hc) ((isSuffix_of_ofSuffix? hword).head?_ne_point c hc)

/-- **A number is a literal.** -/
theorem IsNumber.exists_isLiteral (h : IsNumber word v) :
    ∃ num places unit, IsLiteral word num places unit := by
  cases h with
  | plain h =>
    obtain ⟨num, places, isDigit, hdigits, -⟩ := h.exists_isDigits
    exact ⟨_, _, _, .bare hdigits⟩
  | @withUnit digits suffix number goesOn unit h hsuffix hstops =>
    obtain ⟨num, places, isDigit, hdigits, hlongest⟩ := h.exists_isDigits
    have hmem := Measure.ofSuffix?_eq_some_iff.mp hsuffix
    have hliteral := IsLiteral.withUnit hdigits hmem fun c hc => by
      rw [String.toList_ofList] at hc
      exact hlongest c (hstops c hc)
    rw [String.toList_ofList] at hliteral
    exact ⟨_, _, _, hliteral⟩

end

/-! ## Texts of one number -/

section

variable {text : String} {limit : Option Nat}

/-- A text that starts like a number is read as one from its first character on. -/
theorem readOne_of_startsNumber (hstarts : startsNumber text.toList = true) :
    readOne 0 text.toList limit = readNumber 0 text.toList limit := by
  cases hcs : text.toList with
  | nil =>
    rw [hcs] at hstarts
    cases hstarts
  | cons c rest =>
    rw [hcs] at hstarts
    rw [readOne, if_pos hstarts]

/-- An error about the number that a text starts with is the error of the text. -/
theorem ofText?_of_readNumber_error (hstarts : startsNumber text.toList = true)
    (hblank : ∀ c ∈ text.toList.head?, Text.isBlank c = false) {error : LexicalError}
    (h : readNumber 0 text.toList limit = .error error) : ofText? text limit = .error error := by
  have hscan : scan text limit = ⟨[], some error⟩ := by
    rw [← readOne_of_startsNumber hstarts] at h
    unfold scan
    cases hcs : text.toList with
    | nil =>
      rw [hcs] at hstarts
      cases hstarts
    | cons c rest =>
      rw [hcs] at hblank h
      rw [scanFrom, hblank c rfl, h]
      rfl
  rw [ofText?, hscan]

/-- Behind the last character of a token there is the end. -/
theorem scanFrom_of_length_le (position : Nat) {skip : Nat} {cs : List Char}
    (h : cs.length ≤ skip) :
    scanFrom position skip cs limit = ⟨[⟨.endOfInput, position + cs.length, 0⟩], none⟩ := by
  induction cs generalizing position skip with
  | nil => rw [scanFrom, List.length_nil, Nat.add_zero]
  | cons c rest ih =>
    cases skip with
    | zero => exact absurd h (Nat.not_succ_le_zero _)
    | succ skip =>
      rw [scanFrom, ih (position + 1) (Nat.le_of_succ_le_succ h), List.length_cons,
        Nat.add_right_comm, Nat.add_assoc]

/-- A number that takes in the whole text is its only token. -/
theorem ofText?_of_readNumber_ok (hstarts : startsNumber text.toList = true)
    (hblank : ∀ c ∈ text.toList.head?, Text.isBlank c = false) {v : Value}
    (h : readNumber 0 text.toList limit = .ok ⟨.number v, text.toList.length⟩) :
    ofText? text limit =
      .ok [⟨.number v, 0, text.length⟩, ⟨.endOfInput, text.length, 0⟩] := by
  have hscan : scan text limit =
      ⟨[⟨.number v, 0, text.length⟩, ⟨.endOfInput, text.length, 0⟩], none⟩ := by
    rw [← readOne_of_startsNumber hstarts] at h
    rw [← String.length_toList]
    unfold scan
    cases hcs : text.toList with
    | nil =>
      rw [hcs] at hstarts
      cases hstarts
    | cons c rest =>
      rw [hcs] at hblank h
      rw [scanFrom, hblank c rfl, h]
      have hlength : (c :: rest).length = 0 + 1 + rest.length := by
        rw [List.length_cons, Nat.zero_add, Nat.add_comm]
      simp only [Bool.false_eq_true, if_false, List.length_cons, Nat.add_sub_cancel,
        scanFrom_of_length_le (0 + 1) (Nat.le_refl rest.length), Nat.zero_add, Nat.add_comm]
  rw [ofText?, hscan]

end

/-- **Literals are exactly the documented ones, but for those with more digits than the interpreter
converts.**  A text of letters, digits, underscores, points and degree signs that starts with a
digit, or with a point and a digit, is one number if it is a literal: the value of the quotient that
the literal denotes.  If it is no literal, there is an error at its start.  A text whose digits are
more than the interpreter's limit is neither: reading it ends in what the interpreter says. -/
theorem ofText?_literal (text : String) (limit : Option Nat)
    (hchars : ∀ c ∈ text.toList,
      c.isAlpha = true ∨ c.isDigit = true ∨ c = '_' ∨ c = '.' ∨ c = '°')
    (hstarts : ∃ c rest, c.isDigit = true ∧
      (text.toList = c :: rest ∨ text.toList = '.' :: c :: rest)) :
    ((∀ bound ∈ limit, ¬ ExceedsDigits bound text.toList) →
        (∀ num places unit, IsLiteral text.toList num places unit →
          ∃ v : Value, v.Denotes num places unit ∧
            ofText? text limit =
              .ok [⟨.number v, 0, text.length⟩, ⟨.endOfInput, text.length, 0⟩]) ∧
        ((∀ num places unit, ¬ IsLiteral text.toList num places unit) →
          ∃ error, ofText? text limit = .error error ∧ error.position = 0 ∧
            error.report.errorClass = .lexical)) ∧
      ∀ bound ∈ limit, ExceedsDigits bound text.toList →
        ∃ error, ofText? text limit = .error error ∧ error.position = 0 ∧
          error.report.errorClass = .conversion := by
  have hcontinues : ∀ c ∈ text.toList, continuesNumber c = true := by
    intro c hc
    rcases hchars c hc with h | h | rfl | rfl | rfl
    · simp only [continuesNumber, isNameChar, isNameStart, h, Bool.true_or]
    · exact continuesNumber_of_isNameChar (isNameChar_of_isDigit h)
    · decide
    · decide
    · decide
  have hnumber : startsNumber text.toList = true := by
    obtain ⟨c, rest, hdigit, htext | htext⟩ := hstarts
    · rw [htext]
      exact startsNumber_cons_of_isDigit hdigit rest
    · rw [htext]
      exact hdigit
  have hblank : ∀ c ∈ text.toList.head?, Text.isBlank c = false :=
    fun c hc => isBlank_of_continuesNumber (hcontinues c (List.mem_of_mem_head? hc))
  refine ⟨fun hlimit => ⟨fun num places unit hliteral => ?_, fun hnone => ?_⟩, ?_⟩
  · obtain ⟨v, hword, hdenotes⟩ := hliteral.exists_isNumber
    refine ⟨v, hdenotes, ofText?_of_readNumber_ok hnumber hblank ?_⟩
    rw [readNumber_of_not_exceedsDigits hlimit]
    have hread : readNumber 0 (text.toList ++ []) = .ok ⟨.number v, text.toList.length⟩ :=
      hword.readNumber (fun _ hc => absurd hc (Option.not_mem_none _)) 0
    rwa [List.append_nil] at hread
  · cases hread : readNumber 0 text.toList with
    | error error =>
      have hwithin := failsOnly_readNumber 0 text.toList error hread
      rw [← readNumber_of_not_exceedsDigits hlimit] at hread
      refine ⟨error, ofText?_of_readNumber_error hnumber hblank hread,
        Nat.lt_one_iff.mp hwithin.2.1, ?_⟩
      rw [error.errorClass_report, LexicalFault.errorClass_report hwithin.2.2.2]
    | ok lexeme =>
      obtain ⟨word, rest, v, htext, -, hword, hrest⟩ := exists_isNumber hnumber hread
      -- nothing is left, since every character could belong to the number
      cases rest with
      | nil =>
        rw [List.append_nil] at htext
        obtain ⟨num, places, unit, hliteral⟩ := hword.exists_isLiteral
        exact absurd (htext ▸ hliteral) (hnone num places unit)
      | cons c rest =>
        have hc := hcontinues c (by rw [htext]; simp)
        exact absurd ((hrest c rfl).symm.trans hc) Bool.false_ne_true
  · intro bound hbound hexceeds
    obtain rfl := hbound
    obtain ⟨fault, hfault, hread⟩ := readNumber_of_exceedsDigits hexceeds 0
    refine ⟨⟨fault, 0⟩, ofText?_of_readNumber_error hnumber hblank hread, rfl, ?_⟩
    rw [LexicalError.errorClass_report, LexicalFault.errorClass_report_of_isConversion hfault]

/-! A one with zeros in front is a literal, however long it is. -/

theorem isDigit_of_mem_zeros_one {count : Nat} {c : Char}
    (h : c ∈ List.replicate count '0' ++ ['1']) : c.isDigit = true := by
  rcases List.mem_append.mp h with h | h
  · rw [List.eq_of_mem_replicate h]
    rfl
  · rw [List.mem_singleton.mp h]
    rfl

theorem isLiteral_zeros_one (count : Nat) :
    IsLiteral (List.replicate count '0' ++ ['1']) 1 0 none := by
  have hone : Numeral.denotation 10 (List.replicate count '0' ++ ['1']) = 1 := by
    rw [← Numeral.read_eq_denotation, Numeral.read_replicate_zero_append]
    rfl
  have hfits : Numeral.denotation 10 (List.replicate count '0' ++ ['1']) ≤ 2 ^ 64 - 1 := by
    rw [hone]
    decide
  have hword := IsDigits.whole (fun _ => isDigit_of_mem_zeros_one) (by simp) hfits
  rw [hone] at hword
  exact .bare hword

theorem exceedsDigits_zeros_one (count : Nat) :
    ExceedsDigits count (List.replicate count '0' ++ ['1']) := by
  have hradix (radix : Radix) : ¬ ['0', radix.letter] <+: List.replicate count '0' ++ ['1'] := by
    rintro ⟨rest, hrest⟩
    have hletter : radix.letter ∈ List.replicate count '0' ++ ['1'] := by
      rw [← hrest]
      simp
    have hdigit := isDigit_of_mem_zeros_one hletter
    cases radix <;> cases hdigit
  have hlong : ExceedsDigits count (List.replicate count '0' ++ ['1'] ++ []) :=
    .whole (fun _ => isDigit_of_mem_zeros_one) (by rwa [List.append_nil]) nofun (by simp)
  rwa [List.append_nil] at hlong

/-- A `B` behind hexadecimal digits is one of them, so the kilobytes are 27; there is no literal
with two suffixes.  Zeros in front of a 1 make it too long for an interpreter that converts as many
digits as there are zeros, although it is a literal for the number 1. -/
theorem ofText?_literal_samples :
    (∃ v : Value, v.Denotes 27 0 (some (.size .kilobyte)) ∧
        ofText? "0x1BK" (some 4300) = .ok [⟨.number v, 0, 5⟩, ⟨.endOfInput, 5, 0⟩]) ∧
      (∃ error, ofText? "4KB" (some 4300) = .error error ∧ error.position = 0 ∧
        error.report.errorClass = .lexical) ∧
      IsLiteral (List.replicate 4300 '0' ++ ['1']) 1 0 none ∧
        ∃ error, ofText? (String.ofList (List.replicate 4300 '0' ++ ['1'])) (some 4300) =
            .error error ∧ error.position = 0 ∧ error.report.errorClass = .conversion := by
  have hfits (cs : List Char) (hcs : cs.length ≤ 16) : ∀ bound ∈ some 4300,
      ¬ ExceedsDigits bound cs := by
    rintro _ ⟨⟩
    exact not_exceedsDigits_of_length_le hcs (by decide)
  refine ⟨?_, ?_, isLiteral_zeros_one 4300, ?_⟩
  · have hdigits : IsDigits ['0', 'x', '1', 'B'] 27 0 (Numeral.isDigitOf 16) :=
      .radix .hexadecimal (List.all_eq_true.mp rfl) (by decide) (by decide)
    have hlongest : ∀ c ∈ "K".toList.head?, Numeral.isDigitOf 16 c = false := by
      rintro _ ⟨⟩
      decide
    have hliteral : IsLiteral (['0', 'x', '1', 'B'] ++ "K".toList) 27 0 (some (.size .kilobyte)) :=
      .withUnit hdigits (by decide) hlongest
    have hsample := ofText?_literal "0x1BK" (some 4300) (by simp)
      ⟨'0', ['x', '1', 'B', 'K'], by decide⟩
    exact (hsample.1 (hfits _ (by decide))).1 _ _ _ hliteral
  · have hsample := (ofText?_literal "4KB" (some 4300) (by simp) ⟨'4', ['K', 'B'], by decide⟩).1
      (hfits _ (by decide))
    refine hsample.2 fun num places unit hliteral => ?_
    obtain ⟨v, -, hone⟩ := hsample.1 num places unit hliteral
    have hfails : (ofText? "4KB" (some 4300)).isOk = false := by with_unfolding_all rfl
    rw [hone] at hfails
    cases hfails
  · have htext : (String.ofList (List.replicate 4300 '0' ++ ['1'])).toList =
        List.replicate 4300 '0' ++ ['1'] := String.toList_ofList
    refine (ofText?_literal (String.ofList (List.replicate 4300 '0' ++ ['1'])) (some 4300)
      (fun c hc => ?_) ⟨'0', List.replicate 4299 '0' ++ ['1'], rfl, .inl ?_⟩).2 4300 rfl ?_
    · rw [htext] at hc
      exact .inr (.inl (isDigit_of_mem_zeros_one hc))
    · rw [htext, ← List.cons_append, ← List.replicate_succ]
    · rw [htext]
      exact exceedsDigits_zeros_one 4300

end Token

end TypedCalc
