import TypedCalc.Proofs.Text.Numeral
import TypedCalc.Proofs.Token.Number
import TypedCalc.Proofs.Token.Spelling

/-!
# Numbers that the interpreter does not convert

An interpreter may have a limit for the decimal digits of a whole number that it converts.  A number
above it ends the reading with what the interpreter says, which is no error of a text; anything else
is read as without a limit.

* `Token.ExceedsDigits`: the texts that start with such a number.
* `Token.readNumber_of_exceedsDigits`, `Token.readNumber_of_not_exceedsDigits`: reading a number
  under a limit.
* `Token.readOne_of_fitsDigits`: a word is read as without a limit if it has no more digits.
* `Token.cut_ofText?`: a limit shows in the tokens of a text only as what the interpreter says.
-/

namespace TypedCalc

/-- Whether an error is what the interpreter says about a number. -/
def LexicalError.IsConversion (error : LexicalError) : Prop := error.fault.isConversion = true

namespace Token

/-! ## Reading under a limit -/

/-- Whether a text starts with a number of more decimal digits than a limit.  It is a whole number
that is written in decimal digits, or a number in another radix which is too large for a literal, so
that an error has to say which one it is.  A point makes decimal digits part of a fraction. -/
inductive ExceedsDigits (limit : Nat) : List Char → Prop
  /-- Decimal digits without a point behind them. -/
  | whole {digits rest : List Char} (hdigits : ∀ c ∈ digits, c.isDigit = true)
      (hradix : ∀ radix : Radix, ¬ ['0', radix.letter] <+: digits ++ rest)
      (hrest : ∀ c ∈ rest.head?, c.isDigit = false ∧ c ≠ '.') (hlong : limit < digits.length) :
      ExceedsDigits limit (digits ++ rest)
  /-- Digits of another radix for a number that does not fit. -/
  | radix (radix : Radix) {digits rest : List Char}
      (hdigits : ∀ c ∈ digits, Numeral.isDigitOf radix.base c = true)
      (hrest : ∀ c ∈ rest.head?, Numeral.isDigitOf radix.base c = false)
      (hlarge : 2 ^ 64 - 1 < Numeral.denotation radix.base digits)
      (hlong : limit < (Nat.toDigits 10 (Numeral.denotation radix.base digits)).length) :
      ExceedsDigits limit ('0' :: radix.letter :: (digits ++ rest))

/-- The bound of a literal is the largest number of the type of literals. -/
theorem natCast_le_maximum_iff (n : Nat) :
    (n : Int) ≤ FixedInt.literalType.maximum ↔ n ≤ 2 ^ 64 - 1 :=
  Int.ofNat_le

theorem maximum_lt_natCast_iff (n : Nat) :
    FixedInt.literalType.maximum < (n : Int) ↔ 2 ^ 64 - 1 < n :=
  Int.ofNat_lt

/-- A radix is announced by a zero and its letter. -/
theorem announcedRadix?_eq_none_iff {cs : List Char} :
    announcedRadix? cs = none ↔ ∀ radix : Radix, ¬ ['0', radix.letter] <+: cs := by
  constructor
  · rintro h radix ⟨rest, rfl⟩
    exact nomatch h.symm.trans radix.ofLetter?_letter
  · intro h
    cases hannounced : announcedRadix? cs with
    | none => rfl
    | some radix =>
      obtain ⟨rest, rfl⟩ := exists_of_announcedRadix? hannounced
      exact absurd ⟨rest, rfl⟩ (h radix)

section

variable {position count number : Nat} {cs : List Char} {limit : Option Nat}

theorem checkDigits_of_le {fault : Nat → LexicalFault} (h : ∀ bound ∈ limit, count ≤ bound) :
    checkDigits position fault count limit = .ok ⟨⟩ := by
  cases limit with
  | none => rfl
  | some bound => exact if_neg (Nat.not_lt.mpr (h bound rfl))

theorem checkDigits_of_lt {fault : Nat → LexicalFault} {bound : Nat} (h : bound < count) :
    checkDigits position fault count (some bound) = .error ⟨fault bound, position⟩ :=
  if_pos h

/-- A limit shows in an error about a number only. -/
theorem literalInteger_of_short (h : FixedInt.literalType.maximum < (number : Int) →
      ∀ bound ∈ limit, (Numeral.write 10 number).length ≤ bound) :
    literalInteger position number limit = literalInteger position number := by
  by_cases hlarge : FixedInt.literalType.maximum < (number : Int)
  · rw [literalInteger, literalInteger, if_pos hlarge, if_pos hlarge, checkDigits_of_le (h hlarge)]
    rfl
  · rw [literalInteger, literalInteger, if_neg hlarge, if_neg hlarge]

theorem readRadixInteger_of_not_exceedsDigits {radix : Radix}
    (hannounced : announcedRadix? cs = some radix) (h : ∀ bound ∈ limit, ¬ ExceedsDigits bound cs) :
    readRadixInteger position radix cs limit = readRadixInteger position radix cs := by
  obtain ⟨rest, rfl⟩ := exists_of_announcedRadix? hannounced
  obtain ⟨digits, tail, rfl, hdigits, htail⟩ := exists_run (Numeral.isDigitOf radix.base) rest
  simp only [readRadixInteger, List.drop_succ_cons, List.drop_zero,
    takeWhile_append_of_head hdigits htail]
  rw [literalInteger_of_short fun hlarge bound hbound => Nat.not_lt.mp fun hlong => ?_]
  rw [maximum_lt_natCast_iff, Numeral.read_eq_denotation] at hlarge
  rw [Numeral.read_eq_denotation] at hlong
  exact h bound hbound (.radix radix hdigits htail hlarge hlong)

theorem readDecimal_of_not_exceedsDigits (hannounced : announcedRadix? cs = none)
    (h : ∀ bound ∈ limit, ¬ ExceedsDigits bound cs) :
    readDecimal position cs limit = readDecimal position cs := by
  obtain ⟨whole, rest, rfl, hwhole, hrest⟩ := exists_run Char.isDigit cs
  simp only [readDecimal, takeWhile_append_of_head hwhole hrest, List.drop_left]
  split
  · rfl
  · rename_i hpoint
    have hshort : ∀ bound ∈ limit, whole.length ≤ bound := by
      refine fun bound hbound => Nat.not_lt.mp fun hlong => h bound hbound ?_
      refine .whole hwhole (announcedRadix?_eq_none_iff.mp hannounced)
        (fun c hc => ⟨hrest c hc, ?_⟩) hlong
      rintro rfl
      obtain ⟨more, rfl⟩ := List.head?_eq_some_iff.mp hc
      exact hpoint more rfl
    have hconvert : convertDigits position whole limit = .ok (Numeral.read 10 whole) := by
      rw [convertDigits, checkDigits_of_le hshort]
      rfl
    rw [hconvert, convertDigits_none]
    show literalInteger position _ limit >>= _ = literalInteger position _ >>= _
    rw [literalInteger_of_short fun hlarge bound hbound => ?_]
    -- a number that is too large has a digit, so its numeral is at least as long as its text
    have hne : whole ≠ [] := by
      rintro rfl
      exact absurd hlarge (by decide)
    exact Nat.le_trans (Numeral.length_write_read_le hne hwhole) (hshort bound hbound)

/-- **Below the limit it does not show.** -/
theorem readNumber_of_not_exceedsDigits (h : ∀ bound ∈ limit, ¬ ExceedsDigits bound cs) :
    readNumber position cs limit = readNumber position cs := by
  have hmagnitude : readMagnitude position cs limit = readMagnitude position cs := by
    unfold readMagnitude
    split
    · exact readRadixInteger_of_not_exceedsDigits ‹_› h
    · exact readDecimal_of_not_exceedsDigits ‹_› h
  rw [readNumber, hmagnitude]
  rfl

/-- A number of another radix that does not fit is an error, and the error says which number it is
if the interpreter writes that many digits. -/
theorem readNumber_of_large {radix : Radix} {digits rest : List Char}
    (hdigits : ∀ c ∈ digits, Numeral.isDigitOf radix.base c = true)
    (hrest : ∀ c ∈ rest.head?, Numeral.isDigitOf radix.base c = false)
    (hlarge : 2 ^ 64 - 1 < Numeral.denotation radix.base digits) :
    readNumber position ('0' :: radix.letter :: (digits ++ rest)) limit =
      checkDigits position .tooManyDigitsToWrite
          (Nat.toDigits 10 (Numeral.denotation radix.base digits)).length limit >>= fun _ =>
        .error ⟨.integerTooLarge (Numeral.denotation radix.base digits), position⟩ := by
  have hne : digits.isEmpty = false := by
    refine List.isEmpty_eq_false_iff.mpr ?_
    rintro rfl
    exact absurd hlarge (Nat.not_lt_zero _)
  have hannounced : announcedRadix? ('0' :: radix.letter :: (digits ++ rest)) = some radix :=
    radix.ofLetter?_letter
  rw [readNumber, readMagnitude, hannounced]
  simp only [readRadixInteger, List.drop_succ_cons, List.drop_zero,
    takeWhile_append_of_head hdigits hrest, hne, Bool.false_eq_true, if_false,
    Numeral.read_eq_denotation]
  rw [literalInteger, if_pos ((maximum_lt_natCast_iff _).mpr hlarge)]
  have hwrite : Numeral.write 10 = Nat.toDigits 10 := rfl
  rw [hwrite]
  cases checkDigits position .tooManyDigitsToWrite
    (Nat.toDigits 10 (Numeral.denotation radix.base digits)).length limit <;> rfl

/-- **Above the limit the interpreter refuses the number**, whatever stands behind it. -/
theorem readNumber_of_exceedsDigits {bound : Nat} (h : ExceedsDigits bound cs) (position : Nat) :
    ∃ fault : LexicalFault, fault.isConversion = true ∧
      readNumber position cs (some bound) = .error ⟨fault, position⟩ := by
  cases h with
  | @whole digits rest hdigits hradix hrest hlong =>
    have hannounced := announcedRadix?_eq_none_iff.mpr hradix
    have htake := takeWhile_append_of_head hdigits fun c hc => (hrest c hc).1
    refine ⟨.tooManyDigits bound digits.length, rfl, ?_⟩
    rw [readNumber, readMagnitude, hannounced]
    simp only [readDecimal, htake, List.drop_left, convertDigits]
    rw [checkDigits_of_lt hlong]
    split
    · exact absurd rfl (hrest '.' rfl).2
    · rfl
  | @radix radix digits rest hdigits hrest hlarge hlong =>
    refine ⟨.tooManyDigitsToWrite bound, rfl, ?_⟩
    rw [readNumber_of_large hdigits hrest hlarge, checkDigits_of_lt hlong]
    rfl

/-- A text of a few characters is below any limit of as many digits. -/
theorem not_exceedsDigits_of_length_le {bound : Nat} (hcs : cs.length ≤ 16) (hbound : 16 ≤ bound) :
    ¬ ExceedsDigits bound cs := by
  intro h
  cases h with
  | whole _ _ _ hlong =>
    rw [List.length_append] at hcs
    omega
  | @radix radix digits rest hdigits _ hlarge _ =>
    rw [← Numeral.read_eq_denotation] at hlarge
    have hlength : digits.length ≤ 14 := by
      rw [List.length_cons, List.length_cons, List.length_append] at hcs
      omega
    have hbase : radix.base ≤ 16 := by cases radix <;> decide
    have hpow : radix.base ^ digits.length ≤ 16 ^ 14 :=
      (Nat.pow_le_pow_left hbase _).trans (Nat.pow_le_pow_right (by decide) hlength)
    have hlt := (Numeral.read_lt_pow hdigits).trans_le hpow
    exact absurd (hlarge.trans hlt) (by decide)

/-! ## Words under a limit -/

/-- Whether the word at the start of a text has no more decimal digits to convert than a limit.
Those of a number are not converted if a point follows them. -/
structure FitsDigits (bound : Nat) (cs : List Char) : Prop where
  number : (cs.takeWhile Char.isDigit).length ≤ bound ∨
    (cs.dropWhile Char.isDigit).head? = some '.'
  history : cs.head? = some '$' → ((cs.drop 1).takeWhile Char.isDigit).length ≤ bound

/-- Only numbers and history references have digits to convert. -/
theorem fitsDigits_of_head (bound : Nat) (h : ∀ c ∈ cs.head?, c.isDigit = false ∧ c ≠ '$') :
    FitsDigits bound cs := by
  refine ⟨.inl ?_, fun hhead => absurd rfl (h '$' hhead).2⟩
  cases cs with
  | nil => exact Nat.zero_le _
  | cons c rest =>
    rw [List.takeWhile_cons_of_neg (Bool.eq_false_iff.mp (h c rfl).1)]
    exact Nat.zero_le _

theorem FitsDigits.not_exceedsDigits {bound : Nat} {lexeme : Lexeme} (h : FitsDigits bound cs)
    (hread : readNumber position cs = .ok lexeme) : ¬ ExceedsDigits bound cs := by
  intro hexceeds
  cases hexceeds with
  | @whole digits rest hdigits _ hrest hlong =>
    have htake := takeWhile_append_of_head hdigits fun c hc => (hrest c hc).1
    rcases h.number with hshort | hpoint
    · rw [htake] at hshort
      exact Nat.not_le.mpr hlong hshort
    · have hdrop : (digits ++ rest).dropWhile Char.isDigit = rest := by
        have happend := List.takeWhile_append_dropWhile (p := Char.isDigit) (l := digits ++ rest)
        rw [htake] at happend
        exact List.append_cancel_left happend
      rw [hdrop] at hpoint
      exact (hrest '.' hpoint).2 rfl
  | radix radix hdigits hrest hlarge hlong =>
    rw [readNumber_of_large hdigits hrest hlarge] at hread
    cases hread

theorem FitsDigits.readHistory_eq {bound : Nat}
    (h : ((cs.drop 1).takeWhile Char.isDigit).length ≤ bound) :
    readHistory position cs (some bound) = readHistory position cs := by
  have hconvert : convertDigits position ((cs.drop 1).takeWhile Char.isDigit) (some bound) =
      convertDigits position ((cs.drop 1).takeWhile Char.isDigit) := by
    rw [convertDigits, checkDigits_of_le fun b hb => Option.some.inj hb ▸ h]
    rfl
  simp only [readHistory, hconvert]

/-- **A word with few digits is read as without a limit.** -/
theorem readOne_of_fitsDigits {lexeme : Lexeme} (h : ∀ bound ∈ limit, FitsDigits bound cs)
    (hread : readOne position cs = .ok lexeme) : readOne position cs limit = .ok lexeme := by
  cases limit with
  | none => exact hread
  | some bound =>
    have hfits := h bound rfl
    cases cs with
    | nil => exact hread
    | cons c rest =>
      unfold readOne at hread ⊢
      dsimp only at hread ⊢
      split at hread
      · rw [if_pos ‹_›, readNumber_of_not_exceedsDigits fun b hb => ?_, hread]
        exact Option.some.inj hb ▸ hfits.not_exceedsDigits hread
      rw [if_neg ‹_›]
      split at hread
      · rename_i hdollar
        rw [if_pos hdollar, FitsDigits.readHistory_eq (hfits.history (congrArg some hdollar))]
        exact hread
      · rw [if_neg ‹_›]
        exact hread

/-- Neither a name nor an operator nor a parenthesis has digits to convert. -/
theorem readOne_of_head (limit : Option Nat) {lexeme : Lexeme}
    (h : ∀ c ∈ cs.head?, c.isDigit = false ∧ c ≠ '$') (hread : readOne position cs = .ok lexeme) :
    readOne position cs limit = .ok lexeme :=
  readOne_of_fitsDigits (fun bound _ => fitsDigits_of_head bound h) hread

end

/-! ## Digits of literals -/

/-- How many decimal digits of the text of a number are converted.  Those of a fraction are not. -/
def wholeDigits : Number → Nat
  | .integer n => (Number.integer n).describe.toList.length
  | .float _ => 0

/-- No unit goes on with the digits before it, nor does what ends a word. -/
theorem not_isDigit_after (unit : Option Measure) {rest : List Char} (hrest : EndsWord rest) :
    ∀ c ∈ (suffixText unit ++ rest).head?, c.isDigit = false := by
  have hunits : ∀ unit ∈ Measure.all, (suffixText (some unit)).all (!·.isDigit) = true := by decide
  have hsuffix : ∀ c ∈ suffixText unit, c.isDigit = false := by
    intro c hc
    cases unit with
    | none => exact absurd hc List.not_mem_nil
    | some unit =>
      have hdigit := List.all_eq_true.mp (hunits unit unit.mem_all) c hc
      rwa [Bool.not_eq_true'] at hdigit
  intro c hc
  rw [List.head?_append] at hc
  rcases Option.or_eq_some_iff.mp hc with hc | ⟨-, hc⟩
  · exact hsuffix c (List.mem_of_mem_head? hc)
  · rcases hrest c hc with rfl | rfl | rfl <;> rfl

/-- A literal has the digits of its whole number, and none to convert if it has a fraction. -/
theorem fitsDigits_describe {v : Value} (h : v.IsPlainLiteral) {bound : Nat}
    (hbound : wholeDigits v.number ≤ bound) {rest : List Char} (hrest : EndsWord rest) :
    FitsDigits bound (v.describe.toList ++ rest) := by
  have hnotDollar : (v.describe.toList ++ rest).head? ≠ some '$' := by
    have hnumber := isNumber_describe h
    obtain ⟨c, cs, htext⟩ := List.exists_cons_of_ne_nil hnumber.ne_nil
    have hc : continuesNumber c = true := hnumber.continuesNumber c (htext ▸ List.mem_cons_self)
    rw [htext]
    rintro ⟨⟩
    exact absurd hc (by decide)
  refine ⟨?_, fun hdollar => absurd hdollar hnotDollar⟩
  rw [toList_describe, List.append_assoc]
  cases h with
  | @integer n unit htype hunit =>
    obtain ⟨number, -, htext⟩ := exists_describe_integer htype
    have hdigits : ∀ c ∈ (Number.integer n).describe.toList, c.isDigit = true := by
      rw [htext]
      exact fun _ => Numeral.isDigit_of_mem_write
    rw [takeWhile_append_of_head hdigits (not_isDigit_after unit hrest)]
    exact .inl hbound
  | @float units hunits unit hplain =>
    obtain ⟨whole, fraction, htext, hwhole, -⟩ := exists_describe_float hunits hplain
    right
    rw [htext, List.append_assoc, List.dropWhile_append_of_pos hwhole]
    rfl

/-- A history reference has the digits of its index. -/
theorem fitsDigits_history {index bound : Nat} (hbound : (Numeral.write 10 index).length ≤ bound)
    {rest : List Char} (hrest : EndsWord rest) :
    FitsDigits bound ('$' :: Numeral.write 10 index ++ rest) := by
  have hafter : ∀ c ∈ rest.head?, c.isDigit = false := not_isDigit_after none hrest
  have hdigits : ∀ c ∈ Numeral.write 10 index, c.isDigit = true :=
    fun _ => Numeral.isDigit_of_mem_write
  refine ⟨.inl (Nat.zero_le _), fun _ => ?_⟩
  rw [List.cons_append, List.drop_succ_cons, List.drop_zero,
    takeWhile_append_of_head hdigits hafter]
  exact hbound

/-! ## Texts under a limit -/

theorem cut_readNumber (position : Nat) (cs : List Char) (limit : Option Nat) :
    Result.Cut LexicalError.IsConversion (limit = none) (readNumber position cs limit)
      (readNumber position cs) := by
  cases limit with
  | none => exact .refl _
  | some bound =>
    by_cases h : ExceedsDigits bound cs
    · obtain ⟨fault, hfault, hread⟩ := readNumber_of_exceedsDigits h position
      rw [hread]
      exact .inr ⟨Option.some_ne_none bound, _, rfl, hfault⟩
    · exact .inl (readNumber_of_not_exceedsDigits fun b hb => Option.some.inj hb ▸ h)

theorem cut_convertDigits (position : Nat) (digits : List Char) (limit : Option Nat) :
    Result.Cut LexicalError.IsConversion (limit = none) (convertDigits position digits limit)
      (convertDigits position digits) := by
  cases limit with
  | none => exact .refl _
  | some bound =>
    by_cases h : bound < digits.length
    · rw [convertDigits, checkDigits_of_lt h]
      exact .inr ⟨Option.some_ne_none bound, _, rfl, rfl⟩
    · rw [convertDigits, checkDigits_of_le fun b hb => Option.some.inj hb ▸ Nat.not_lt.mp h]
      exact .refl _

theorem cut_readHistory (position : Nat) (cs : List Char) (limit : Option Nat) :
    Result.Cut LexicalError.IsConversion (limit = none) (readHistory position cs limit)
      (readHistory position cs) := by
  have hconvert := cut_convertDigits position ((cs.drop 1).takeWhile Char.isDigit) limit
  unfold readHistory
  dsimp only
  split
  · exact .refl _
  split
  · exact .bind hconvert fun _ => .refl _
  split
  · split
    · exact .refl _
    · exact .bind hconvert fun _ => .refl _
  · exact .bind hconvert fun _ => .refl _

theorem cut_readOne (position : Nat) (cs : List Char) (limit : Option Nat) :
    Result.Cut LexicalError.IsConversion (limit = none) (readOne position cs limit)
      (readOne position cs) := by
  unfold readOne
  split
  · exact .refl _
  · split
    · exact cut_readNumber ..
    · split
      · exact cut_readHistory ..
      · exact .refl _

/-- A limit shows in a scan only as what the interpreter says, which ends it. -/
theorem scanFrom_eq_or (limit : Option Nat) (position skip : Nat) (cs : List Char) :
    scanFrom position skip cs limit = scanFrom position skip cs ∨
      limit ≠ none ∧ ∃ error, (scanFrom position skip cs limit).failure = some error ∧
        error.IsConversion := by
  induction cs generalizing position skip with
  | nil => exact .inl rfl
  | cons c rest ih =>
    cases skip with
    | succ skip => exact ih (position + 1) skip
    | zero =>
      rw [scanFrom, scanFrom]
      by_cases hblank : Text.isBlank c = true
      · rw [if_pos hblank, if_pos hblank]
        exact ih (position + 1) 0
      rw [if_neg hblank, if_neg hblank]
      rcases cut_readOne position (c :: rest) limit with heq | ⟨hlimit, error, hread, hfault⟩
      · rw [heq]
        cases readOne position (c :: rest) with
        | error error => exact .inl rfl
        | ok lexeme =>
          dsimp only
          rcases ih (position + 1) (lexeme.length - 1) with heq | ⟨hlimit, error, hfailure, hfault⟩
          · rw [heq]
            exact .inl rfl
          · exact .inr ⟨hlimit, error, hfailure, hfault⟩
      · rw [hread]
        exact .inr ⟨hlimit, error, rfl, hfault⟩

/-- **A limit shows in the tokens of a text only as what the interpreter says.** -/
theorem cut_ofText? (text : String) (limit : Option Nat) :
    Result.Cut LexicalError.IsConversion (limit = none) (ofText? text limit)
      (ofText? text) := by
  rcases scanFrom_eq_or limit 0 0 text.toList with heq | ⟨hlimit, error, hfailure, hfault⟩
  · left
    rw [ofText?, scan, heq, ← scan, ← ofText?]
  · refine .inr ⟨hlimit, error, ?_, hfault⟩
    rw [ofText?, scan, hfailure]

end Token

end TypedCalc
