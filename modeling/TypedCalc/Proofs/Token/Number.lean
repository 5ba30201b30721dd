import TypedCalc.Proofs.Binary64.Text
import TypedCalc.Proofs.Token.Scan

/-!
# The words of numbers

A number is digits in one of four bases, or digits with a point among them, and perhaps a suffix
behind them.  What makes a text a number has nothing to do with what stands around it (`IsNumber`),
and reading takes a text that starts with a number and does not go on with it for that number.

* `Token.IsMagnitude`: the texts of numbers without a suffix.
* `Token.IsNumber.readNumber`: a number is read as the value that it denotes.
* `Token.exists_isNumber`: nothing else is read as a number.
-/

namespace TypedCalc

/-! ## Runs of characters -/

/-- A text is a run of characters with a property and a rest that does not go on with it. -/
theorem exists_run (p : Char → Bool) (cs : List Char) :
    ∃ run rest, cs = run ++ rest ∧ (∀ c ∈ run, p c = true) ∧ ∀ c ∈ rest.head?, p c = false := by
  refine ⟨cs.takeWhile p, cs.dropWhile p, List.takeWhile_append_dropWhile.symm,
    fun c hc => List.mem_takeWhile_imp hc, fun c hc => ?_⟩
  have hhead := List.head?_dropWhile_not p cs
  rw [Option.mem_def.mp hc] at hhead
  exact hhead

theorem isNameChar_of_isDigit {c : Char} (h : c.isDigit = true) : isNameChar c = true := by
  rw [isNameChar, h, Bool.or_true]

theorem isNameChar_of_isDigitOf {base : Nat} {c : Char} (h : Numeral.isDigitOf base c = true) :
    isNameChar c = true := by
  rw [Numeral.isDigitOf, Bool.and_eq_true] at h
  have hclass := h.1
  rw [isNameChar, isNameStart]
  delta Char.isAlpha Char.isUpper Char.isLower
  simp only [Bool.or_eq_true, Bool.and_eq_true, decide_eq_true_eq, ge_iff_le] at hclass ⊢
  rcases hclass with (hdigit | hlower) | hupper
  · exact .inr hdigit
  · exact .inl (.inl (.inr hlower))
  · exact .inl (.inl (.inl hupper))

theorem continuesNumber_of_isNameChar {c : Char} (h : isNameChar c = true) :
    continuesNumber c = true := by
  rw [continuesNumber, h, Bool.true_or, Bool.true_or]

theorem Radix.ofLetter?_letter (radix : Radix) : ofLetter? radix.letter = some radix := by
  cases radix <;> rfl

theorem Radix.letter_of_ofLetter? {radix : Radix} {c : Char} (h : ofLetter? c = some radix) :
    c = radix.letter := by
  unfold ofLetter? at h
  split at h <;> cases h <;> rfl

theorem Radix.ofLetter?_eq_none {c : Char} (h : isNameChar c = false ∨ c.isDigit = true) :
    ofLetter? c = none := by
  cases hradix : ofLetter? c with
  | none => rfl
  | some radix =>
    obtain rfl := letter_of_ofLetter? hradix
    cases radix <;> rcases h with h | h <;> exact absurd h (by decide)

namespace Token

/-! ## Numbers without a suffix -/

/-- Whether a text is a number without a suffix, the number that it denotes, and the characters
that would go on with it. -/
inductive IsMagnitude : List Char → Number → (Char → Bool) → Prop
  /-- The digits of an announced radix. -/
  | radix (radix : Radix) {digits : List Char}
      (hdigits : ∀ c ∈ digits, Numeral.isDigitOf radix.base c = true) (hne : digits ≠ [])
      (hfits : (Numeral.read radix.base digits : Int) ≤ FixedInt.literalType.maximum) :
      IsMagnitude ('0' :: radix.letter :: digits)
        (.integer (.ofInt FixedInt.literalType (Numeral.read radix.base digits)))
        (Numeral.isDigitOf radix.base)
  /-- Decimal digits. -/
  | whole {digits : List Char} (hdigits : ∀ c ∈ digits, c.isDigit = true) (hne : digits ≠ [])
      (hfits : (Numeral.read 10 digits : Int) ≤ FixedInt.literalType.maximum) :
      IsMagnitude digits (.integer (.ofInt FixedInt.literalType (Numeral.read 10 digits)))
        (fun c => c.isDigit || c == '.')
  /-- A point with decimal digits behind it, and perhaps some in front. -/
  | fraction {whole fraction : List Char} (hwhole : ∀ c ∈ whole, c.isDigit = true)
      (hfraction : ∀ c ∈ fraction, c.isDigit = true) (hne : fraction ≠ []) :
      IsMagnitude (whole ++ '.' :: fraction)
        (.float (Decimal.toBinary64 false
          ⟨Numeral.read 10 (whole ++ fraction), -(fraction.length : Int)⟩))
        Char.isDigit

section

variable {position n : Nat} {word tail cs : List Char} {number : Number} {goesOn : Char → Bool}

theorem IsMagnitude.continuesNumber (h : IsMagnitude word number goesOn) :
    ∀ c ∈ word, continuesNumber c = true := by
  have hdigit {c : Char} (hc : c.isDigit = true) : TypedCalc.continuesNumber c = true :=
    continuesNumber_of_isNameChar (isNameChar_of_isDigit hc)
  cases h with
  | radix radix hdigits =>
    refine List.forall_mem_cons.mpr ⟨rfl, List.forall_mem_cons.mpr ⟨?_, fun c hc => ?_⟩⟩
    · cases radix <;> decide
    · exact continuesNumber_of_isNameChar (isNameChar_of_isDigitOf (hdigits c hc))
  | whole hdigits => exact fun c hc => hdigit (hdigits c hc)
  | fraction hwhole hfraction =>
    intro c hc
    rcases List.mem_append.mp hc with hc | hc
    · exact hdigit (hwhole c hc)
    · rcases List.mem_cons.mp hc with rfl | hc
      · decide
      · exact hdigit (hfraction c hc)

/-- What goes on with the digits goes on with the number. -/
theorem IsMagnitude.not_goesOn (h : IsMagnitude word number goesOn) {c : Char}
    (hc : TypedCalc.continuesNumber c = false) : goesOn c = false := by
  have hname : isNameChar c = false :=
    Bool.eq_false_iff.mpr fun hname =>
      Bool.false_ne_true (hc.symm.trans (continuesNumber_of_isNameChar hname))
  have hdigit : c.isDigit = false :=
    Bool.eq_false_iff.mpr fun hdigit =>
      Bool.false_ne_true (hname.symm.trans (isNameChar_of_isDigit hdigit))
  cases h with
  | radix radix =>
    exact Bool.eq_false_iff.mpr fun hdigit =>
      Bool.false_ne_true (hname.symm.trans (isNameChar_of_isDigitOf hdigit))
  | whole =>
    have hpoint : (c == '.') = false :=
      beq_eq_false_iff_ne.mpr (by rintro rfl; exact absurd hc (by decide))
    show (c.isDigit || c == '.') = false
    rw [hdigit, hpoint, Bool.or_false]
  | fraction => exact hdigit

theorem startsNumber_cons_of_ne {c : Char} (h : c ≠ '.') :
    startsNumber (c :: cs) = c.isDigit := by
  unfold startsNumber
  split
  · rename_i heq
    exact absurd (List.cons.inj heq).1 h
  · rename_i heq
    rw [(List.cons.inj heq).1]
  · rename_i heq
    exact absurd heq (List.cons_ne_nil _ _)

theorem startsNumber_cons_of_isDigit {c : Char} (h : c.isDigit = true) (cs : List Char) :
    startsNumber (c :: cs) = true :=
  (startsNumber_cons_of_ne (ne_of_isDigit h (by decide))).trans h

/-- A number starts with a digit, or with a point and a digit. -/
theorem IsMagnitude.startsNumber (h : IsMagnitude word number goesOn) (tail : List Char) :
    startsNumber (word ++ tail) = true := by
  cases h with
  | radix radix => exact startsNumber_cons_of_isDigit (by decide) _
  | whole hdigits hne =>
    obtain ⟨c, cs, rfl⟩ := List.exists_cons_of_ne_nil hne
    exact startsNumber_cons_of_isDigit (hdigits c (List.mem_cons_self ..)) _
  | @fraction whole fraction hwhole hfraction hne =>
    cases whole with
    | nil =>
      obtain ⟨c, cs, rfl⟩ := List.exists_cons_of_ne_nil hne
      exact hfraction c (List.mem_cons_self ..)
    | cons c cs => exact startsNumber_cons_of_isDigit (hwhole c (List.mem_cons_self ..)) _

/-- A radix is announced by the second character. -/
theorem announcedRadix?_eq_none_of_drop (h : ∀ c ∈ (cs.drop 1).head?, Radix.ofLetter? c = none) :
    announcedRadix? cs = none := by
  unfold announcedRadix?
  split
  · exact h _ rfl
  · rfl

theorem announcedRadix?_append_eq_none {digits : List Char}
    (hdigits : ∀ c ∈ digits, c.isDigit = true) (hne : digits ≠ [])
    (htail : ∀ c ∈ tail.head?, Radix.ofLetter? c = none) :
    announcedRadix? (digits ++ tail) = none := by
  refine announcedRadix?_eq_none_of_drop ?_
  rcases digits with - | ⟨first, - | ⟨second, rest⟩⟩
  · exact absurd rfl hne
  · exact htail
  · rintro _ ⟨⟩
    exact Radix.ofLetter?_eq_none (.inr (hdigits second (by simp)))

theorem exists_of_announcedRadix? {radix : Radix} (h : announcedRadix? cs = some radix) :
    ∃ rest, cs = '0' :: radix.letter :: rest := by
  unfold announcedRadix? at h
  split at h
  · rename_i letter rest
    exact ⟨rest, by rw [Radix.letter_of_ofLetter? h]⟩
  · cases h

theorem literalInteger_of_le (position : Nat) {number : Nat}
    (h : (number : Int) ≤ FixedInt.literalType.maximum) :
    literalInteger position number = .ok (.integer (.ofInt FixedInt.literalType number)) :=
  if_neg (Int.not_lt.mpr h)

theorem literalInteger_eq_ok {value : Nat} (h : literalInteger position value = .ok number) :
    (value : Int) ≤ FixedInt.literalType.maximum ∧
      number = .integer (.ofInt FixedInt.literalType value) := by
  unfold literalInteger at h
  split at h
  · cases h
  · cases h
    exact ⟨Int.not_lt.mp ‹_›, rfl⟩

/-- **A number without a suffix** is read as what it denotes, if nothing goes on with it. -/
theorem IsMagnitude.readMagnitude (h : IsMagnitude word number goesOn)
    (htail : ∀ c ∈ tail.head?, goesOn c = false ∧ Radix.ofLetter? c = none) (position : Nat) :
    readMagnitude position (word ++ tail) = .ok (number, word.length) := by
  cases h with
  | @radix radix digits hdigits hne hfits =>
    have hannounced : announcedRadix? ('0' :: radix.letter :: digits ++ tail) = some radix :=
      radix.ofLetter?_letter
    have htake := takeWhile_append_of_head hdigits fun c hc => (htail c hc).1
    have hempty : digits.isEmpty = false := List.isEmpty_eq_false_iff.mpr hne
    rw [Token.readMagnitude, hannounced]
    simp only [readRadixInteger, List.cons_append, List.drop_succ_cons, List.drop_zero, htake,
      hempty, Bool.false_eq_true, if_false, literalInteger_of_le position hfits, List.length_cons,
      Nat.add_comm 2]
    rfl
  | whole hdigits hne hfits =>
    have hpoint : ∀ rest, tail ≠ '.' :: rest := by
      rintro rest rfl
      exact absurd (htail '.' rfl).1 (by decide)
    have hstops : ∀ c ∈ tail.head?, c.isDigit = false := by
      intro c hc
      have hc := (htail c hc).1
      exact (Bool.or_eq_false_iff.mp hc).1
    have htake := takeWhile_append_of_head hdigits hstops
    rw [Token.readMagnitude, announcedRadix?_append_eq_none hdigits hne fun c hc => (htail c hc).2]
    unfold readDecimal
    simp only [htake, List.drop_left, convertDigits_none, bind, Except.bind,
      literalInteger_of_le position hfits]
    rfl
  | @fraction whole fraction hwhole hfraction hne =>
    have hannounced : announcedRadix? (whole ++ '.' :: fraction ++ tail) = none := by
      rw [List.append_assoc]
      cases whole with
      | nil => rfl
      | cons c cs =>
        exact announcedRadix?_append_eq_none hwhole (List.cons_ne_nil _ _) (by rintro _ ⟨⟩; rfl)
    have htake : (whole ++ '.' :: (fraction ++ tail)).takeWhile Char.isDigit = whole :=
      takeWhile_append_of_head hwhole (by rintro _ ⟨⟩; rfl)
    have htakeFraction := takeWhile_append_of_head hfraction fun c hc => (htail c hc).1
    have hempty : fraction.isEmpty = false := List.isEmpty_eq_false_iff.mpr hne
    rw [Token.readMagnitude, hannounced, List.append_assoc, List.cons_append]
    unfold readDecimal
    simp only [htake, List.drop_left, htakeFraction, hempty, Bool.false_eq_true, if_false]
    rw [List.length_append, List.length_cons, Nat.add_assoc, Nat.add_comm 1]
    rfl

theorem exists_isMagnitude_radix {radix : Radix} (hannounced : announcedRadix? cs = some radix)
    (h : readRadixInteger position radix cs = .ok (number, n)) :
    ∃ word tail goesOn, cs = word ++ tail ∧ n = word.length ∧ IsMagnitude word number goesOn ∧
      ∀ c ∈ tail.head?, goesOn c = false := by
  obtain ⟨rest, rfl⟩ := exists_of_announcedRadix? hannounced
  obtain ⟨digits, tail, rfl, hdigits, htail⟩ := exists_run (Numeral.isDigitOf radix.base) rest
  simp only [readRadixInteger, List.drop_succ_cons, List.drop_zero,
    takeWhile_append_of_head hdigits htail] at h
  split at h
  · cases h
  rename_i hempty
  obtain ⟨value, hvalue, hresult⟩ := Result.bind_eq_ok_iff.mp h
  obtain ⟨hfits, rfl⟩ := literalInteger_eq_ok hvalue
  cases hresult
  exact ⟨'0' :: radix.letter :: digits, tail, _, rfl, Nat.add_comm 2 _,
    .radix radix hdigits (by simpa using hempty) hfits, htail⟩

/-- A number that does not start with a point starts with a digit. -/
theorem ne_nil_of_startsNumber {whole rest : List Char}
    (hstarts : startsNumber (whole ++ rest) = true) (hrest : ∀ c ∈ rest.head?, c.isDigit = false)
    (hpoint : ∀ more, rest ≠ '.' :: more) : whole ≠ [] := by
  rintro rfl
  rw [List.nil_append] at hstarts
  unfold startsNumber at hstarts
  split at hstarts
  · exact hpoint _ rfl
  · exact Bool.false_ne_true ((hrest _ rfl).symm.trans hstarts)
  · cases hstarts

theorem exists_isMagnitude_decimal (hstarts : startsNumber cs = true)
    (h : readDecimal position cs = .ok (number, n)) :
    ∃ word tail goesOn, cs = word ++ tail ∧ n = word.length ∧ IsMagnitude word number goesOn ∧
      ∀ c ∈ tail.head?, goesOn c = false := by
  obtain ⟨whole, rest, rfl, hwhole, hrest⟩ := exists_run Char.isDigit cs
  simp only [readDecimal, takeWhile_append_of_head hwhole hrest, List.drop_left] at h
  split at h
  · rename_i more
    obtain ⟨fraction, tail, rfl, hfraction, htail⟩ := exists_run Char.isDigit more
    simp only [takeWhile_append_of_head hfraction htail] at h
    split at h
    · cases h
    rename_i hempty
    cases h
    refine ⟨whole ++ '.' :: fraction, tail, _, by simp, ?_,
      .fraction hwhole hfraction (by simpa using hempty), htail⟩
    rw [List.length_append, List.length_cons, Nat.add_assoc, Nat.add_comm 1]
  · rename_i hpoint
    obtain ⟨value, hvalue, hresult⟩ := Result.bind_eq_ok_iff.mp h
    cases hvalue
    obtain ⟨number, hnumber, hresult⟩ := Result.bind_eq_ok_iff.mp hresult
    obtain ⟨hfits, rfl⟩ := literalInteger_eq_ok hnumber
    cases hresult
    have hne := ne_nil_of_startsNumber hstarts hrest hpoint
    refine ⟨whole, rest, _, rfl, rfl, .whole hwhole hne hfits, fun c hc => ?_⟩
    have hc' : c ≠ '.' := by
      rintro rfl
      obtain ⟨more, rfl⟩ := List.head?_eq_some_iff.mp hc
      exact hpoint more rfl
    show (c.isDigit || c == '.') = false
    rw [hrest c hc, beq_eq_false_iff_ne.mpr hc', Bool.or_false]

/-- **Nothing else** is read as a number without a suffix. -/
theorem exists_isMagnitude (hstarts : startsNumber cs = true)
    (h : readMagnitude position cs = .ok (number, n)) :
    ∃ word tail goesOn, cs = word ++ tail ∧ n = word.length ∧ IsMagnitude word number goesOn ∧
      ∀ c ∈ tail.head?, goesOn c = false := by
  unfold readMagnitude at h
  split at h
  · rename_i radix hannounced
    exact exists_isMagnitude_radix hannounced h
  · exact exists_isMagnitude_decimal hstarts h

end

/-! ## Suffixes -/

section

variable {position : Nat} {suffix rest : List Char} {number : Number} {unit : Measure}

/-- Whether a text is a suffix. -/
inductive IsSuffix : List Char → Prop
  /-- The letter of a size. -/
  | size {c : Char} (h : isSizeSuffix c = true) : IsSuffix [c]
  /-- A degree sign. -/
  | degree : IsSuffix ['°']
  /-- A degree sign and the letter of a scale. -/
  | scale {c : Char} (h : isScaleLetter c = true) : IsSuffix ['°', c]

theorem isSuffix_of_ofSuffix? (h : Measure.ofSuffix? (String.ofList suffix) = some unit) :
    IsSuffix suffix := by
  have hmem := Measure.ofSuffix?_eq_some_iff.mp h
  have hlist {text : String} (htext : String.ofList suffix = text) : suffix = text.toList := by
    rw [← htext, String.toList_ofList]
  cases unit with
  | size unit =>
    obtain rfl := hlist (List.mem_singleton.mp hmem)
    cases unit <;> exact .size (by decide)
  | temperature unit =>
    cases unit with
    | celsius =>
      rcases List.mem_cons.mp hmem with hbare | hletter
      · obtain rfl := hlist hbare
        exact .degree
      · obtain rfl := hlist (List.mem_singleton.mp hletter)
        exact .scale (by decide)
    | fahrenheit | kelvin =>
      obtain rfl := hlist (List.mem_singleton.mp hmem)
      exact .scale (by decide)

theorem eq_of_isSizeSuffix {c : Char} (h : isSizeSuffix c = true) :
    c = 'B' ∨ c = 'K' ∨ c = 'M' ∨ c = 'G' ∨ c = 'T' ∨ c = 'P' := by
  simpa [isSizeSuffix] using h

theorem eq_of_isScaleLetter {c : Char} (h : isScaleLetter c = true) :
    c = 'C' ∨ c = 'F' ∨ c = 'K' := by
  simpa [isScaleLetter] using h

theorem IsSuffix.continuesNumber (h : IsSuffix suffix) :
    ∀ c ∈ suffix, continuesNumber c = true := by
  cases h with
  | size h =>
    refine List.forall_mem_singleton.mpr ?_
    rcases eq_of_isSizeSuffix h with rfl | rfl | rfl | rfl | rfl | rfl <;> decide
  | degree => exact List.forall_mem_singleton.mpr (by decide)
  | scale h =>
    refine List.forall_mem_cons.mpr ⟨by decide, List.forall_mem_singleton.mpr ?_⟩
    rcases eq_of_isScaleLetter h with rfl | rfl | rfl <;> decide

/-- No suffix announces a radix. -/
theorem IsSuffix.ofLetter?_eq_none (h : IsSuffix suffix) :
    ∀ c ∈ (suffix ++ rest).head?, Radix.ofLetter? c = none := by
  cases h with
  | size h =>
    rintro _ ⟨⟩
    rcases eq_of_isSizeSuffix h with rfl | rfl | rfl | rfl | rfl | rfl <;> decide
  | degree | scale =>
    rintro _ ⟨⟩
    decide

theorem suffixLength_eq_zero (hrest : ∀ c ∈ rest.head?, continuesNumber c = false) :
    suffixLength rest = 0 := by
  fun_cases suffixLength rest with
  | case1 | case2 => exact absurd (hrest '°' rfl) (by decide)
  | case3 => exact absurd (hrest '°' rfl) (by decide)
  | case4 c rest _ _ h =>
    have hcontinues := (IsSuffix.size h).continuesNumber c (List.mem_singleton_self c)
    exact absurd (hrest c rfl) (by rw [hcontinues]; decide)
  | case5 | case6 => rfl

/-- A suffix takes up all its characters, if nothing goes on with the number. -/
theorem IsSuffix.suffixLength_append (h : IsSuffix suffix)
    (hrest : ∀ c ∈ rest.head?, TypedCalc.continuesNumber c = false) :
    suffixLength (suffix ++ rest) = suffix.length := by
  cases h with
  | size h =>
    rcases eq_of_isSizeSuffix h with rfl | rfl | rfl | rfl | rfl | rfl <;> rfl
  | degree =>
    cases rest with
    | nil => rfl
    | cons c rest =>
      have hc : ¬ isScaleLetter c = true := by
        intro hscale
        have hcontinues := (IsSuffix.scale hscale).continuesNumber c (by simp)
        exact Bool.false_ne_true ((hrest c rfl).symm.trans hcontinues)
      exact if_neg hc
  | scale h => exact if_pos h

theorem readSuffix_of_rest (hrest : ∀ c ∈ rest.head?, continuesNumber c = false) :
    readSuffix position number rest = .ok (⟨number, none⟩, 0) :=
  if_pos (suffixLength_eq_zero hrest)

theorem readSuffix_append (h : Measure.ofSuffix? (String.ofList suffix) = some unit)
    (hrest : ∀ c ∈ rest.head?, continuesNumber c = false) :
    readSuffix position number (suffix ++ rest) =
      .ok ((Value.mk number none).attach unit, suffix.length) := by
  have hsuffix := isSuffix_of_ofSuffix? h
  have hne : suffix.length ≠ 0 := by cases hsuffix <;> exact Nat.succ_ne_zero _
  simp only [readSuffix, hsuffix.suffixLength_append hrest, hne, if_false, List.take_left, h]

theorem suffixLength_le (cs : List Char) : suffixLength cs ≤ cs.length := by
  fun_cases suffixLength cs <;> simp

/-- A suffix is read where there is one, and changes nothing where there is none. -/
theorem readSuffix_eq_ok {cs : List Char} {v : Value} {n : Nat}
    (h : readSuffix position number cs = .ok (v, n)) :
    n = 0 ∧ v = ⟨number, none⟩ ∨
      ∃ suffix rest unit, cs = suffix ++ rest ∧ n = suffix.length ∧
        Measure.ofSuffix? (String.ofList suffix) = some unit ∧
        v = (Value.mk number none).attach unit := by
  unfold readSuffix at h
  dsimp only at h
  split at h
  · cases h
    exact .inl ⟨rfl, rfl⟩
  · split at h
    · rename_i unit hunit
      cases h
      exact .inr ⟨_, _, unit, (List.take_append_drop (suffixLength cs) cs).symm,
        (List.length_take_of_le (suffixLength_le cs)).symm, hunit, rfl⟩
    · cases h

end

/-! ## Numbers -/

/-- Whether a text is a number, and the value that it denotes. -/
inductive IsNumber : List Char → Value → Prop
  /-- A number without a suffix. -/
  | plain {word : List Char} {number : Number} {goesOn : Char → Bool}
      (h : IsMagnitude word number goesOn) : IsNumber word ⟨number, none⟩
  /-- A number with the suffix of a unit, which does not go on with the digits. -/
  | withUnit {digits suffix : List Char} {number : Number} {goesOn : Char → Bool} {unit : Measure}
      (h : IsMagnitude digits number goesOn)
      (hsuffix : Measure.ofSuffix? (String.ofList suffix) = some unit)
      (hstops : ∀ c ∈ suffix.head?, goesOn c = false) :
      IsNumber (digits ++ suffix) ((Value.mk number none).attach unit)

section

variable {word rest cs : List Char} {v : Value}

theorem IsNumber.continuesNumber (h : IsNumber word v) : ∀ c ∈ word, continuesNumber c = true := by
  cases h with
  | plain h => exact h.continuesNumber
  | withUnit h hsuffix =>
    exact List.forall_mem_append.mpr
      ⟨h.continuesNumber, (isSuffix_of_ofSuffix? hsuffix).continuesNumber⟩

theorem IsNumber.startsNumber (h : IsNumber word v) (rest : List Char) :
    startsNumber (word ++ rest) = true := by
  cases h with
  | plain h => exact h.startsNumber rest
  | withUnit h =>
    rw [List.append_assoc]
    exact h.startsNumber _

theorem IsNumber.ne_nil (h : IsNumber word v) : word ≠ [] := by
  rintro rfl
  exact Bool.false_ne_true (h.startsNumber [])

/-- Reading a number goes on with the rest that its digits and its suffix leave. -/
theorem readNumber_eq {position digits n : Nat} {number : Number}
    (hmagnitude : readMagnitude position cs = .ok (number, digits))
    (hsuffix : readSuffix (position + digits) number (cs.drop digits) = .ok (v, n))
    (hrest : ∀ c ∈ (cs.drop (digits + n)).head?, continuesNumber c = false) :
    readNumber position cs = .ok ⟨.number v, digits + n⟩ := by
  unfold readNumber
  rw [hmagnitude]
  dsimp only [bind, Except.bind]
  rw [hsuffix]
  dsimp only
  split
  · rename_i c hc
    rw [if_neg (Bool.eq_false_iff.mp (hrest c hc))]
    rfl
  · rfl

/-- **A number is read as the value that it denotes**, if nothing goes on with it. -/
theorem IsNumber.readNumber (h : IsNumber word v)
    (hrest : ∀ c ∈ rest.head?, TypedCalc.continuesNumber c = false) (position : Nat) :
    readNumber position (word ++ rest) = .ok ⟨.number v, word.length⟩ := by
  have hletter : ∀ c ∈ rest.head?, Radix.ofLetter? c = none := by
    intro c hc
    refine Radix.ofLetter?_eq_none (.inl (Bool.eq_false_iff.mpr fun hname => ?_))
    exact Bool.false_ne_true ((hrest c hc).symm.trans (continuesNumber_of_isNameChar hname))
  cases h with
  | plain h =>
    refine readNumber_eq (n := 0)
      (h.readMagnitude (fun c hc => ⟨h.not_goesOn (hrest c hc), hletter c hc⟩) position) ?_ ?_
    · rw [List.drop_left]
      exact readSuffix_of_rest hrest
    · rw [Nat.add_zero, List.drop_left]
      exact hrest
  | @withUnit digits suffix number goesOn unit h hsuffix hstops =>
    have hword := isSuffix_of_ofSuffix? hsuffix
    have hhead : (suffix ++ rest).head? = suffix.head? :=
      List.head?_append_of_ne_nil _ (by rintro rfl; cases hword)
    have htail : ∀ c ∈ (suffix ++ rest).head?, goesOn c = false ∧ Radix.ofLetter? c = none :=
      fun c hc => ⟨hstops c (hhead ▸ hc), hword.ofLetter?_eq_none c hc⟩
    rw [List.append_assoc, List.length_append]
    refine readNumber_eq (h.readMagnitude htail position) ?_ ?_
    · rw [List.drop_left]
      exact readSuffix_append hsuffix hrest
    · rw [← List.append_assoc, ← List.length_append, List.drop_left]
      exact hrest

/-- **Nothing else is read as a number**, and no character that could belong to one follows it. -/
theorem exists_isNumber {position : Nat} {lexeme : Lexeme} (hstarts : startsNumber cs = true)
    (h : readNumber position cs = .ok lexeme) :
    ∃ word rest v, cs = word ++ rest ∧ lexeme = ⟨.number v, word.length⟩ ∧ IsNumber word v ∧
      ∀ c ∈ rest.head?, continuesNumber c = false := by
  obtain ⟨⟨number, digits⟩, hmagnitude, h⟩ := Result.bind_eq_ok_iff.mp h
  obtain ⟨⟨v, n⟩, hsuffix, h⟩ := Result.bind_eq_ok_iff.mp h
  dsimp only at h hsuffix
  have hlexeme : lexeme = ⟨.number v, digits + n⟩ ∧
      ∀ c ∈ (cs.drop (digits + n)).head?, continuesNumber c = false := by
    split at h
    · rename_i c hc
      split at h
      · cases h
      · cases h
        refine ⟨rfl, fun d hd => ?_⟩
        obtain rfl := Option.some.inj (hc.symm.trans hd)
        exact Bool.eq_false_iff.mpr ‹_›
    · rename_i hnone
      cases h
      exact ⟨rfl, fun d hd => absurd (hnone.symm.trans hd) (Option.some_ne_none d).symm⟩
  obtain ⟨rfl, hrest⟩ := hlexeme
  obtain ⟨word, tail, goesOn, rfl, rfl, hword, htail⟩ := exists_isMagnitude hstarts hmagnitude
  rw [List.drop_left] at hsuffix
  rcases readSuffix_eq_ok hsuffix with ⟨rfl, rfl⟩ | ⟨suffix, rest, unit, rfl, rfl, hunit, rfl⟩
  · rw [Nat.add_zero, List.drop_left] at hrest
    exact ⟨word, tail, _, rfl, rfl, .plain hword, hrest⟩
  · rw [← List.append_assoc, ← List.length_append, List.drop_left] at hrest
    have hne : suffix ≠ [] := by
      rintro rfl
      cases isSuffix_of_ofSuffix? hunit
    rw [List.head?_append_of_ne_nil _ hne] at htail
    refine ⟨word ++ suffix, rest, _, (List.append_assoc ..).symm, ?_,
      .withUnit hword hunit htail, hrest⟩
    rw [List.length_append]

end

end Token

end TypedCalc
