import Mathlib.Data.List.TakeWhile
import TypedCalc.Datum.Json
import TypedCalc.Proofs.Binary64.Text

/-!
# Written JSON scalars are read back

The text of a number must not be followed by what would go on with the number (`EndsNumber`);
strings and names end by themselves.

* `Datum.readString_flatMap_jsonChar`: a written string is read as that string.
* `Datum.readNumber?_of_whole`, `Datum.exists_finiteText`: a written number is read as that number.
* `Datum.readsAs_string`, `Datum.readsAs_name`, `Datum.readsAs_ofInt`, `Datum.readsAs_jsonFloat`:
  the same of a datum.
-/

namespace TypedCalc.Datum

/-! ## Strings -/

/-- The four digits of the number of a control character denote it. -/
theorem hexUnit?_writePadded {number : Nat} (h : number < 0x20) :
    ∃ a b c d, Numeral.writePadded 16 4 number = [a, b, c, d] ∧
      hexUnit? a b c d = some number := by
  have hall : ∀ number < 0x20, (Numeral.writePadded 16 4 number).length = 4 ∧
      hexUnit? (Numeral.writePadded 16 4 number)[0]! (Numeral.writePadded 16 4 number)[1]!
        (Numeral.writePadded 16 4 number)[2]! (Numeral.writePadded 16 4 number)[3]! =
          some number := by decide
  obtain ⟨hlength, hunit⟩ := hall number h
  obtain ⟨a, b, c, d, hdigits⟩ := List.length_eq_four.mp hlength
  rw [hdigits] at hunit
  exact ⟨a, b, c, d, hdigits, hunit⟩

/-- A letter after a backslash, if it is not the one that digits follow. -/
theorem readUnits_escaped {c unit : Char} (hc : c ≠ 'u') (h : escaped? c = some unit)
    (rest : List Char) : readUnits ('\\' :: c :: rest) =
      (readUnits rest).map fun result => (unit.toNat :: result.1, result.2) := by
  rw [readUnits.eq_4 c rest fun _ _ _ _ _ hu => absurd hu hc, h]
  cases readUnits rest <;> rfl

/-- A written character is read as its number. -/
theorem readUnits_jsonChar (c : Char) (rest : List Char) :
    readUnits (jsonChar c ++ rest) =
      (readUnits rest).map fun result => (c.toNat :: result.1, result.2) := by
  unfold jsonChar
  split
  case h_8 hquote hbackslash _ _ _ _ _ =>
    split
    case isTrue hcontrol =>
      obtain ⟨w, x, y, z, hdigits, hunit⟩ := hexUnit?_writePadded hcontrol
      rw [hdigits]
      show readUnits ('\\' :: 'u' :: w :: x :: y :: z :: rest) = _
      rw [readUnits, hunit]
      cases readUnits rest <;> rfl
    case isFalse hplain =>
      rw [List.singleton_append, readUnits.eq_5 c rest hquote
        (fun _ _ _ _ _ h => absurd h hbackslash) (fun _ _ h => absurd h hbackslash),
        if_neg (not_or.mpr ⟨hplain, hbackslash⟩)]
      cases readUnits rest <;> rfl
  all_goals exact readUnits_escaped (by decide) rfl rest

theorem readUnits_flatMap_jsonChar (cs rest : List Char) :
    readUnits (cs.flatMap jsonChar ++ '"' :: rest) = some (cs.map Char.toNat, rest) := by
  induction cs with
  | nil => rw [List.flatMap_nil, List.nil_append, readUnits]; rfl
  | cons c cs ih =>
    rw [List.flatMap_cons, List.append_assoc, readUnits_jsonChar, ih]
    rfl

/-- No character is half of a pair. -/
theorem joinUnits_map_toNat (cs : List Char) : joinUnits (cs.map Char.toNat) = cs := by
  induction cs with
  | nil => rfl
  | cons c cs ih =>
    match cs with
    | [] => exact congrArg (· :: []) (Char.ofNat_toNat c)
    | d :: ds =>
      have hsurrogate : ¬ (0xd800 ≤ c.toNat ∧ c.toNat < 0xdc00 ∧ 0xdc00 ≤ d.toNat ∧
          d.toNat < 0xe000) := by
        have hvalid : c.toNat < 0xd800 ∨ 0xdfff < c.toNat ∧ c.toNat < 0x110000 := c.valid
        omega
      show joinUnits (c.toNat :: d.toNat :: ds.map Char.toNat) = _
      rw [joinUnits, if_neg hsurrogate, Char.ofNat_toNat]
      exact congrArg (c :: ·) ih

theorem readString_flatMap_jsonChar (text : String) (rest : List Char) :
    readString (text.toList.flatMap jsonChar ++ '"' :: rest) = some (text, rest) := by
  rw [readString, readUnits_flatMap_jsonChar]
  show some (String.ofList (joinUnits (text.toList.map Char.toNat)), rest) = _
  rw [joinUnits_map_toNat, String.ofList_toList]
/-! ## Numbers -/

theorem isDigit_of_mem_writePadded (width number : Nat) :
    ∀ c ∈ Numeral.writePadded 10 width number, c.isDigit = true :=
  List.forall_mem_append.mpr
    ⟨fun _ => isDigit_of_mem_replicate_zero, fun _ => Numeral.isDigit_of_mem_write⟩

theorem writePadded_ne_nil (width number : Nat) : Numeral.writePadded 10 width number ≠ [] :=
  List.append_ne_nil_of_right_ne_nil _ (Numeral.write_ne_nil 10 number)

theorem read_writePadded (width number : Nat) :
    Numeral.read 10 (Numeral.writePadded 10 width number) = number := by
  rw [Numeral.writePadded, Numeral.read_replicate_zero_append, Numeral.read_write]

/-- Whether a text does not go on with a number. -/
def EndsNumber (rest : List Char) : Prop :=
  ∀ c ∈ rest.head?, c.isDigit = false ∧ c ≠ '.' ∧ c ≠ 'e' ∧ c ≠ 'E'

theorem endsNumber_nil : EndsNumber [] := nofun

theorem endsNumber_cons {c : Char} (hdigit : c.isDigit = false) (hpoint : c ≠ '.') (he : c ≠ 'e')
    (hE : c ≠ 'E') (rest : List Char) : EndsNumber (c :: rest) := by
  rintro _ ⟨⟩
  exact ⟨hdigit, hpoint, he, hE⟩

section

variable {digits rest : List Char}

theorem readWhole_append (hdigits : IsWholeNumeral digits)
    (hrest : ∀ c ∈ rest.head?, c.isDigit = false) : readWhole (digits ++ rest) = digits := by
  unfold readWhole
  split
  · rename_i tail heq
    have happend : (digits ++ rest).head? = digits.head? :=
      List.head?_append_of_ne_nil _ hdigits.ne_nil
    refine (hdigits.zero ?_).symm
    rw [← happend, heq]
    rfl
  · exact takeWhile_append_of_head hdigits.isDigit hrest

theorem readFraction_eq_nil (hrest : EndsNumber rest) : readFraction rest = [] := by
  unfold readFraction
  split
  · exact absurd rfl (hrest '.' rfl).2.1
  · rfl

theorem readExponent?_eq_none (hrest : EndsNumber rest) : readExponent? rest = none := by
  cases rest with
  | nil => rfl
  | cons c rest =>
    obtain ⟨-, -, he, hE⟩ := hrest c rfl
    exact if_neg (not_or.mpr ⟨he, hE⟩)

end
/-- The digits of an exponent, padded to two, are read back with its sign. -/
theorem readExponent?_write (exponent : Int) {rest : List Char} (hrest : EndsNumber rest) :
    readExponent? ('e' :: (if exponent < 0 then '-' else '+') ::
        Numeral.writePadded 10 2 exponent.natAbs ++ rest) =
      some (exponent, 2 + (Numeral.writePadded 10 2 exponent.natAbs).length) := by
  have hdigits := isDigit_of_mem_writePadded 2 exponent.natAbs
  have htake := takeWhile_append_of_head hdigits fun c hc => (hrest c hc).1
  have hempty : (Numeral.writePadded 10 2 exponent.natAbs).isEmpty = false :=
    List.isEmpty_eq_false_iff.mpr (writePadded_ne_nil 2 exponent.natAbs)
  by_cases hsign : exponent < 0
  · rw [if_pos hsign]
    simp only [readExponent?, List.cons_append, htake, hempty, read_writePadded]
    simp only [true_or, if_true, Bool.false_eq_true, if_false, Option.some_inj, Prod.mk.injEq,
      and_true]
    omega
  · rw [if_neg hsign]
    simp only [readExponent?, List.cons_append, htake, hempty, read_writePadded]
    simp only [true_or, if_true, Bool.false_eq_true, if_false, Option.some_inj, Prod.mk.injEq,
      and_true]
    omega

section

variable {whole tail : List Char}

theorem head?_signed_beq (negative : Bool) (hwhole : IsWholeNumeral whole) :
    ((Binary64.signed negative (whole ++ tail)).head? == some '-') = negative := by
  cases negative with
  | true => rfl
  | false =>
    obtain ⟨c, cs, rfl⟩ := List.exists_cons_of_ne_nil hwhole.ne_nil
    have hc : c.isDigit = true := hwhole.isDigit c (List.mem_cons_self ..)
    exact beq_eq_false_iff_ne.mpr fun h => ne_of_isDigit hc (by decide) (Option.some.inj h)

theorem drop_signed (negative : Bool) (cs : List Char) :
    (Binary64.signed negative cs).drop (if negative then 1 else 0) = cs := by
  cases negative <;> rfl

theorem length_signed (negative : Bool) (cs : List Char) :
    (Binary64.signed negative cs).length = (if negative then 1 else 0) + cs.length := by
  cases negative
  · exact (Nat.zero_add _).symm
  · exact Nat.add_comm _ _

/-- Digits alone are a whole number. -/
theorem readNumber?_of_whole (negative : Bool) (hwhole : IsWholeNumeral whole)
    (htail : EndsNumber tail) :
    readNumber? (Binary64.signed negative (whole ++ tail)) =
      some (.integer (if negative then -(Numeral.read 10 whole : Int) else Numeral.read 10 whole),
        (Binary64.signed negative whole).length) := by
  have hread := readWhole_append hwhole fun c hc => (htail c hc).1
  have hempty : whole.isEmpty = false := List.isEmpty_eq_false_iff.mpr hwhole.ne_nil
  unfold readNumber?
  simp only [head?_signed_beq negative hwhole, drop_signed, hread, hempty, Bool.false_eq_true,
    if_false, List.drop_left, readFraction_eq_nil htail, List.isEmpty_nil, if_true, Nat.add_zero,
    readExponent?_eq_none htail, length_signed]

/-- Digits with a point and more digits, or with an exponent, are a double. -/
theorem readNumber?_of_parts (negative : Bool) (hwhole : IsWholeNumeral whole)
    (htail : ∀ c ∈ tail.head?, c.isDigit = false) {fraction : List Char}
    (hfraction : readFraction tail = fraction) {exponent : Option (Int × Nat)}
    (hexponent : readExponent? (tail.drop (if fraction.isEmpty then 0 else fraction.length + 1)) =
      exponent) (h : fraction ≠ [] ∨ exponent ≠ none) :
    readNumber? (Binary64.signed negative (whole ++ tail)) =
      some (.float (Decimal.toBinary64 negative ⟨Numeral.read 10 (whole ++ fraction),
          (exponent.map (·.1)).getD 0 - (fraction.length : Int)⟩),
        (Binary64.signed negative whole).length +
          (if fraction.isEmpty then 0 else fraction.length + 1) +
          (exponent.map (·.2)).getD 0) := by
  have hread := readWhole_append hwhole htail
  have hempty : whole.isEmpty = false := List.isEmpty_eq_false_iff.mpr hwhole.ne_nil
  unfold readNumber?
  simp only [head?_signed_beq negative hwhole, drop_signed, hread, hempty, Bool.false_eq_true,
    if_false, List.drop_left, ← List.drop_drop, hfraction, hexponent, length_signed]
  split
  · exact absurd rfl (h.resolve_left (absurd rfl))
  · rfl

theorem readNumber?_positional (negative : Bool) (hwhole : IsWholeNumeral whole)
    {fraction : List Char} (hdigits : ∀ c ∈ fraction, c.isDigit = true) (hne : fraction ≠ [])
    (htail : EndsNumber tail) :
    readNumber? (Binary64.signed negative (whole ++ ('.' :: fraction ++ tail))) =
      some (.float (Decimal.toBinary64 negative
          ⟨Numeral.read 10 (whole ++ fraction), -(fraction.length : Int)⟩),
        (Binary64.signed negative (whole ++ '.' :: fraction)).length) := by
  have hfraction : readFraction ('.' :: fraction ++ tail) = fraction :=
    takeWhile_append_of_head hdigits fun c hc => (htail c hc).1
  have hempty : fraction.isEmpty = false := List.isEmpty_eq_false_iff.mpr hne
  have hexponent : readExponent? (('.' :: fraction ++ tail).drop
      (if fraction.isEmpty then 0 else fraction.length + 1)) = none := by
    rw [hempty, if_neg Bool.false_ne_true, List.cons_append, List.drop_succ_cons, List.drop_left]
    exact readExponent?_eq_none htail
  rw [readNumber?_of_parts negative hwhole (by rintro _ ⟨⟩; rfl) hfraction hexponent (.inl hne)]
  simp only [hempty, Bool.false_eq_true, if_false, Option.map_none, Option.getD_none, Int.zero_sub,
    length_signed, List.length_append, List.length_cons, Nat.add_assoc, Nat.add_zero]

theorem readNumber?_scientific (negative : Bool) (hwhole : IsWholeNumeral whole)
    {fraction : List Char} (hdigits : ∀ c ∈ fraction, c.isDigit = true) (exponent : Int)
    (htail : EndsNumber tail) :
    readNumber? (Binary64.signed negative (whole ++
        ((if fraction = [] then [] else '.' :: fraction) ++
          'e' :: (if exponent < 0 then '-' else '+') ::
            Numeral.writePadded 10 2 exponent.natAbs ++ tail))) =
      some (.float (Decimal.toBinary64 negative
          ⟨Numeral.read 10 (whole ++ fraction), exponent - (fraction.length : Int)⟩),
        (Binary64.signed negative (whole ++ (if fraction = [] then [] else '.' :: fraction) ++
          'e' :: (if exponent < 0 then '-' else '+') ::
            Numeral.writePadded 10 2 exponent.natAbs)).length) := by
  have hread := readExponent?_write exponent htail
  have htext : ∃ digits, 'e' :: (if exponent < 0 then '-' else '+') ::
      Numeral.writePadded 10 2 exponent.natAbs = 'e' :: digits ∧
      digits.length + 1 = 2 + (Numeral.writePadded 10 2 exponent.natAbs).length :=
    ⟨_, rfl, by rw [List.length_cons, Nat.add_assoc, Nat.add_comm]⟩
  obtain ⟨digits, hdigits', hlength⟩ := htext
  rw [hdigits'] at hread ⊢
  rw [← hlength] at hread
  rcases eq_or_ne fraction [] with rfl | hne
  · rw [if_pos rfl, List.nil_append, List.append_nil, readNumber?_of_parts negative hwhole
      (by rintro _ ⟨⟩; rfl) (show readFraction _ = [] from rfl) hread
        (.inr (Option.some_ne_none _))]
    simp only [length_signed, List.length_append, List.length_cons, List.isEmpty_nil, if_true,
      Option.map_some, Option.getD_some, Nat.add_assoc, Nat.zero_add, List.append_nil]
  · have hempty : fraction.isEmpty = false := List.isEmpty_eq_false_iff.mpr hne
    have hfraction : readFraction ('.' :: fraction ++ 'e' :: digits ++ tail) = fraction := by
      rw [List.append_assoc]
      exact takeWhile_append_of_head hdigits (by rintro _ ⟨⟩; rfl)
    have hexponent : readExponent? (('.' :: fraction ++ 'e' :: digits ++ tail).drop
        (if fraction.isEmpty then 0 else fraction.length + 1)) =
          some (exponent, digits.length + 1) := by
      rw [hempty, if_neg Bool.false_ne_true, List.append_assoc, List.cons_append,
        List.drop_succ_cons, List.drop_left]
      exact hread
    rw [if_neg hne, readNumber?_of_parts negative hwhole (by rintro _ ⟨⟩; rfl) hfraction hexponent
      (.inl hne)]
    simp only [length_signed, List.length_append, List.length_cons, hempty, Bool.false_eq_true,
      if_false, Option.map_some, Option.getD_some, Nat.add_assoc]

end

/-- The text of a double, after its sign, starts with digits. -/
theorem exists_finiteText {units : Nat} (h : Binary64.Representable units) :
    ∃ whole tail, IsWholeNumeral whole ∧ (∀ c ∈ tail.head?, c.isDigit = false) ∧ tail ≠ [] ∧
      ∀ negative, Binary64.finiteText negative units = Binary64.signed negative (whole ++ tail) ∧
        ∀ rest, EndsNumber rest → readNumber? (Binary64.signed negative (whole ++ (tail ++ rest))) =
          some (.float (.finite negative units h),
            (Binary64.signed negative (whole ++ tail)).length) := by
  have hsigned {text : List Char} (htext : Binary64.finiteText false units = text)
      (negative : Bool) : Binary64.finiteText negative units = Binary64.signed negative text := by
    rw [Binary64.finiteText_eq_signed, htext]
  rcases Binary64.finiteText_cases h with ⟨whole, fraction, htext, hwhole, hfraction, hne, hvalue⟩ |
    ⟨first, fraction, exponent, htext, hwhole, hfraction, hvalue⟩
  · refine ⟨whole, '.' :: fraction, hwhole, by rintro _ ⟨⟩; rfl, List.cons_ne_nil _ _,
      fun negative => ⟨hsigned htext negative, fun rest hrest => ?_⟩⟩
    rw [readNumber?_positional negative hwhole hfraction hne hrest, hvalue]
  · refine ⟨[first], (if fraction = [] then [] else '.' :: fraction) ++
        'e' :: (if exponent < 0 then '-' else '+') ::
          Numeral.writePadded 10 2 exponent.natAbs, hwhole, ?_, ?_,
      fun negative => ⟨hsigned htext negative, fun rest hrest => ?_⟩⟩
    · split <;> (rintro _ ⟨⟩; rfl)
    · exact List.append_ne_nil_of_right_ne_nil _ (List.cons_ne_nil _ _)
    · rw [readNumber?_scientific negative hwhole hfraction exponent hrest, List.append_assoc]
      exact congrArg (fun x => some (Datum.float x, _)) (hvalue negative)

/-! ## Scalars -/

/-- No name of a datum looks like a number. -/
theorem find?_names_signed (negative : Bool) {whole : List Char} (hwhole : IsWholeNumeral whole)
    (tail : List Char) :
    (names.find? fun entry => entry.1.isPrefixOf (Binary64.signed negative (whole ++ tail))) =
      none := by
  obtain ⟨c, cs, rfl⟩ := List.exists_cons_of_ne_nil hwhole.ne_nil
  have hc : c.isDigit = true := hwhole.isDigit c (List.mem_cons_self ..)
  have hne (d : Char) (hd : d.isDigit = false) : d ≠ c := (ne_of_isDigit hc hd).symm
  rw [List.find?_eq_none]
  intro entry hentry hprefix
  rw [List.isPrefixOf_iff_prefix] at hprefix
  simp only [names, List.mem_cons, List.not_mem_nil, or_false] at hentry
  cases negative with
  | false =>
    rcases hentry with rfl | rfl | rfl | rfl | rfl | rfl
    all_goals exact hne _ (by decide) (List.cons_prefix_cons.mp hprefix).1
  | true =>
    rcases hentry with rfl | rfl | rfl | rfl | rfl | rfl
    case inr.inr.inr.inr.inr =>
      exact hne _ (by decide) (List.cons_prefix_cons.mp (List.cons_prefix_cons.mp hprefix).2).1
    all_goals exact absurd (List.cons_prefix_cons.mp hprefix).1 (by decide)

/-- Whether a text starts with a datum that another text follows. -/
def ReadsAs (cs : List Char) (datum : Datum) (rest : List Char) : Prop :=
  ∃ h, readDatum cs = some ⟨datum, rest, h⟩

theorem readsAs_of_eq {cs rest : List Char} {datum : Datum}
    (h : readDatum cs = Reading.of? datum rest) (hlength : rest.length < cs.length) :
    ReadsAs cs datum rest := ⟨hlength, h.trans (Reading.of?_eq_some hlength)⟩

theorem jsonString_append (text : String) (rest : List Char) :
    jsonString text ++ rest = '"' :: (text.toList.flatMap jsonChar ++ '"' :: rest) := by
  rw [jsonString, List.cons_append, List.append_assoc, List.singleton_append]

theorem readsAs_string (text : String) (rest : List Char) :
    ReadsAs (jsonString text ++ rest) (.string text) rest := by
  rw [jsonString_append]
  refine readsAs_of_eq ?_ ?_
  · rw [readDatum.eq_1, readString_flatMap_jsonChar]
    rfl
  · simp only [List.length_append, List.length_cons]
    omega

/-- A name or a number, if the text does not start with a quote or a bracket. -/
theorem readsAs_scalar {cs rest : List Char} {datum : Datum} {length : Nat}
    (hquote : cs.head? ≠ some '"') (hbracket : cs.head? ≠ some '[')
    (hbrace : cs.head? ≠ some '\x7b')
    (h : readScalar? (cs ++ rest) = some (datum, length)) (hlength : length = cs.length)
    (hcs : cs ≠ []) : ReadsAs (cs ++ rest) datum rest := by
  have hhead (c : Char) (hc : cs.head? ≠ some c) (more : List Char)
      (hmore : cs ++ rest = c :: more) : False := by
    refine hc ?_
    have happend : (cs ++ rest).head? = cs.head? := List.head?_append_of_ne_nil _ hcs
    rw [← happend, hmore]
    rfl
  have hpos := List.length_pos_iff.mpr hcs
  refine readsAs_of_eq ?_ ?_
  · rw [readDatum.eq_4 _ (hhead _ hquote) (hhead _ hbracket) (hhead _ hbrace), h, hlength]
    show Reading.of? datum ((cs ++ rest).drop cs.length) = _
    rw [List.drop_left]
  · rw [List.length_append]
    omega

/-- A name of a datum. -/
theorem readsAs_name {name : List Char} {datum : Datum} (h : (name, datum) ∈ names)
    (rest : List Char) : ReadsAs (name ++ rest) datum rest := by
  simp only [names, List.mem_cons, List.not_mem_nil, or_false, Prod.mk.injEq] at h
  rcases h with ⟨rfl, rfl⟩ | ⟨rfl, rfl⟩ | ⟨rfl, rfl⟩ | ⟨rfl, rfl⟩ | ⟨rfl, rfl⟩ | ⟨rfl, rfl⟩
  all_goals exact readsAs_scalar (by decide) (by decide) (by decide) rfl rfl (by decide)

/-- A number starts with a sign or a digit. -/
theorem exists_signed_eq_cons (negative : Bool) {whole : List Char}
    (hwhole : IsWholeNumeral whole) (tail : List Char) :
    ∃ c cs, Binary64.signed negative (whole ++ tail) = c :: cs ∧ (c = '-' ∨ c.isDigit = true) := by
  cases negative with
  | true => exact ⟨'-', whole ++ tail, rfl, .inl rfl⟩
  | false =>
    obtain ⟨c, cs, rfl⟩ := List.exists_cons_of_ne_nil hwhole.ne_nil
    exact ⟨c, cs ++ tail, rfl, .inr (hwhole.isDigit c (List.mem_cons_self ..))⟩

/-- A number. -/
theorem readsAs_signed {negative : Bool} {whole tail rest : List Char} {datum : Datum}
    (hwhole : IsWholeNumeral whole)
    (h : readNumber? (Binary64.signed negative (whole ++ (tail ++ rest))) =
      some (datum, (Binary64.signed negative (whole ++ tail)).length)) :
    ReadsAs (Binary64.signed negative (whole ++ tail) ++ rest) datum rest := by
  have happend : Binary64.signed negative (whole ++ tail) ++ rest =
      Binary64.signed negative (whole ++ (tail ++ rest)) := by
    cases negative <;> simp only [Binary64.signed, if_true, if_false, Bool.false_eq_true,
      List.cons_append, List.append_assoc]
  obtain ⟨c, cs, hcons, hc⟩ := exists_signed_eq_cons negative hwhole tail
  have hhead (d : Char) (hd : d ≠ '-') (hdigit : d.isDigit = false) :
      (Binary64.signed negative (whole ++ tail)).head? ≠ some d := by
    rw [hcons]
    rintro ⟨⟩
    rcases hc with rfl | hc
    · exact hd rfl
    · exact ne_of_isDigit hc hdigit rfl
  refine readsAs_scalar (hhead _ (by decide) (by decide)) (hhead _ (by decide) (by decide))
    (hhead _ (by decide) (by decide)) ?_ rfl (by rw [hcons]; exact List.cons_ne_nil _ _)
  rw [happend, readScalar?, find?_names_signed negative hwhole]
  exact h

theorem ofInt_eq_signed (n : Int) : Numeral.ofInt n =
    Binary64.signed (decide (n < 0)) (Numeral.write 10 n.natAbs ++ []) := by
  simp only [Numeral.ofInt, Binary64.signed, decide_eq_true_eq, List.append_nil]

theorem readsAs_ofInt (n : Int) {rest : List Char} (hrest : EndsNumber rest) :
    ReadsAs (Numeral.ofInt n ++ rest) (.integer n) rest := by
  have hwhole := isWholeNumeral_write n.natAbs
  rw [ofInt_eq_signed]
  refine readsAs_signed hwhole ?_
  rw [List.nil_append, readNumber?_of_whole _ hwhole hrest, Numeral.read_write, List.append_nil]
  congr 3
  by_cases h : n < 0
  · rw [if_pos (decide_eq_true h)]
    omega
  · rw [if_neg (by simp [h])]
    omega

theorem readsAs_jsonFloat (x : Binary64) {rest : List Char} (hrest : EndsNumber rest) :
    ReadsAs (jsonFloat x ++ rest) (.float x) rest := by
  cases x with
  | nan => exact readsAs_name (by simp [names, jsonFloat]) rest
  | infinity negative => cases negative <;> exact readsAs_name (by simp [names, jsonFloat]) rest
  | finite negative units h =>
    obtain ⟨whole, tail, hwhole, -, -, htext⟩ := exists_finiteText h
    obtain ⟨htext, hread⟩ := htext negative
    rw [jsonFloat, htext]
    exact readsAs_signed hwhole (hread rest hrest)

end TypedCalc.Datum
