import Mathlib.Data.List.DropRight
import Mathlib.Data.List.Forall2
import TypedCalc.HistoryFile
import TypedCalc.Proofs.Binary64.Rounding
import TypedCalc.Proofs.Result

/-!
# What a history file gives

An entry of a history file declares a type, a number and a unit.  It stands for a value, or its
number is too large for the double it is declared to be, or it is malformed.

* `Value.ofDatum?_spec`: reading an entry finds out which.
* `HistoryFile.load_spec`: the result of reading a whole file, for every text.
-/

namespace TypedCalc

/-! ## Entries -/

/-- The unit that the datum under `unit` declares. -/
inductive DeclaresUnit : Option Datum → Option Measure → Prop
  /-- There is no such datum. -/
  | absent : DeclaresUnit none none
  /-- The datum says that there is no unit. -/
  | null : DeclaresUnit (some .null) none
  /-- The datum is a suffix of the unit. -/
  | suffix {text : String} {unit : Measure} (h : text ∈ unit.suffixes) :
      DeclaresUnit (some (.string text)) (some unit)

/-- Whether an entry is a mapping that declares a type by its name, a number and a unit. -/
def Datum.Declares (entry : Datum) (type : NumberType) (number : Datum) (unit : Option Measure) :
    Prop :=
  ∃ fields, entry = .mapping fields ∧ Datum.get? "type" fields = some (.string type.name) ∧
    Datum.get? "value" fields = some number ∧ DeclaresUnit (Datum.get? "unit" fields) unit

/-- What a well-formed entry stands for. -/
inductive Datum.StandsFor (entry : Datum) : Value → Prop
  /-- A whole number of an integer type, wrapped into its range. -/
  | integer {type : IntegerType} {n : Int} {unit : Option Measure}
      (h : entry.Declares (.integer type) (.integer n) unit) :
      entry.StandsFor (.integer type n unit)
  /-- A whole number that is to be a double and can be one. -/
  | whole {n : Int} {unit : Option Measure} (h : entry.Declares .f64 (.integer n) unit)
      (hn : n.natAbs < Binary64.integerBound) : entry.StandsFor (.float (.ofInt n) unit)
  /-- A double. -/
  | float {x : Binary64} {unit : Option Measure} (h : entry.Declares .f64 (.float x) unit) :
      entry.StandsFor (.float x unit)

/-- Whether the whole number of an entry is to be a double and is too large for that. -/
def Datum.TooLarge (entry : Datum) : Prop :=
  ∃ n unit, entry.Declares .f64 (.integer n) unit ∧ Binary64.integerBound ≤ n.natAbs

/-- The numbers that can be turned into a number of a type: a double only into a double. -/
inductive Datum.IsNumberOf : NumberType → Datum → Prop
  | integer {type : NumberType} {n : Int} : IsNumberOf type (.integer n)
  | float {x : Binary64} : IsNumberOf .f64 (.float x)

/-- Whether a fault is about the form of an entry. -/
def EntryFault.Malformed (fault : EntryFault) : Prop := ∀ excess, fault ≠ .overflow excess

theorem Datum.IsNumberOf.ne_null {type : NumberType} {number : Datum}
    (h : IsNumberOf type number) : number ≠ .null := by
  cases h <;> exact nofun

theorem eq_some_of_getD_null {found : Option Datum} {datum : Datum}
    (h : found.getD .null = datum) (hdatum : datum ≠ .null) : found = some datum := by
  cases found with
  | none => exact absurd h.symm hdatum
  | some other => exact congrArg some h

namespace Value

theorem typeOfDatum?_eq_some_iff {datum : Datum} {type : NumberType} :
    typeOfDatum? datum = some type ↔ datum = .string type.name := by
  cases datum with
  | string name =>
    show NumberType.ofName? name = some type ↔ _
    rw [NumberType.ofName?_eq_some_iff, Datum.string.injEq]
  | _ => exact ⟨(fun h => nomatch h), (fun h => nomatch h)⟩

theorem unitOfDatum_string (text : String) :
    unitOfDatum (.string text) =
      (Measure.ofSuffix? text).elim (.error (.unknownUnit (.string text))) (.ok <| some ·) := by
  rw [unitOfDatum]
  cases Measure.ofSuffix? text <;> rfl

theorem unitOfDatum_eq_ok_iff {datum : Option Datum} {unit : Option Measure} :
    unitOfDatum (datum.getD .null) = .ok unit ↔ DeclaresUnit datum unit := by
  constructor
  · intro h
    cases datum with
    | none =>
      obtain rfl : none = unit := Except.ok.inj h
      exact .absent
    | some datum =>
      cases datum with
      | null =>
        obtain rfl : none = unit := Except.ok.inj h
        exact .null
      | string text =>
        rw [Option.getD_some, unitOfDatum_string] at h
        cases hfound : Measure.ofSuffix? text with
        | none => rw [hfound] at h; nomatch h
        | some found =>
          rw [hfound] at h
          obtain rfl : some found = unit := Except.ok.inj h
          exact .suffix (Measure.ofSuffix?_eq_some_iff.mp hfound)
      | _ => nomatch h
  · intro h
    cases h with
    | absent => rfl
    | null => rfl
    | suffix hsuffix =>
      rw [Option.getD_some, unitOfDatum_string, Measure.ofSuffix?_eq_some_iff.mpr hsuffix]
      rfl

/-- A unit that is none is a fault of its own, never a number that is too large. -/
theorem unitOfDatum_ne_overflow {datum : Datum} {fault : OverflowFault} :
    unitOfDatum datum ≠ .error (.overflow fault) := by
  intro h
  cases datum with
  | string text =>
    rw [unitOfDatum_string] at h
    cases hfound : Measure.ofSuffix? text <;> rw [hfound] at h <;> nomatch h
  | _ => nomatch h

theorem ofInt?_f64_of_lt {n : Int} {unit : Option Measure} (h : n.natAbs < Binary64.integerBound) :
    ofInt? n .f64 unit = .ok (.float (.ofInt n) unit) := by
  have hsome : (Binary64.ofInt? n).isSome = true := by
    rw [Option.isSome_iff_ne_none]
    intro hnone
    exact Nat.not_le_of_lt h ((Binary64.ofInt?_eq_none_iff n).mp hnone)
  have hget : Binary64.ofInt? n = some (.ofInt n) := by
    rw [← Binary64.get_ofInt? hsome, Option.some_get]
  unfold ofInt?
  rw [hget]
  rfl

theorem ofInt?_f64_of_le {n : Int} {unit : Option Measure} (h : Binary64.integerBound ≤ n.natAbs) :
    ofInt? n .f64 unit = .error .integerTooLarge := by
  unfold ofInt?
  rw [(Binary64.ofInt?_eq_none_iff n).mpr h]
  rfl

section

variable {type : NumberType} {number datum : Datum} {unit : Option Measure} {entry : Datum}

theorem ofNumberDatum_integer (h : unitOfDatum datum = .ok unit) (n : Int) :
    ofNumberDatum type datum (.integer n) = (ofInt? n type unit).mapError .overflow := by
  show (unitOfDatum datum >>= _) = _
  rw [h]
  rfl

theorem ofNumberDatum_float (h : unitOfDatum datum = .ok unit) (x : Binary64) :
    ofNumberDatum .f64 datum (.float x) = .ok (.float x unit) := by
  show (unitOfDatum datum >>= _) = _
  rw [h]
  rfl

theorem ofDatum?_of_type {fields : List (Datum × Datum)}
    (h : Datum.get? "type" fields = some (.string type.name)) :
    ofDatum? (.mapping fields) = ofNumberDatum type ((Datum.get? "unit" fields).getD .null)
      ((Datum.get? "value" fields).getD .null) := by
  have htype : typeOfDatum? ((Datum.get? "type" fields).getD .null) = some type := by
    rw [h]
    exact typeOfDatum?_eq_some_iff.mpr rfl
  unfold ofDatum?
  dsimp only
  rw [htype]

theorem ofDatum?_of_declares (h : entry.Declares type number unit) :
    ∃ datum, unitOfDatum datum = .ok unit ∧ ofDatum? entry = ofNumberDatum type datum number := by
  obtain ⟨fields, rfl, htype, hnumber, hunit⟩ := h
  refine ⟨_, unitOfDatum_eq_ok_iff.mpr hunit, ?_⟩
  rw [ofDatum?_of_type htype, hnumber]
  rfl

theorem ofNumberDatum_cases (type : NumberType) (datum number : Datum) :
    (∃ fault, fault.Malformed ∧ ofNumberDatum type datum number = .error fault) ∨
      number.IsNumberOf type ∧ ∃ unit, unitOfDatum datum = .ok unit := by
  have hunit : (∃ fault, fault.Malformed ∧ unitOfDatum datum = .error fault) ∨
      ∃ unit, unitOfDatum datum = .ok unit := by
    cases hresult : unitOfDatum datum with
    | ok unit => exact .inr ⟨unit, rfl⟩
    | error fault =>
      refine .inl ⟨fault, ?_, rfl⟩
      rintro excess rfl
      exact unitOfDatum_ne_overflow hresult
  cases number with
  | integer n =>
    rcases hunit with ⟨fault, hfault, hresult⟩ | hunit
    · refine .inl ⟨fault, hfault, ?_⟩
      show (unitOfDatum datum >>= _) = _
      rw [hresult]
      rfl
    · exact .inr ⟨.integer, hunit⟩
  | float x =>
    cases type with
    | integer type => exact .inl ⟨.notAnInteger (.integer type) (.float x), nofun, rfl⟩
    | f64 =>
      rcases hunit with ⟨fault, hfault, hresult⟩ | hunit
      · refine .inl ⟨fault, hfault, ?_⟩
        show (unitOfDatum datum >>= _) = _
        rw [hresult]
        rfl
      · exact .inr ⟨.float, hunit⟩
  | _ => exact .inl ⟨.notANumber _, nofun, rfl⟩

/-- An entry that is not malformed declares a type, a number for it and a unit. -/
theorem ofDatum?_cases (entry : Datum) :
    (∃ fault, fault.Malformed ∧ ofDatum? entry = .error fault) ∨
      ∃ type number unit, number.IsNumberOf type ∧ entry.Declares type number unit := by
  cases entry with
  | mapping fields =>
    cases htype : typeOfDatum? ((Datum.get? "type" fields).getD .null) with
    | none =>
      refine .inl ⟨.unknownType ((Datum.get? "type" fields).getD .null), nofun, ?_⟩
      unfold ofDatum?
      dsimp only
      rw [htype]
    | some type =>
      have hname : Datum.get? "type" fields = some (.string type.name) :=
        eq_some_of_getD_null (typeOfDatum?_eq_some_iff.mp htype) nofun
      rw [ofDatum?_of_type hname]
      rcases ofNumberDatum_cases type ((Datum.get? "unit" fields).getD .null)
        ((Datum.get? "value" fields).getD .null) with hfault | ⟨hnumber, unit, hunit⟩
      · exact .inl hfault
      · have hget := eq_some_of_getD_null rfl hnumber.ne_null
        exact .inr ⟨type, _, unit, hnumber, fields, rfl, hname, hget,
          unitOfDatum_eq_ok_iff.mp hunit⟩
  | _ => exact .inl ⟨.notAMapping _, nofun, rfl⟩

theorem ofDatum?_of_standsFor {v : Value} (h : entry.StandsFor v) : ofDatum? entry = .ok v := by
  cases h with
  | integer h =>
    obtain ⟨datum, hunit, hentry⟩ := ofDatum?_of_declares h
    rw [hentry, ofNumberDatum_integer hunit]
    rfl
  | whole h hn =>
    obtain ⟨datum, hunit, hentry⟩ := ofDatum?_of_declares h
    rw [hentry, ofNumberDatum_integer hunit, ofInt?_f64_of_lt hn]
    rfl
  | float h =>
    obtain ⟨datum, hunit, hentry⟩ := ofDatum?_of_declares h
    rw [hentry, ofNumberDatum_float hunit]

theorem ofDatum?_of_tooLarge (h : entry.TooLarge) :
    ofDatum? entry = .error (.overflow .integerTooLarge) := by
  obtain ⟨n, unit, hentry, hn⟩ := h
  obtain ⟨datum, hunit, heq⟩ := ofDatum?_of_declares hentry
  rw [heq, ofNumberDatum_integer hunit, ofInt?_f64_of_le hn]
  rfl

/-- The whole number `2 ^ 1024` is too large, and the entry is not malformed. -/
example : (Datum.mapping [(.string "type", .string "f64"),
    (.string "value", .integer (2 ^ 1024))]).TooLarge :=
  ⟨_, none, ⟨_, rfl, rfl, rfl, .absent⟩, by decide +kernel⟩

/-- **Reading an entry** finds the value that it stands for, stops at a number that is too large
and otherwise finds the entry malformed. -/
theorem ofDatum?_spec (entry : Datum) :
    (∃ v, entry.StandsFor v ∧ ofDatum? entry = .ok v) ∨
      (entry.TooLarge ∧ ofDatum? entry = .error (.overflow .integerTooLarge)) ∨
      ∃ fault, fault.Malformed ∧ ofDatum? entry = .error fault := by
  rcases ofDatum?_cases entry with hfault | ⟨type, number, unit, hnumber, hentry⟩
  · exact .inr (.inr hfault)
  have hvalue {v : Value} (h : entry.StandsFor v) :
      ∃ v, entry.StandsFor v ∧ ofDatum? entry = .ok v := ⟨v, h, ofDatum?_of_standsFor h⟩
  cases hnumber with
  | @integer _ n =>
    cases type with
    | integer type => exact .inl (hvalue (.integer hentry))
    | f64 =>
      rcases Nat.lt_or_ge n.natAbs Binary64.integerBound with hlt | hge
      · exact .inl (hvalue (.whole hentry hlt))
      · have hlarge : entry.TooLarge := ⟨n, unit, hentry, hge⟩
        exact .inr (.inl ⟨hlarge, ofDatum?_of_tooLarge hlarge⟩)
  | float => exact .inl (hvalue (.float hentry))

end

end Value

/-- What an entry gives the history: the value that it stands for, or nothing if it is malformed. -/
inductive Datum.Gives (entry : Datum) : Option Value → Prop
  /-- The entry stands for a value. -/
  | value {v : Value} (h : entry.StandsFor v) : entry.Gives (some v)
  /-- The entry is malformed. -/
  | nothing (hvalue : ∀ v, ¬ entry.StandsFor v) (hlarge : ¬ entry.TooLarge) : entry.Gives none

theorem Datum.gives_none_of_malformed {entry : Datum} {fault : EntryFault}
    (hfault : fault.Malformed) (h : Value.ofDatum? entry = .error fault) : entry.Gives none := by
  refine .nothing ?_ ?_
  · intro v hvalue
    rw [Value.ofDatum?_of_standsFor hvalue] at h
    nomatch h
  · intro hlarge
    rw [Value.ofDatum?_of_tooLarge hlarge] at h
    exact hfault _ (Except.error.inj h).symm

theorem Datum.Gives.not_tooLarge {entry : Datum} {slot : Option Value} (h : entry.Gives slot) :
    ¬ entry.TooLarge := by
  cases h with
  | value hvalue =>
    intro hlarge
    have hread := Value.ofDatum?_of_standsFor hvalue
    rw [Value.ofDatum?_of_tooLarge hlarge] at hread
    nomatch hread
  | nothing _ hlarge => exact hlarge

theorem Datum.not_tooLarge_of_gives {items : List Datum} {slots : List (Option Value)}
    (h : List.Forall₂ Datum.Gives items slots) : ∀ entry ∈ items, ¬ entry.TooLarge := by
  induction h with
  | nil => exact fun _ hentry => absurd hentry List.not_mem_nil
  | cons hfirst _ ih => exact List.forall_mem_cons.mpr ⟨hfirst.not_tooLarge, ih⟩

/-- An entry gives one thing only. -/
theorem Datum.gives_rightUnique : Relator.RightUnique Datum.Gives := by
  intro entry a b ha hb
  cases ha with
  | value hv =>
    cases hb with
    | value hw =>
      have hread := Value.ofDatum?_of_standsFor hv
      rw [Value.ofDatum?_of_standsFor hw] at hread
      exact congrArg some (Except.ok.inj hread).symm
    | nothing hnone => exact absurd hv (hnone _)
  | nothing hnone =>
    cases hb with
    | value hw => exact absurd hw (hnone _)
    | nothing => rfl

namespace HistoryFile

/-! ## Lists of entries -/

/-- Whether a warning is about the malformed entry with an index. -/
def Warning.Skips (index : Nat) (warning : Warning) : Prop :=
  ∃ fault, fault.Malformed ∧ warning = .skippedEntry index fault

theorem loadEntries_of_standsFor {entry : Datum} {v : Value} (h : entry.StandsFor v)
    (history : History) (index : Nat) (rest : List Datum) :
    loadEntries history index (entry :: rest) = loadEntries (history.push v) (index + 1) rest := by
  rw [loadEntries, Value.ofDatum?_of_standsFor h]

theorem loadEntries_of_tooLarge {entry : Datum} (h : entry.TooLarge)
    (history : History) (index : Nat) (rest : List Datum) :
    loadEntries history index (entry :: rest) = .error .integerTooLarge := by
  rw [loadEntries, Value.ofDatum?_of_tooLarge h]

theorem loadEntries_of_malformed {entry : Datum} {fault : EntryFault} (hfault : fault.Malformed)
    (h : Value.ofDatum? entry = .error fault)
    (history : History) (index : Nat) (rest : List Datum) :
    loadEntries history index (entry :: rest) =
      (loadEntries history (index + 1) rest).map fun result =>
        (result.1, .skippedEntry index fault :: result.2) := by
  rw [loadEntries, h]
  cases fault with
  | overflow excess => exact absurd rfl (hfault excess)
  | _ => cases loadEntries history (index + 1) rest <;> rfl

/-- Without numbers that are too large the values are pushed in order, and there is a warning for
every malformed entry. -/
theorem loadEntries_eq_ok (history : History) (index : Nat) (items : List Datum)
    (h : ∀ entry ∈ items, ¬ entry.TooLarge) :
    ∃ slots skipped, List.Forall₂ Datum.Gives items slots ∧
      List.Forall₂ Warning.Skips (slots.findIdxs Option.isNone index) skipped ∧
      loadEntries history index items = .ok (history.pushAll slots.reduceOption, skipped) := by
  induction items generalizing history index with
  | nil => exact ⟨[], [], .nil, .nil, rfl⟩
  | cons entry rest ih =>
    rw [List.forall_mem_cons] at h
    obtain ⟨hentry, hrest⟩ := h
    rcases Value.ofDatum?_spec entry with ⟨v, hvalue, -⟩ | ⟨hlarge, -⟩ | ⟨fault, hfault, hresult⟩
    · obtain ⟨slots, skipped, hslots, hskipped, hload⟩ := ih (history.push v) (index + 1) hrest
      refine ⟨some v :: slots, skipped, .cons (.value hvalue) hslots, hskipped, ?_⟩
      rw [loadEntries_of_standsFor hvalue, hload]
      rfl
    · exact absurd hlarge hentry
    · obtain ⟨slots, skipped, hslots, hskipped, hload⟩ := ih history (index + 1) hrest
      refine ⟨none :: slots, .skippedEntry index fault :: skipped,
        .cons (Datum.gives_none_of_malformed hfault hresult) hslots,
        .cons ⟨fault, hfault, rfl⟩ hskipped, ?_⟩
      rw [loadEntries_of_malformed hfault hresult, hload]
      rfl

/-- A number that is too large loses all entries. -/
theorem loadEntries_eq_error (history : History) (index : Nat) {items : List Datum}
    (h : ∃ entry ∈ items, entry.TooLarge) :
    loadEntries history index items = .error .integerTooLarge := by
  induction items generalizing history index with
  | nil =>
    obtain ⟨entry, hentry, -⟩ := h
    nomatch hentry
  | cons entry rest ih =>
    rw [List.exists_mem_cons_iff] at h
    rcases h with hlarge | hrest
    · exact loadEntries_of_tooLarge hlarge history index rest
    rcases Value.ofDatum?_spec entry with ⟨v, hvalue, -⟩ | ⟨hlarge, -⟩ | ⟨fault, hfault, hresult⟩
    · rw [loadEntries_of_standsFor hvalue]
      exact ih _ _ hrest
    · exact loadEntries_of_tooLarge hlarge history index rest
    · rw [loadEntries_of_malformed hfault hresult, ih _ _ hrest]
      rfl

/-! ## Versions -/

/-- Whether the version of a mapping is the whole number one, the double one or the truth value
that counts as one. -/
def IsVersionOne (fields : List (Datum × Datum)) : Prop :=
  ∃ found, Datum.get? "version" fields = some found ∧
    (found = .integer 1 ∨ found = .float (.ofInt 1) ∨ found = .bool true)

theorem sameKey_integer_iff (found : Datum) (n : Int) :
    found.sameKey (.integer n) = true ↔ found.numeric? = some (n * Binary64.unitsPerOne) := by
  have hn : (Datum.integer n).numeric? = some (n * Binary64.unitsPerOne) := rfl
  unfold Datum.sameKey
  rw [hn]
  cases hfound : found.numeric? with
  | none =>
    refine ⟨?_, fun h => nomatch h⟩
    intro h
    cases found with
    | float x => cases x <;> nomatch h
    | _ => nomatch h
  | some m =>
    show (m == n * Binary64.unitsPerOne) = true ↔ _
    rw [beq_iff_eq, Option.some_inj]

theorem ofInt_one : ∃ h, Binary64.ofInt 1 = .finite false Binary64.unitsPerOne h :=
  ⟨by decide +kernel, by decide +kernel⟩

theorem numeric?_float_iff (x : Binary64) :
    (Datum.float x).numeric? = some (Binary64.unitsPerOne : Int) ↔ x = .ofInt 1 := by
  obtain ⟨hone, hofInt⟩ := ofInt_one
  have hpos := Binary64.unitsPerOne_pos
  rw [hofInt]
  cases x with
  | nan => exact ⟨(fun h => nomatch h), (fun h => nomatch h)⟩
  | infinity negative => exact ⟨(fun h => nomatch h), (fun h => nomatch h)⟩
  | finite negative units h =>
    cases negative with
    | false =>
      show some (units : Int) = _ ↔ _
      rw [Option.some_inj, Int.natCast_inj, Binary64.finite.injEq]
      exact (and_iff_right rfl).symm
    | true =>
      show some (-(units : Int)) = _ ↔ _
      rw [Option.some_inj, Binary64.finite.injEq]
      refine ⟨?_, fun h => nomatch h.1⟩
      intro h
      omega

theorem numeric?_eq_one_iff (found : Datum) :
    found.numeric? = some (Binary64.unitsPerOne : Int) ↔
      found = .integer 1 ∨ found = .float (.ofInt 1) ∨ found = .bool true := by
  have hpos : (Binary64.unitsPerOne : Int) ≠ 0 :=
    Int.natCast_ne_zero.mpr (Nat.ne_of_gt Binary64.unitsPerOne_pos)
  constructor
  · intro h
    cases found with
    | integer n =>
      exact .inl (congrArg _ (Int.eq_one_of_mul_eq_self_left hpos (Option.some.inj h)))
    | float x => exact .inr (.inl (congrArg _ ((numeric?_float_iff x).mp h)))
    | bool flag =>
      cases flag with
      | false => exact absurd (Option.some.inj h).symm hpos
      | true => exact .inr (.inr rfl)
    | _ => nomatch h
  · rintro (rfl | rfl | rfl)
    · exact congrArg some (Int.one_mul _)
    · exact (numeric?_float_iff _).mpr rfl
    · rfl

/-- Whether warnings are those that the version of a mapping calls for: one if it is not one. -/
def WarnsOfVersion (fields : List (Datum × Datum)) (warnings : List Warning) : Prop :=
  IsVersionOne fields ∧ warnings = [] ∨
    ¬ IsVersionOne fields ∧ ∃ found, warnings = [.otherVersion found]

theorem warnsOfVersion_versionWarnings (fields : List (Datum × Datum)) :
    WarnsOfVersion fields (versionWarnings fields) := by
  have hkey (found : Datum) : found.sameKey (.integer version) = true ↔
      found = .integer 1 ∨ found = .float (.ofInt 1) ∨ found = .bool true := by
    rw [sameKey_integer_iff, version, Int.one_mul, numeric?_eq_one_iff]
  by_cases hsame : ((Datum.get? "version" fields).getD .null).sameKey (.integer version) = true
  · have hone := (hkey _).mp hsame
    refine .inl ⟨⟨_, eq_some_of_getD_null rfl ?_, hone⟩, if_pos hsame⟩
    rcases hone with h | h | h <;> rw [h] <;> exact nofun
  · refine .inr ⟨?_, _, if_neg hsame⟩
    rintro ⟨found, hfound, hone⟩
    rw [hfound, Option.getD_some] at hsame
    exact hsame ((hkey found).mpr hone)

/-! ## Whole files -/

/-- Whether a text is JSON for a mapping with a list under `history`. -/
def Holds (text : String) (fields : List (Datum × Datum)) (items : List Datum) : Prop :=
  Datum.ofJson? text = some (.mapping fields) ∧ Datum.get? "history" fields = some (.list items)

/-- A text that is JSON for a mapping with a list under `history` is read item by item. -/
theorem loadText_of_holds {text : String} {fields : List (Datum × Datum)} {items : List Datum}
    (h : Holds text fields items) (history : History) :
    loadText history text = (loadEntries history 0 items).map fun result =>
      (result.1, versionWarnings fields ++ result.2) := by
  rw [loadText, h.1]
  dsimp only
  rw [h.2]
  show (loadEntries history 0 items >>= _) = _
  cases loadEntries history 0 items <;> rfl

/-- Any other text leaves the history as it is, with one warning. -/
theorem loadText_of_not_holds {text : String} (h : ∀ fields items, ¬ Holds text fields items)
    (history : History) : ∃ warning, loadText history text = .ok (history, [warning]) := by
  cases hjson : Datum.ofJson? text with
  | none =>
    rw [loadText, hjson]
    exact ⟨_, rfl⟩
  | some datum =>
    cases datum with
    | mapping fields =>
      rw [loadText, hjson]
      dsimp only
      split
      · rename_i items hitems
        exact absurd ⟨hjson, hitems⟩ (h fields items)
      · exact ⟨_, rfl⟩
    | _ =>
      rw [loadText, hjson]
      exact ⟨_, rfl⟩

theorem load_eq (text : String) {capacity : Int} (h : 1 ≤ capacity) :
    ∃ hpos : 0 < capacity.toNat, load (some text) capacity =
      (loadText (.empty capacity.toNat hpos) text).mapError .overflow := by
  have hpos : 0 < capacity.toNat := by omega
  refine ⟨hpos, ?_⟩
  have hempty : History.empty? capacity = .ok (.empty capacity.toNat hpos) := dif_pos hpos
  show ((History.empty? capacity).mapError LoadFault.capacity >>= _) = _
  rw [hempty]
  rfl

theorem toList_pushAll_empty {capacity : Nat} (h : 0 < capacity) (values : List Value) :
    ((History.empty capacity h).pushAll values).toList = values.rtake capacity := by
  rw [List.rtake_eq_reverse_take_reverse]
  unfold History.toList
  rw [History.recent_pushAll]
  show ((values.reverse ++ []).take capacity).reverse = _
  rw [List.append_nil]

theorem load_of_tooLarge {text : String} {fields : List (Datum × Datum)} {items : List Datum}
    {capacity : Int} (hcapacity : 1 ≤ capacity) (h : Holds text fields items)
    (hlarge : ∃ entry ∈ items, entry.TooLarge) :
    load (some text) capacity = .error (.overflow .integerTooLarge) := by
  obtain ⟨hpos, hload⟩ := load_eq text hcapacity
  rw [hload, loadText_of_holds h, loadEntries_eq_error _ _ hlarge]
  rfl

theorem load_of_not_holds {text : String} {capacity : Int} (hcapacity : 1 ≤ capacity)
    (h : ∀ fields items, ¬ Holds text fields items) :
    ∃ history warning, (history.capacity : Int) = capacity ∧ history.toList = [] ∧
      load (some text) capacity = .ok (history, [warning]) := by
  obtain ⟨hpos, hload⟩ := load_eq text hcapacity
  obtain ⟨warning, htext⟩ := loadText_of_not_holds h (.empty capacity.toNat hpos)
  refine ⟨.empty capacity.toNat hpos, warning, Int.toNat_of_nonneg (by omega), rfl, ?_⟩
  rw [hload, htext]
  rfl

theorem load_of_holds {text : String} {fields : List (Datum × Datum)} {items : List Datum}
    {capacity : Int} (hcapacity : 1 ≤ capacity) (h : Holds text fields items)
    (hitems : ∀ entry ∈ items, ¬ entry.TooLarge) :
    ∃ history slots versioned skipped, (history.capacity : Int) = capacity ∧
      List.Forall₂ Datum.Gives items slots ∧
      history.toList = slots.reduceOption.rtake capacity.toNat ∧
      WarnsOfVersion fields versioned ∧
      List.Forall₂ Warning.Skips (slots.findIdxs Option.isNone) skipped ∧
      load (some text) capacity = .ok (history, versioned ++ skipped) := by
  obtain ⟨hpos, hload⟩ := load_eq text hcapacity
  obtain ⟨slots, skipped, hslots, hskipped, hentries⟩ :=
    loadEntries_eq_ok (.empty capacity.toNat hpos) 0 items hitems
  refine ⟨(History.empty capacity.toNat hpos).pushAll slots.reduceOption, slots,
    versionWarnings fields, skipped, ?_, hslots, toList_pushAll_empty hpos _,
    warnsOfVersion_versionWarnings fields, hskipped, ?_⟩
  · rw [History.capacity_pushAll]
    exact Int.toNat_of_nonneg (by omega)
  · rw [hload, loadText_of_holds h, hentries]
    rfl

/-- **What a history file gives.**  Reading fails exactly on a list of results with a number that is
too large for the double it is declared to be.  A text that holds no list of results gives an empty
history and one warning.  Any other list gives the last of its values, as many as the capacity
allows, with a warning about a version that is not one and then one about each malformed entry. -/
theorem load_spec (text : String) {capacity : Int} (hcapacity : 1 ≤ capacity) :
    (load (some text) capacity = .error (.overflow .integerTooLarge) ↔
      ∃ fields items, Holds text fields items ∧ ∃ entry ∈ items, entry.TooLarge) ∧
    ((∀ fields items, ¬ Holds text fields items) →
      ∃ history warning, (history.capacity : Int) = capacity ∧ history.toList = [] ∧
        load (some text) capacity = .ok (history, [warning])) ∧
    ∀ fields items, Holds text fields items → (∀ entry ∈ items, ¬ entry.TooLarge) →
      ∃ history slots versioned skipped, (history.capacity : Int) = capacity ∧
        List.Forall₂ Datum.Gives items slots ∧
        history.toList = slots.reduceOption.rtake capacity.toNat ∧
        WarnsOfVersion fields versioned ∧
        List.Forall₂ Warning.Skips (slots.findIdxs Option.isNone) skipped ∧
        load (some text) capacity = .ok (history, versioned ++ skipped) := by
  refine ⟨⟨?_, ?_⟩, load_of_not_holds hcapacity, fun _ _ => load_of_holds hcapacity⟩
  · intro herror
    by_contra hnone
    by_cases hholds : ∃ fields items, Holds text fields items
    · obtain ⟨fields, items, h⟩ := hholds
      have hitems : ∀ entry ∈ items, ¬ entry.TooLarge :=
        fun entry hentry hlarge => hnone ⟨fields, items, h, entry, hentry, hlarge⟩
      obtain ⟨_, _, _, _, -, -, -, -, -, hload⟩ := load_of_holds hcapacity h hitems
      rw [hload] at herror
      nomatch herror
    · obtain ⟨_, _, -, -, hload⟩ :=
        load_of_not_holds hcapacity fun fields items h => hholds ⟨fields, items, h⟩
      rw [hload] at herror
      nomatch herror
  · rintro ⟨fields, items, h, hlarge⟩
    exact load_of_tooLarge hcapacity h hlarge

/-- A file without a version that holds a small result and a bare number. -/
def sampleText : String := "\x7b\"history\": [\x7b\"type\": \"u8\", \"value\": 7\x7d, 3]\x7d"

/-- The entries of the file. -/
def sampleItems : List Datum :=
  [.mapping [(.string "type", .string "u8"), (.string "value", .integer 7)], .integer 3]

theorem holds_sampleText : Holds sampleText [(.string "history", .list sampleItems)] sampleItems :=
  ⟨by with_unfolding_all rfl, rfl⟩

theorem gives_sampleItems :
    List.Forall₂ Datum.Gives sampleItems [some (.integer .u8 7), none] := by
  have hfault : (EntryFault.notAMapping (.integer 3)).Malformed := nofun
  refine .cons (.value (.integer ?_)) (.cons (Datum.gives_none_of_malformed hfault rfl) .nil)
  exact ⟨_, rfl, rfl, rfl, .absent⟩

theorem load_sample :
    (1 : Int) ≤ 10 ∧ ∃ history found fault, history.toList = [.integer .u8 7] ∧
      load (some sampleText) 10 = .ok (history, [.otherVersion found, .skippedEntry 1 fault]) := by
  obtain ⟨history, slots, versioned, skipped, -, hslots, hlist, hversion, hskipped, hload⟩ :=
    (load_spec sampleText (show (1 : Int) ≤ 10 by decide)).2.2 _ _ holds_sampleText
      (Datum.not_tooLarge_of_gives gives_sampleItems)
  obtain rfl := List.right_unique_forall₂' Datum.gives_rightUnique hslots gives_sampleItems
  rcases hversion with ⟨⟨found, hfound, -⟩, -⟩ | ⟨-, found, rfl⟩
  · nomatch hfound
  · cases hskipped with
    | cons hwarning hnone =>
      obtain ⟨fault, -, rfl⟩ := hwarning
      cases hnone
      exact ⟨by decide, history, found, fault, hlist, hload⟩

end HistoryFile

end TypedCalc
