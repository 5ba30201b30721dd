import TypedCalc.Proofs.Datum.Json
import TypedCalc.Proofs.HistoryFile

/-!
# A saved history is loaded as it was

* `Value.standsFor_toDatum`: the entry of a value stands for that value.
* `HistoryFile.load_text`: loading what was saved pushes all results onto an empty history.
* `HistoryFile.load_eq_ok`: loading any file gives the last of the values in it.
* `HistoryFile.text_roundTrip`: so it gives the last of them, as many as the capacity allows, and
  no warning.
-/

namespace TypedCalc

namespace Value

/-- The datum that the unit of a value is written as. -/
def unitDatum : Option Measure → Datum
  | some unit => .string unit.symbol
  | none => .null

/-- The datum that the number of a value is written as. -/
def numberDatum : Number → Datum
  | .integer n => .integer n.value
  | .float x => .float x

/-- The fields of the entry of a value. -/
def fields (v : Value) : List (String × Datum) :=
  [("type", .string v.type.name), ("value", numberDatum v.number), ("unit", unitDatum v.unit)]

theorem toDatum_eq (v : Value) : v.toDatum = .mapping (v.fields.map Datum.ofField) := rfl

/-- The symbol of a unit is one of its suffixes. -/
theorem symbol_mem_suffixes (unit : Measure) : unit.symbol ∈ unit.suffixes := by
  cases unit with
  | size unit => cases unit <;> decide
  | temperature unit => cases unit <;> decide

theorem declares_toDatum (v : Value) :
    v.toDatum.Declares v.type (numberDatum v.number) v.unit := by
  refine ⟨v.fields.map Datum.ofField, toDatum_eq v, rfl, rfl, ?_⟩
  cases hunit : v.unit with
  | none =>
    have hfield : Datum.get? "unit" (v.fields.map Datum.ofField) = some (unitDatum v.unit) := rfl
    rw [hfield, hunit]
    exact .null
  | some unit =>
    have hfield : Datum.get? "unit" (v.fields.map Datum.ofField) = some (unitDatum v.unit) := rfl
    rw [hfield, hunit]
    exact .suffix (symbol_mem_suffixes unit)

/-- **The entry of a value stands for that value.** -/
theorem standsFor_toDatum (v : Value) : v.toDatum.StandsFor v := by
  have hdeclares := v.declares_toDatum
  obtain ⟨number, unit⟩ := v
  cases number with
  | integer n =>
    have hvalue : Value.integer n.type n.value unit = ⟨.integer n, unit⟩ := by
      rw [Value.integer, n.ofInt_value]
    have hstands : Datum.StandsFor _ (.integer n.type n.value unit) := .integer hdeclares
    rwa [hvalue] at hstands
  | float x => exact .float hdeclares

theorem writable_toDatum (v : Value) : v.toDatum.Writable := by
  have hkeys : v.fields.map (·.1) = ["type", "value", "unit"] := rfl
  rw [toDatum_eq]
  refine .mapping (by rw [hkeys]; decide) ?_
  simp only [fields, List.forall_mem_cons, List.not_mem_nil, false_imp_iff, implies_true, and_true]
  refine ⟨.string _, ?_, ?_⟩
  · cases v.number
    · exact .integer _
    · exact .float _
  · cases v.unit
    · exact .null
    · exact .string _

end Value

namespace HistoryFile

/-- The fields of a history file. -/
def fields (history : History) : List (String × Datum) :=
  [("version", .integer version), ("history", .list (history.toList.map Value.toDatum))]

theorem text_eq (history : History) :
    text history = (Datum.mapping ((fields history).map Datum.ofField)).toIndentedJson := rfl

theorem writable_fields (history : History) :
    (Datum.mapping ((fields history).map Datum.ofField)).Writable := by
  have hkeys : (fields history).map (·.1) = ["version", "history"] := rfl
  refine .mapping (by rw [hkeys]; decide) ?_
  simp only [fields, List.forall_mem_cons, List.not_mem_nil, false_imp_iff, implies_true, and_true]
  refine ⟨.integer _, .list ?_⟩
  rw [List.forall_mem_map]
  exact fun v _ => v.writable_toDatum

theorem holds_text (history : History) :
    Holds (text history) ((fields history).map Datum.ofField)
      (history.toList.map Value.toDatum) :=
  ⟨by rw [text_eq, Datum.ofJson?_toIndentedJson (writable_fields history)], rfl⟩

theorem versionWarnings_fields (history : History) :
    versionWarnings ((fields history).map Datum.ofField) = [] := by
  have hversion : Datum.get? "version" ((fields history).map Datum.ofField) =
    some (.integer version) := rfl
  have hsame : (Datum.integer version).sameKey (.integer version) = true := by
    rw [sameKey_integer_iff, Datum.numeric?]
  rw [versionWarnings, hversion, Option.getD_some, if_pos hsame]

theorem loadEntries_map_toDatum (history : History) (index : Nat) (values : List Value) :
    loadEntries history index (values.map Value.toDatum) = .ok (history.pushAll values, []) := by
  induction values generalizing history index with
  | nil => rfl
  | cons v rest ih =>
    rw [List.map_cons, loadEntries_of_standsFor v.standsFor_toDatum, ih]
    rfl

/-- Loading what was saved pushes all results onto an empty history. -/
theorem load_text (history : History) {capacity : Int} (hcapacity : 1 ≤ capacity) :
    ∃ hpos : 0 < capacity.toNat, load (some (text history)) capacity =
      .ok ((History.empty capacity.toNat hpos).pushAll history.toList, []) := by
  obtain ⟨hpos, hload⟩ := load_eq (text history) hcapacity
  refine ⟨hpos, ?_⟩
  rw [hload, loadText_of_holds (holds_text history), loadEntries_map_toDatum]
  show Except.ok (_, versionWarnings ((fields history).map Datum.ofField) ++ []) = _
  rw [versionWarnings_fields]
  rfl

/-! ## The values in a file -/

/-- The values that the entries of a file stand for. -/
def storedValues (text : String) : List Value :=
  match Datum.ofJson? text with
  | some (.mapping fields) =>
    match Datum.get? "history" fields with
    | some (.list items) => items.filterMap fun entry => (Value.ofDatum? entry).toOption
    | _ => []
  | _ => []

theorem storedValues_of_holds {text : String} {fields : List (Datum × Datum)}
    {items : List Datum} (h : Holds text fields items) :
    storedValues text = items.filterMap fun entry => (Value.ofDatum? entry).toOption := by
  rw [storedValues, h.1]
  dsimp only
  rw [h.2]

/-- A saved file holds the results of the history. -/
theorem storedValues_text (history : History) : storedValues (text history) = history.toList := by
  rw [storedValues_of_holds (holds_text history), List.filterMap_map]
  have hread : (fun entry => (Value.ofDatum? entry).toOption) ∘ Value.toDatum = some := by
    funext v
    rw [Function.comp_apply, Value.ofDatum?_of_standsFor v.standsFor_toDatum]
    rfl
  rw [hread, List.filterMap_some]

theorem eq_of_loadEntries {history loaded : History} {index : Nat} {items : List Datum}
    {warnings : List Warning} (h : loadEntries history index items = .ok (loaded, warnings)) :
    loaded = history.pushAll (items.filterMap fun entry => (Value.ofDatum? entry).toOption) := by
  induction items generalizing history index warnings with
  | nil =>
    cases h
    rfl
  | cons entry rest ih =>
    rw [loadEntries] at h
    cases hentry : Value.ofDatum? entry with
    | ok v =>
      rw [hentry] at h
      rw [List.filterMap_cons_some (by rw [hentry]; rfl), ih h]
      rfl
    | error fault =>
      rw [hentry] at h
      rw [List.filterMap_cons_none (by rw [hentry]; rfl)]
      cases fault with
      | overflow excess => cases h
      | _ =>
        obtain ⟨⟨next, others⟩, hrest, hresult⟩ := Result.bind_eq_ok_iff.mp h
        obtain ⟨rfl, -⟩ := Prod.mk.inj (Except.ok.inj hresult)
        exact ih hrest

theorem storedValues_of_not_holds {text : String} (h : ∀ fields items, ¬ Holds text fields items) :
    storedValues text = [] := by
  unfold storedValues
  split
  · rename_i fields hfields
    split
    · rename_i items hitems
      exact absurd ⟨hfields, hitems⟩ (h fields items)
    · rfl
  · rfl

theorem eq_of_loadText {history loaded : History} {text : String} {warnings : List Warning}
    (h : loadText history text = .ok (loaded, warnings)) :
    loaded = history.pushAll (storedValues text) := by
  by_cases hholds : ∃ fields items, Holds text fields items
  · obtain ⟨fields, items, hholds⟩ := hholds
    rw [loadText_of_holds hholds] at h
    rw [storedValues_of_holds hholds]
    cases hentries : loadEntries history 0 items with
    | error excess =>
      rw [hentries] at h
      exact nomatch h
    | ok result =>
      rw [hentries] at h
      obtain ⟨rfl, -⟩ := Prod.mk.inj (Except.ok.inj h)
      exact eq_of_loadEntries hentries
  · have hnone : ∀ fields items, ¬ Holds text fields items :=
      fun fields items hfields => hholds ⟨fields, items, hfields⟩
    obtain ⟨warning, hload⟩ := loadText_of_not_holds hnone history
    obtain ⟨rfl, -⟩ := Prod.mk.inj (Except.ok.inj (hload.symm.trans h))
    rw [storedValues_of_not_holds hnone]
    rfl

/-- **What loading gives**, if it does not fail: the last of the values in the file, as many as the
capacity allows. -/
theorem load_eq_ok {file : Option String} {capacity : Int} {loaded : History}
    {warnings : List Warning} (h : load file capacity = .ok (loaded, warnings)) :
    loaded.capacity = capacity.toNat ∧
      loaded.toList = (file.elim [] storedValues).rtake capacity.toNat := by
  obtain ⟨empty, hempty, hload⟩ := Result.bind_eq_ok_iff.mp h
  rw [Result.mapError_eq_ok_iff, History.empty?] at hempty
  split at hempty
  case isFalse => exact nomatch hempty
  case isTrue hpos =>
    obtain rfl := Except.ok.inj hempty
    have hpushed : loaded =
        (History.empty capacity.toNat hpos).pushAll (file.elim [] storedValues) := by
      cases file with
      | none =>
        obtain ⟨rfl, -⟩ := Prod.mk.inj (Except.ok.inj hload)
        rfl
      | some text => exact eq_of_loadText (Result.mapError_eq_ok_iff.mp hload)
    rw [hpushed, toList_pushAll_empty, History.capacity_pushAll]
    exact ⟨rfl, rfl⟩

/-- **Saving and loading is lossless.**  Every value is read back from its entry.  A saved history
is loaded with any capacity as the last of its results, as many as the capacity allows, in the same
order and without a warning. -/
theorem text_roundTrip (history : History) {capacity : Int} (hcapacity : 1 ≤ capacity) :
    (∀ v : Value, Value.ofDatum? v.toDatum = .ok v) ∧
    ∃ loaded, load (some (text history)) capacity = .ok (loaded, []) ∧
      (loaded.capacity : Int) = capacity ∧
      loaded.toList = history.toList.rtake capacity.toNat := by
  refine ⟨fun v => Value.ofDatum?_of_standsFor v.standsFor_toDatum, ?_⟩
  obtain ⟨hpos, hload⟩ := load_text history hcapacity
  refine ⟨_, hload, ?_, toList_pushAll_empty hpos history.toList⟩
  rw [History.capacity_pushAll]
  exact Int.toNat_of_nonneg (by omega)

/-- The smallest `i8`, measured in degrees Fahrenheit, and not-a-number, with room for five. -/
def sampleHistory : History :=
  (History.empty 5 (by decide)).pushAll
    [.integer .i8 (-128) (some (.temperature .fahrenheit)), .float .nan (some (.size .kilobyte))]

/-- With room for one result, loading keeps the later one. -/
theorem text_roundTrip_sample : (1 : Int) ≤ 1 ∧ ∃ loaded,
    load (some (text sampleHistory)) 1 = .ok (loaded, []) ∧
      loaded.toList = [.float .nan (some (.size .kilobyte))] := by
  obtain ⟨-, loaded, hload, -, hlist⟩ := text_roundTrip sampleHistory (show (1 : Int) ≤ 1 by decide)
  have hlast (first second : Value) :
      (List.rtake [first, second] 5).rtake (Int.toNat 1) = [second] := rfl
  rw [sampleHistory, toList_pushAll_empty, hlast] at hlist
  exact ⟨by decide, loaded, hload, hlist⟩

end HistoryFile

end TypedCalc
