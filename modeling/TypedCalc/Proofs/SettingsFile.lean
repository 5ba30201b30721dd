import TypedCalc.Proofs.CommandLine.Run

/-!
# What a configuration file that is a mapping gives

The entries under the names of settings are the configuration, and the other keys are listed in a
warning.  To be listed they are put into order, and this is the one thing that can go wrong: texts
have an order among each other and so have numbers, but no other two keys.

How a text is read as a document is up to the machine.  All that is asked of its reader is that the
entries of the mapping that it gives have different keys (`Datum.DistinctKeys`), so that what is
found under a text is the datum of its only entry.

* `Configuration.sortKeys_of_haveOrder`, `Configuration.sortKeys_of_not_haveOrder`: which keys can
  be listed.
* `Configuration.Describes`: what a mapping gives if its keys can be listed.
* `CommandLine.perform_of_ok`: a run from a configuration file is a run from the configuration with
  the warning in front.
* `CommandLine.loadConfiguration_mapping`: all that a file comes to that is a mapping.
-/

namespace TypedCalc

namespace Datum

/-! ## The keys of a mapping -/

/-- Whether no two entries have the same key. -/
def DistinctKeys (entries : List (Datum × Datum)) : Prop :=
  (entries.map (·.1)).Pairwise fun known key => known.isKey key = false

section

variable {key value : Datum} {entries : List (Datum × Datum)} {name : String}

theorem get?_cons_self (name : String) (value : Datum) (rest : List (Datum × Datum)) :
    get? name ((.string name, value) :: rest) = some value := by
  simp only [get?, List.find?, beq_self_eq_true, Option.map_some]

theorem get?_cons_of_ne (h : key ≠ .string name) (value : Datum) (rest : List (Datum × Datum)) :
    get? name ((key, value) :: rest) = get? name rest := by
  cases key with
  | string text =>
    have hne : (text == name) = false := beq_eq_false_iff_ne.mpr fun heq => h (heq ▸ rfl)
    simp only [get?, List.find?, hne]
  | _ => rfl

/-- What is found under a text is the datum of its entry. -/
theorem get?_eq_some_iff (h : DistinctKeys entries) :
    get? name entries = some value ↔ (.string name, value) ∈ entries := by
  induction entries with
  | nil => exact ⟨nofun, fun hmem => absurd hmem List.not_mem_nil⟩
  | cons entry rest ih =>
    obtain ⟨hfirst, hrest⟩ := List.pairwise_cons.mp h
    obtain ⟨key', value'⟩ := entry
    by_cases hkey : key' = .string name
    · subst hkey
      rw [get?_cons_self, Option.some.injEq, List.mem_cons, Prod.mk.injEq]
      refine ⟨fun heq => .inl ⟨rfl, heq.symm⟩, ?_⟩
      rintro (⟨-, heq⟩ | hmem)
      · exact heq.symm
      · have hsame := hfirst _ (List.mem_map_of_mem hmem)
        exact absurd (beq_self_eq_true name) (Bool.eq_false_iff.mp hsame)
    · rw [get?_cons_of_ne hkey, ih hrest, List.mem_cons, Prod.mk.injEq]
      exact ⟨.inr, fun hor => hor.resolve_left fun heq => hkey heq.1.symm⟩

theorem get?_eq_none_iff (h : DistinctKeys entries) :
    get? name entries = none ↔ ∀ value, (.string name, value) ∉ entries := by
  rw [Option.eq_none_iff_forall_ne_some]
  exact forall_congr' fun value => not_congr (get?_eq_some_iff h)

end

/-! ## The order of keys -/

/-- Whether a datum is a text. -/
def isText : Datum → Bool
  | .string _ => true
  | _ => false

/-- Whether a datum is a number or a truth value, which counts as one. -/
def isNumber : Datum → Bool
  | .bool _ | .integer _ | .float _ => true
  | _ => false

/-- Whether keys can be put into order: there is no second one, or all are texts, or all are
numbers. -/
def HaveOrder (keys : List Datum) : Prop :=
  keys.length ≤ 1 ∨ (∀ key ∈ keys, key.isText) ∨ ∀ key ∈ keys, key.isNumber

/-- Two keys have an order if both are texts or both are numbers. -/
theorem isSome_keyLe? (a b : Datum) :
    (a.keyLe? b).isSome = (a.isText && b.isText || a.isNumber && b.isNumber) := by
  cases a with
  | string | null | list | mapping => cases b <;> rfl
  | bool | integer | float =>
    cases b with
    | string | null | list | mapping => rfl
    | bool | integer | float =>
      unfold keyLe?
      dsimp only
      split <;> rfl

/-- The first of some keys decides whether they have an order. -/
theorem haveOrder_cons_iff (first : Datum) (rest : List Datum) :
    HaveOrder (first :: rest) ↔ ∀ key ∈ rest, (first.keyLe? key).isSome := by
  constructor
  · rintro (hlength | htexts | hnumbers) key hkey
    · have hnone : rest = [] :=
        List.length_eq_zero_iff.mp (Nat.le_zero.mp (Nat.le_of_succ_le_succ hlength))
      rw [hnone] at hkey
      exact absurd hkey List.not_mem_nil
    · rw [isSome_keyLe?, htexts first List.mem_cons_self,
        htexts key (List.mem_cons_of_mem first hkey)]
      rfl
    · rw [isSome_keyLe?, hnumbers first List.mem_cons_self,
        hnumbers key (List.mem_cons_of_mem first hkey), Bool.and_self, Bool.or_true]
  · intro h
    simp only [isSome_keyLe?, Bool.or_eq_true, Bool.and_eq_true] at h
    by_cases htext : first.isText
    · refine .inr (.inl (List.forall_mem_cons.mpr ⟨htext, fun key hkey => ?_⟩))
      obtain ⟨-, hkey⟩ | ⟨hnumber, -⟩ := h key hkey
      · exact hkey
      · cases first with
        | string => exact nomatch hnumber
        | _ => exact nomatch htext
    · by_cases hnumber : first.isNumber
      · refine .inr (.inr (List.forall_mem_cons.mpr ⟨hnumber, fun key hkey => ?_⟩))
        exact ((h key hkey).resolve_left fun hboth => htext hboth.1).2
      · -- the first key has no order with any other, so there is no other
        refine .inl (Nat.le_of_eq (congrArg (· + 1) (List.length_eq_zero_iff.mpr ?_)))
        refine List.eq_nil_iff_forall_not_mem.mpr fun key hkey => ?_
        exact (h key hkey).elim (fun hboth => htext hboth.1) fun hboth => hnumber hboth.1

end Datum

namespace Configuration

variable {keys : List Datum}

theorem find?_unordered_eq_none_iff (first : Datum) (rest : List Datum) :
    (rest.find? fun key => (first.keyLe? key).isNone) = none ↔
      Datum.HaveOrder (first :: rest) := by
  rw [List.find?_eq_none, Datum.haveOrder_cons_iff]
  refine forall₂_congr fun key _ => ?_
  rw [Option.isNone_iff_eq_none, ← ne_eq, Option.ne_none_iff_isSome]

/-- **Keys that have an order are listed.** -/
theorem sortKeys_of_haveOrder (h : Datum.HaveOrder keys) :
    ∃ sorted, sortKeys keys = .ok sorted ∧ sorted.Perm keys := by
  cases keys with
  | nil => exact ⟨[], rfl, .refl []⟩
  | cons first rest =>
    refine ⟨(first :: rest).mergeSort fun a b => (a.keyLe? b).getD true, ?_,
      List.mergeSort_perm _ _⟩
    rw [sortKeys, (find?_unordered_eq_none_iff first rest).mpr h]

/-- **Keys that have no order are not listed**, and two of them are to blame. -/
theorem sortKeys_of_not_haveOrder (h : ¬ Datum.HaveOrder keys) :
    ∃ first ∈ keys, ∃ second ∈ keys, first.keyLe? second = none ∧
      sortKeys keys = .error (.unorderedKeys first second) := by
  cases keys with
  | nil => exact absurd (.inl (Nat.zero_le 1)) h
  | cons first rest =>
    rw [← find?_unordered_eq_none_iff] at h
    obtain ⟨second, hfind⟩ := Option.ne_none_iff_exists'.mp h
    have hnone := List.find?_some hfind
    refine ⟨first, List.mem_cons_self, second,
      List.mem_cons_of_mem first (List.mem_of_find?_eq_some hfind),
      Option.isNone_iff_eq_none.mp hnone, ?_⟩
    rw [sortKeys, hfind]

/-! ## The entries of a mapping -/

/-- The keys of a mapping that are not names of settings. -/
def unknownKeys (entries : List (Datum × Datum)) : List Datum :=
  (entries.map (·.1)).filter fun key => !isKnown key

theorem isKnown_iff (key : Datum) :
    isKnown key ↔ ∃ setting : Setting, key = .string setting.name := by
  cases key with
  | string name =>
    rw [isKnown, Setting.ofName?, List.find?_isSome]
    constructor
    · rintro ⟨setting, -, hname⟩
      exact ⟨setting, congrArg Datum.string (beq_iff_eq.mp hname).symm⟩
    · rintro ⟨setting, hname⟩
      have hmem : setting ∈ Setting.all := by cases setting <;> decide
      exact ⟨setting, hmem, beq_iff_eq.mpr (Datum.string.inj hname).symm⟩
  | _ => exact ⟨nofun, fun ⟨_, hkey⟩ => nomatch hkey⟩

theorem mem_unknownKeys_iff {entries : List (Datum × Datum)} {key : Datum} :
    key ∈ unknownKeys entries ↔ (∃ value, (key, value) ∈ entries) ∧
      ∀ setting : Setting, key ≠ .string setting.name := by
  rw [unknownKeys, List.mem_filter, Bool.not_eq_true', Bool.eq_false_iff, Ne, isKnown_iff,
    not_exists]
  refine and_congr_left fun _ => ⟨?_, fun ⟨value, hentry⟩ => List.mem_map_of_mem hentry⟩
  intro hkey
  obtain ⟨entry, hentry, rfl⟩ := List.mem_map.mp hkey
  exact ⟨entry.2, hentry⟩

section

variable {entries : List (Datum × Datum)}

/-- What a mapping gives if its keys can be listed: the data under the names of settings, and a list
of the other keys. -/
structure Describes (entries : List (Datum × Datum)) (configuration : Configuration)
    (unknown : List Datum) : Prop where
  /-- The mapping is read. -/
  ofDatum_eq : ofDatum (.mapping entries) = .ok (configuration, unknown)
  /-- A setting with an entry has the datum of the entry. -/
  given : ∀ setting value, (.string setting.name, value) ∈ entries →
    configuration.get setting = value
  /-- Any other setting has its standard datum. -/
  standard : ∀ setting, (∀ value, (.string setting.name, value) ∉ entries) →
    configuration.get setting = setting.standard
  /-- The keys that are listed are those of the other entries. -/
  mem_unknown_iff : ∀ key, key ∈ unknown ↔ (∃ value, (key, value) ∈ entries) ∧
    ∀ setting : Setting, key ≠ .string setting.name
  /-- Each of them is listed once. -/
  unknown_perm : unknown.Perm (unknownKeys entries)

theorem exists_describes (hkeys : Datum.DistinctKeys entries)
    (horder : Datum.HaveOrder (unknownKeys entries)) :
    ∃ configuration unknown, Describes entries configuration unknown := by
  obtain ⟨unknown, hsort, hperm⟩ := sortKeys_of_haveOrder horder
  refine ⟨ofEntries entries, unknown, ?_, fun setting value hentry => ?_,
    fun setting hnone => ?_, fun key => ?_, hperm⟩
  · rw [unknownKeys] at hsort
    rw [ofDatum, hsort]
    rfl
  · exact congrArg (·.getD setting.standard) ((Datum.get?_eq_some_iff hkeys).mpr hentry)
  · exact congrArg (·.getD setting.standard) ((Datum.get?_eq_none_iff hkeys).mpr hnone)
  · rw [hperm.mem_iff, mem_unknownKeys_iff]

theorem ofDatum_of_not_haveOrder (horder : ¬ Datum.HaveOrder (unknownKeys entries)) :
    ∃ first ∈ unknownKeys entries, ∃ second ∈ unknownKeys entries,
      first.keyLe? second = none ∧
      ofDatum (.mapping entries) = .error (.unorderedKeys first second) := by
  obtain ⟨first, hfirst, second, hsecond, hnone, hsort⟩ := sortKeys_of_not_haveOrder horder
  refine ⟨first, hfirst, second, hsecond, hnone, ?_⟩
  rw [unknownKeys] at hsort
  rw [ofDatum, hsort]
  rfl

end

end Configuration

/-! ## A run from a configuration file -/

namespace CommandLine

/-- An ending with a notice in front of what is said about errors. -/
def Ending.afterNotice (notice : String) : Ending → Ending
  | .finished outcome => .finished { outcome with errors := notice ++ outcome.errors }
  | ending => ending

/-- The ending of a run, of which the steps after the configuration come to a result. -/
def ending (launcher : Bool) : Except Failure Evaluated → Ending
  | .error failure => failure.ending launcher ""
  | .ok result => result.ending launcher ""

/-- A run from its configuration on. -/
def performFrom (options : Options) (configuration : Configuration) : StateM Machine Ending :=
  ending options.launcher <$> (evaluate options configuration).run

/-- What is said about the keys in a file that are not names of settings. -/
def notice (path : String) (unknown : List Datum) : String :=
  if unknown.isEmpty then "" else unknownSettingsWarning path unknown ++ "\n"

theorem ending_eq_afterNotice (launcher : Bool) (notice : String) (failure : Failure) :
    failure.ending launcher notice = (failure.ending launcher "").afterNotice notice := by
  unfold Failure.ending
  split_ifs
  · rfl
  · rw [Ending.afterNotice, String.append_empty]
  · simp only [Ending.afterNotice, String.append_assoc, String.empty_append]

theorem evaluated_ending_eq_afterNotice (launcher : Bool) (notice : String) (result : Evaluated) :
    result.ending launcher notice = (result.ending launcher "").afterNotice notice := by
  unfold Evaluated.ending
  cases result.saveFault with
  | none => simp only [Ending.afterNotice, String.append_empty]
  | some fault => simp only [Ending.afterNotice, String.append_assoc, String.empty_append]

variable {machine : Machine} {options : Options}

/-- **A run from a configuration file** is a run from the configuration in it, with a notice about
the keys that are not names of settings in front. -/
theorem perform_of_ok {configuration : Configuration} {unknown : List Datum}
    (h : (loadConfiguration options.configuration :
      ExceptT Failure (StateM Machine) _).run.run machine =
        (.ok (configuration, unknown), machine)) :
    (perform options : StateM Machine _).run machine =
      Prod.map (Ending.afterNotice (notice options.configuration unknown)) id
        ((performFrom options configuration).run machine) := by
  cases hrun : (evaluate options configuration :
      ExceptT Failure (StateM Machine) _).run.run machine with
  | mk result after =>
    rw [perform, run_bind_of_eq h, performFrom, StateT.run_map, hrun]
    dsimp only
    rw [run_bind_of_eq hrun]
    cases result with
    | error failure => exact congrArg (·, after) (ending_eq_afterNotice _ _ failure)
    | ok found => exact congrArg (·, after) (evaluated_ending_eq_afterNotice _ _ found)

theorem perform_of_error {failure : Failure}
    (h : (loadConfiguration options.configuration :
      ExceptT Failure (StateM Machine) _).run.run machine = (.error failure, machine)) :
    (perform options : StateM Machine _).run machine =
      (failure.ending options.launcher "", machine) := by
  rw [perform, run_bind_of_eq h]
  rfl

/-- Whether a path leads to a file with a mapping of some entries, as the machine reads it. -/
def HoldsMapping (machine : Machine) (path : String) (entries : List (Datum × Datum)) : Prop :=
  ∃ text, textAt? path machine = some text ∧
    machine.loadYaml (String.ofList (Host.unifyLines text.toList)) = .ok (.mapping entries)

/-- A file with a mapping is loaded as the configuration that the mapping describes. -/
theorem HoldsMapping.run_loadConfiguration {path : String} {entries : List (Datum × Datum)}
    (h : HoldsMapping machine path entries) :
    (loadConfiguration path : ExceptT Failure (StateM Machine) _).run.run machine =
      ((Configuration.ofDatum (.mapping entries)).mapError (.configuration path), machine) := by
  obtain ⟨text, hfile, hmapping⟩ := h
  rw [textAt?_eq_some_iff] at hfile
  have hthere : ((machine.find? (Path.expandHome machine.home path)).map FileNode.kind).isNone =
      false := by
    rw [Option.isNone_map, Option.isNone_eq_false_iff]
    exact Machine.isSome_find?_of_read hfile
  rw [loadConfiguration, run_bind_of_ok (run_lift (machine.run_expand path)),
    run_bind_of_ok (run_lift (machine.run_kind? _)), hthere, if_neg Bool.false_ne_true,
    run_bind_of_ok (run_lift (Machine.run_readText_of_ok hfile)),
    run_bind_of_ok (run_orFail_ok _ _ _),
    run_bind_of_ok (run_lift (machine.run_loadYaml _)), hmapping]
  rfl

/-- **A configuration file that is a mapping** is loaded, with the data of its entries and a warning
about the keys that are not names of settings, exactly if these keys have an order.  Otherwise the
run has no answer. -/
theorem loadConfiguration_mapping {entries : List (Datum × Datum)}
    (hkeys : Datum.DistinctKeys entries) :
    (Datum.HaveOrder (Configuration.unknownKeys entries) → ∃ configuration unknown,
      Configuration.Describes entries configuration unknown ∧
      ∀ machine path, HoldsMapping machine path entries →
        (loadConfiguration path : ExceptT Failure (StateM Machine) _).run.run machine =
          (.ok (configuration, unknown), machine) ∧
        ∀ options : Options, options.configuration = path →
          (perform options : StateM Machine _).run machine =
            Prod.map (Ending.afterNotice (notice path unknown)) id
              ((performFrom options configuration).run machine)) ∧
    (¬ Datum.HaveOrder (Configuration.unknownKeys entries) →
      ∃ first ∈ Configuration.unknownKeys entries, ∃ second ∈ Configuration.unknownKeys entries,
        first.keyLe? second = none ∧
        Configuration.ofDatum (.mapping entries) = .error (.unorderedKeys first second) ∧
        ∀ machine path, HoldsMapping machine path entries →
          (loadConfiguration path : ExceptT Failure (StateM Machine) _).run.run machine =
            (.error (.configuration path (.unorderedKeys first second)), machine) ∧
          ∀ options : Options, options.configuration = path →
            (perform options : StateM Machine _).run machine =
              (.broken (.configuration path (.unorderedKeys first second)), machine)) := by
  constructor
  · intro horder
    obtain ⟨configuration, unknown, hdescribes⟩ := Configuration.exists_describes hkeys horder
    refine ⟨configuration, unknown, hdescribes, fun machine path hfile => ?_⟩
    have hrun := hfile.run_loadConfiguration
    rw [hdescribes.ofDatum_eq] at hrun
    refine ⟨hrun, ?_⟩
    rintro options rfl
    exact perform_of_ok hrun
  · intro horder
    obtain ⟨first, hfirst, second, hsecond, hnone, hread⟩ :=
      Configuration.ofDatum_of_not_haveOrder horder
    refine ⟨first, hfirst, second, hsecond, hnone, hread, fun machine path hfile => ?_⟩
    have hrun := hfile.run_loadConfiguration
    rw [hread] at hrun
    refine ⟨hrun, ?_⟩
    rintro options rfl
    exact perform_of_error hrun

/-! ### Two files -/

/-- The datum of a word without quotes: a whole number or a text. -/
def datumOfWord (cs : List Char) : Datum :=
  if cs.all Char.isDigit then .integer (Numeral.read 10 cs) else .string (String.ofList cs)

/-- The entry on a line, with a colon and a space between the key and the datum. -/
def entryOfLine (line : List Char) : Datum × Datum :=
  (datumOfWord (line.takeWhile (· != ':')), datumOfWord ((line.dropWhile (· != ':')).drop 2))

/-- A reader of documents that have an entry on every line. -/
def loadLines (text : String) : Except DocumentFault Datum :=
  let lines := (Text.pieces '\n' text.toList).filter fun line => !line.isEmpty
  .ok (.ofEntries (lines.map entryOfLine))

/-- A machine with a configuration file that has an entry on every line. -/
def configured (text : String) : Machine :=
  { nodes := [(["config.yaml".toList], .file text)], loadYaml := loadLines }

theorem holdsMapping_configured {text : String} {entries : List (Datum × Datum)}
    (h : loadLines (String.ofList (Host.unifyLines text.toList)) = .ok (.mapping entries)) :
    HoldsMapping (configured text) "/config.yaml" entries := by
  have hlocate : (configured text).locate "/config.yaml".toList = .ok ["config.yaml".toList] := by
    with_unfolding_all rfl
  exact ⟨text, textAt?_eq_some_iff.mpr (Machine.read_eq_ok_iff.mpr ⟨_, hlocate, rfl⟩), h⟩

/-- A setting and another key, both texts. -/
def settingAndOther : List (Datum × Datum) :=
  [(.string "max_depth", .integer 3), (.string "colour", .string "blue")]

/-- Two keys that are not names of settings, a number and a text. -/
def numberAndText : List (Datum × Datum) :=
  [(.integer 0, .string "red"), (.string "colour", .string "blue")]

/-- One other key is listed in the warning; two of different sorts leave the run without an
answer. -/
theorem loadConfiguration_mapping_samples :
    (Datum.DistinctKeys settingAndOther ∧
      Datum.HaveOrder (Configuration.unknownKeys settingAndOther) ∧
      HoldsMapping (configured "max_depth: 3\ncolour: blue\n") "/config.yaml" settingAndOther ∧
      notice "/config.yaml" [.string "colour"] =
        "Ignoring unknown settings in /config.yaml: ['colour']\n" ∧
      ∃ configuration, configuration.get .nestingLimit = .integer 3 ∧
        configuration.get .historySize = .integer 10 ∧
        (loadConfiguration "/config.yaml" : ExceptT Failure (StateM Machine) _).run.run
          (configured "max_depth: 3\ncolour: blue\n") =
            (.ok (configuration, [.string "colour"]),
              configured "max_depth: 3\ncolour: blue\n")) ∧
    (Datum.DistinctKeys numberAndText ∧
      ¬ Datum.HaveOrder (Configuration.unknownKeys numberAndText) ∧
      HoldsMapping (configured "0: red\ncolour: blue\n") "/config.yaml" numberAndText ∧
      ∃ first second, (loadConfiguration "/config.yaml" :
        ExceptT Failure (StateM Machine) _).run.run (configured "0: red\ncolour: blue\n") =
          (.error (.configuration "/config.yaml" (.unorderedKeys first second)),
            configured "0: red\ncolour: blue\n")) := by
  have horder : Datum.HaveOrder (Configuration.unknownKeys settingAndOther) :=
    .inl (Nat.le_refl 1)
  have hunordered : ¬ Datum.HaveOrder (Configuration.unknownKeys numberAndText) := by
    have hmixed : Configuration.unknownKeys numberAndText = [.integer 0, .string "colour"] := rfl
    rw [hmixed, Datum.haveOrder_cons_iff]
    exact fun h => nomatch h (.string "colour") List.mem_cons_self
  have hfile : HoldsMapping (configured "max_depth: 3\ncolour: blue\n") "/config.yaml"
      settingAndOther := holdsMapping_configured (by with_unfolding_all rfl)
  have hfile' : HoldsMapping (configured "0: red\ncolour: blue\n") "/config.yaml"
      numberAndText := holdsMapping_configured (by with_unfolding_all rfl)
  have hkeys : Datum.DistinctKeys settingAndOther :=
    List.pairwise_pair.mpr rfl
  have hkeys' : Datum.DistinctKeys numberAndText := List.pairwise_pair.mpr rfl
  obtain ⟨configuration, unknown, hdescribes, hloads⟩ := (loadConfiguration_mapping hkeys).1 horder
  obtain ⟨first, -, second, -, -, -, hfails⟩ := (loadConfiguration_mapping hkeys').2 hunordered
  have hperm : unknown.Perm [.string "colour"] := hdescribes.unknown_perm
  obtain rfl := List.perm_singleton.mp hperm
  have hstandard : ∀ value, (.string Setting.historySize.name, value) ∉ settingAndOther := by
    intro value hmem
    simp [settingAndOther, Setting.name] at hmem
  exact ⟨⟨hkeys, horder, hfile, by with_unfolding_all rfl, configuration,
      hdescribes.given .nestingLimit _ List.mem_cons_self,
      hdescribes.standard .historySize hstandard, (hloads _ _ hfile).1⟩,
    hkeys', hunordered, hfile', first, second, (hfails _ _ hfile').1⟩

end CommandLine

end TypedCalc
