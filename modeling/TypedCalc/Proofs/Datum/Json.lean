import TypedCalc.Proofs.Datum.JsonScalar

/-!
# Written JSON is read back

Lists and mappings are written with blanks around the brackets and after the commas.  A mapping is
read back if its keys are different texts, since a key that comes up again replaces an entry.

* `Datum.Writable.readsBack`: a written datum is read as that datum, whatever follows it, as long
  as that does not go on with a number.
* `Datum.ofJson?_toIndentedJson`: a whole text.
-/

namespace TypedCalc.Datum

/-! ## Lists and mappings -/

/-- Whether a text starts with items up to a closing bracket that another text follows. -/
def ReadsItemsAs (cs : List Char) (items : List Datum) (rest : List Char) : Prop :=
  ∃ h, readItems cs = some ⟨items, rest, h⟩

/-- Whether a text starts with entries up to a closing brace that another text follows. -/
def ReadsEntriesAs (cs : List Char) (entries : List (Datum × Datum)) (rest : List Char) : Prop :=
  ∃ h, readEntries cs = some ⟨entries, rest, h⟩

theorem skipBlanks_append {blanks : List Char} (h : ∀ c ∈ blanks, isJsonBlank c = true)
    (rest : List Char) : skipBlanks (blanks ++ rest) = skipBlanks rest :=
  List.dropWhile_append_of_pos h

theorem skipBlanks_cons {c : Char} (h : isJsonBlank c = false) (rest : List Char) :
    skipBlanks (c :: rest) = c :: rest :=
  List.dropWhile_cons_of_neg (by rw [h]; exact Bool.false_ne_true)

theorem length_lt_of_skipBlanks {cs rest : List Char} {c : Char} (h : skipBlanks cs = c :: rest) :
    rest.length < cs.length := by
  have hle := length_skipBlanks_le cs
  rw [h, List.length_cons] at hle
  omega

section

variable {cs after more rest : List Char} {datum : Datum}

/-- The last item of a list. -/
theorem ReadsItemsAs.last (hdatum : ReadsAs cs datum after)
    (hafter : skipBlanks after = ']' :: rest) : ReadsItemsAs cs [datum] rest := by
  obtain ⟨hlength, hread⟩ := hdatum
  refine ⟨(length_lt_of_skipBlanks hafter).trans hlength, ?_⟩
  rw [readItems.eq_1, hread]
  simp only [Option.bind_eq_bind, Option.bind_some]
  split
  case h_1 heq =>
    cases hafter.symm.trans heq
    exact Reading.of?_eq_some _
  case h_2 heq => cases hafter.symm.trans heq
  case h_3 hclose _ => exact absurd hafter (hclose rest)

/-- An item that others follow. -/
theorem ReadsItemsAs.cons {items : List Datum} (hdatum : ReadsAs cs datum after)
    (hafter : skipBlanks after = ',' :: more) (hitems : ReadsItemsAs (skipBlanks more) items rest) :
    ReadsItemsAs cs (datum :: items) rest := by
  obtain ⟨hlength, hread⟩ := hdatum
  obtain ⟨hitemsLength, hitemsRead⟩ := hitems
  have hmore := (length_lt_of_skipBlanks hafter).trans hlength
  refine ⟨(hitemsLength.trans_le (length_skipBlanks_le more)).trans hmore, ?_⟩
  rw [readItems.eq_1, hread]
  simp only [Option.bind_eq_bind, Option.bind_some]
  split
  case h_1 heq => cases hafter.symm.trans heq
  case h_2 heq =>
    cases hafter.symm.trans heq
    rw [hitemsRead]
    exact Reading.of?_eq_some _
  case h_3 hcomma => exact absurd hafter (hcomma more)

/-- The items of a list stand between brackets. -/
theorem ReadsAs.list {items : List Datum} {first : Char} {inner : List Char}
    (hinner : skipBlanks cs = first :: inner) (hfirst : first ≠ ']')
    (hitems : ReadsItemsAs (first :: inner) items rest) :
    ReadsAs ('[' :: cs) (.list items) rest := by
  obtain ⟨hlength, hread⟩ := hitems
  have hcs := length_skipBlanks_le cs
  rw [hinner] at hcs
  refine readsAs_of_eq ?_ (Nat.lt_succ_of_lt (hlength.trans_le hcs))
  rw [readDatum.eq_2]
  split
  · rename_i heq
    rw [hinner] at heq
    cases heq
    exact absurd rfl hfirst
  · rename_i heq
    rw [hinner, hread]
    rfl

theorem writeKey_append (key : String) (cs : List Char) :
    writeKey (.string key) ++ cs =
      '"' :: (key.toList.flatMap jsonChar ++ '"' :: ':' :: ' ' :: cs) := by
  rw [writeKey, List.append_assoc]
  exact jsonString_append key _

/-- The blank after the colon is skipped, and the rest is shorter than what follows the quote. -/
theorem ReadsAs.afterColon (key : String) (hcs : skipBlanks cs = cs)
    (hdatum : ReadsAs cs datum after) :
    ReadsAs (skipBlanks (' ' :: cs)) datum after ∧ (skipBlanks (' ' :: cs)).length ≤
      (key.toList.flatMap jsonChar ++ '"' :: ':' :: ' ' :: cs).length := by
  have hblank : skipBlanks (' ' :: cs) = cs := hcs
  rw [hblank]
  refine ⟨hdatum, ?_⟩
  simp only [List.length_append, List.length_cons]
  omega

theorem readsAs_list_nil (rest : List Char) : ReadsAs ('[' :: ']' :: rest) (.list []) rest := by
  refine readsAs_of_eq ?_ (Nat.lt_succ_of_lt (Nat.lt_succ_self _))
  have hskip : skipBlanks (']' :: rest) = ']' :: rest := skipBlanks_cons (by decide) rest
  rw [readDatum.eq_2]
  split
  case h_1 heq =>
    cases hskip.symm.trans heq
    rfl
  case h_2 hclose => exact absurd hskip (hclose rest)

theorem readsAs_mapping_nil (rest : List Char) :
    ReadsAs ('\x7b' :: '\x7d' :: rest) (.mapping []) rest := by
  refine readsAs_of_eq ?_ (Nat.lt_succ_of_lt (Nat.lt_succ_self _))
  have hskip : skipBlanks ('\x7d' :: rest) = '\x7d' :: rest := skipBlanks_cons (by decide) rest
  rw [readDatum.eq_3]
  split
  case h_1 heq =>
    cases hskip.symm.trans heq
    rfl
  case h_2 hclose => exact absurd hskip (hclose rest)

/-- The last entry of a mapping. -/
theorem ReadsEntriesAs.last {key : String} (hcs : skipBlanks cs = cs)
    (hdatum : ReadsAs cs datum after) (hafter : skipBlanks after = '\x7d' :: rest) :
    ReadsEntriesAs (writeKey (.string key) ++ cs) [(.string key, datum)] rest := by
  obtain ⟨⟨hlength, hread⟩, hshort⟩ := hdatum.afterColon key hcs
  have hrest := (length_lt_of_skipBlanks hafter).trans hlength
  rw [writeKey_append]
  refine ⟨Nat.lt_succ_of_lt (hrest.trans_le hshort), ?_⟩
  rw [readEntries.eq_1, readString_flatMap_jsonChar]
  simp only [Option.bind_eq_bind, Option.bind_some]
  split
  case h_1 heq =>
    cases heq
    rw [dif_pos hshort, hread]
    simp only [Option.bind_some]
    split
    case h_1 heq =>
      cases hafter.symm.trans heq
      exact Reading.of?_eq_some _
    case h_2 heq => cases hafter.symm.trans heq
    case h_3 hclose _ => exact absurd hafter (hclose rest)
  case h_2 hcolon => exact absurd rfl (hcolon _)

/-- An entry that others follow. -/
theorem ReadsEntriesAs.cons {key : String} {entries : List (Datum × Datum)}
    (hcs : skipBlanks cs = cs) (hdatum : ReadsAs cs datum after)
    (hafter : skipBlanks after = ',' :: more)
    (hentries : ReadsEntriesAs (skipBlanks more) entries rest) :
    ReadsEntriesAs (writeKey (.string key) ++ cs) ((.string key, datum) :: entries) rest := by
  obtain ⟨⟨hlength, hread⟩, hshort⟩ := hdatum.afterColon key hcs
  obtain ⟨hentriesLength, hentriesRead⟩ := hentries
  have hmore := (length_lt_of_skipBlanks hafter).trans hlength
  have hrest := (hentriesLength.trans_le (length_skipBlanks_le more)).trans hmore
  rw [writeKey_append]
  refine ⟨Nat.lt_succ_of_lt (hrest.trans_le hshort), ?_⟩
  rw [readEntries.eq_1, readString_flatMap_jsonChar]
  simp only [Option.bind_eq_bind, Option.bind_some]
  split
  case h_1 heq =>
    cases heq
    rw [dif_pos hshort, hread]
    simp only [Option.bind_some]
    split
    case h_1 heq => cases hafter.symm.trans heq
    case h_2 heq =>
      cases hafter.symm.trans heq
      rw [hentriesRead]
      exact Reading.of?_eq_some _
    case h_3 hcomma => exact absurd hafter (hcomma more)
  case h_2 hcolon => exact absurd rfl (hcolon _)

/-- The entries of a mapping stand between braces. -/
theorem ReadsAs.mapping {entries : List (Datum × Datum)} {first : Char} {inner : List Char}
    (hinner : skipBlanks cs = first :: inner) (hfirst : first ≠ '\x7d')
    (hentries : ReadsEntriesAs (first :: inner) entries rest) :
    ReadsAs ('\x7b' :: cs) (ofEntries entries) rest := by
  obtain ⟨hlength, hread⟩ := hentries
  have hcs := length_skipBlanks_le cs
  rw [hinner] at hcs
  refine readsAs_of_eq ?_ (Nat.lt_succ_of_lt (hlength.trans_le hcs))
  rw [readDatum.eq_3]
  split
  · rename_i heq
    rw [hinner] at heq
    cases heq
    exact absurd rfl hfirst
  · rename_i heq
    rw [hinner, hread]
    rfl

end

/-! ## Data that is read back -/

/-- The entry of a mapping under a text. -/
def ofField (field : String × Datum) : Datum × Datum := (.string field.1, field.2)

theorem isKey_string (a b : String) : isKey (.string a) (.string b) = (a == b) := rfl

theorem put_of_notMem {key : String} {fields : List (String × Datum)}
    (h : key ∉ fields.map (·.1)) (value : Datum) :
    put (.string key) value (fields.map ofField) = (fields ++ [(key, value)]).map ofField := by
  induction fields with
  | nil => rfl
  | cons field rest ih =>
    rw [List.map_cons, List.mem_cons, not_or] at h
    have hkey : ¬ (field.1 == key) = true := fun heq => h.1 (beq_iff_eq.mp heq).symm
    rw [List.map_cons, put, ofField, isKey_string, if_neg hkey, ih h.2]
    rfl

theorem foldl_put_of_nodup {known fields : List (String × Datum)}
    (h : ((known ++ fields).map (·.1)).Nodup) :
    (fields.map ofField).foldl (fun known entry => put entry.1 entry.2 known)
      (known.map ofField) = (known ++ fields).map ofField := by
  induction fields generalizing known with
  | nil => rw [List.append_nil]; rfl
  | cons field rest ih =>
    have hassoc : known ++ field :: rest = known ++ [field] ++ rest := by
      rw [List.append_assoc, List.singleton_append]
    have hnotMem : field.1 ∉ known.map (·.1) := by
      rw [List.map_append, List.nodup_append] at h
      exact fun hmem => h.2.2 _ hmem _ (List.mem_cons_self ..) rfl
    rw [hassoc] at h ⊢
    rw [List.map_cons, List.foldl_cons, ← ih h, ← put_of_notMem hnotMem field.2]
    rfl

/-- Entries whose keys are different texts are a mapping as they are. -/
theorem ofEntries_of_nodup {fields : List (String × Datum)} (h : (fields.map (·.1)).Nodup) :
    ofEntries (fields.map ofField) = .mapping (fields.map ofField) :=
  congrArg Datum.mapping (@foldl_put_of_nodup [] fields h)

/-- Whether the keys of all mappings in a datum are different texts. -/
inductive Writable : Datum → Prop
  | null : Writable .null
  | bool (flag : Bool) : Writable (.bool flag)
  | integer (n : Int) : Writable (.integer n)
  | float (x : Binary64) : Writable (.float x)
  | string (text : String) : Writable (.string text)
  | list {items : List Datum} (h : ∀ item ∈ items, Writable item) : Writable (.list items)
  | mapping {fields : List (String × Datum)} (hkeys : (fields.map (·.1)).Nodup)
      (h : ∀ field ∈ fields, Writable field.2) : Writable (.mapping (fields.map ofField))

/-- A written datum starts with neither a blank nor a closing bracket. -/
theorem exists_writeAt_eq_cons (layout : JsonLayout) (level : Nat) (datum : Datum) :
    ∃ c cs, writeAt layout level datum = c :: cs ∧ isJsonBlank c = false ∧ c ≠ ']' := by
  have hnumber {cs : List Char} (h : ∃ negative whole tail, IsWholeNumeral whole ∧
      cs = Binary64.signed negative (whole ++ tail)) :
      ∃ c rest, cs = c :: rest ∧ isJsonBlank c = false ∧ c ≠ ']' := by
    obtain ⟨negative, whole, tail, hwhole, rfl⟩ := h
    obtain ⟨c, rest, hcons, hc⟩ := exists_signed_eq_cons negative hwhole tail
    refine ⟨c, rest, hcons, ?_⟩
    rcases hc with rfl | hc
    · decide
    · have hne (d : Char) (hd : d.isDigit = false) : c ≠ d := ne_of_isDigit hc hd
      simp only [isJsonBlank, Bool.or_eq_false_iff, beq_eq_false_iff_ne]
      exact ⟨⟨⟨⟨hne _ (by decide), hne _ (by decide)⟩, hne _ (by decide)⟩, hne _ (by decide)⟩,
        hne _ (by decide)⟩
  cases datum with
  | null => exact ⟨'n', _, rfl, by decide, by decide⟩
  | bool flag =>
    cases flag
    · exact ⟨'f', _, rfl, by decide, by decide⟩
    · exact ⟨'t', _, rfl, by decide, by decide⟩
  | integer n => exact hnumber ⟨_, _, _, isWholeNumeral_write n.natAbs, ofInt_eq_signed n⟩
  | float x =>
    cases x with
    | nan => exact ⟨'N', _, rfl, by decide, by decide⟩
    | infinity negative =>
      cases negative
      · exact ⟨'I', _, rfl, by decide, by decide⟩
      · exact ⟨'-', _, rfl, by decide, by decide⟩
    | finite negative units h =>
      obtain ⟨whole, tail, hwhole, -, -, htext⟩ := exists_finiteText h
      exact hnumber ⟨negative, whole, tail, hwhole, (htext negative).1⟩
  | string text => exact ⟨'"', _, rfl, by decide, by decide⟩
  | list items => cases items <;> exact ⟨'[', _, rfl, by decide, by decide⟩
  | mapping entries => cases entries <;> exact ⟨'\x7b', _, rfl, by decide, by decide⟩

/-- Whether a layout adds blanks to the brackets and to the comma between items. -/
structure JsonLayout.AddsBlanks (layout : JsonLayout) : Prop where
  opening : ∀ level, ∀ c ∈ layout.opening level, isJsonBlank c = true
  between : ∀ level, ∃ blanks, layout.between level = ',' :: blanks ∧
    ∀ c ∈ blanks, isJsonBlank c = true
  closing : ∀ level, ∀ c ∈ layout.closing level, isJsonBlank c = true

theorem isJsonBlank_of_mem_newLine (level : Nat) : ∀ c ∈ newLine level, isJsonBlank c = true := by
  intro c hc
  rcases List.mem_cons.mp hc with rfl | hc
  · rfl
  · rw [List.eq_of_mem_replicate hc]
    rfl

theorem addsBlanks_indented : JsonLayout.indented.AddsBlanks where
  opening level := isJsonBlank_of_mem_newLine (level + 1)
  between level := ⟨_, rfl, isJsonBlank_of_mem_newLine (level + 1)⟩
  closing := isJsonBlank_of_mem_newLine

theorem endsNumber_of_isJsonBlank {c : Char} (h : isJsonBlank c = true) (rest : List Char) :
    EndsNumber (c :: rest) := by
  simp only [isJsonBlank, Bool.or_eq_true, beq_iff_eq] at h
  rcases h with ((rfl | rfl) | rfl) | rfl <;>
    exact endsNumber_cons (by decide) (by decide) (by decide) (by decide) rest

section

variable {layout : JsonLayout} (hlayout : layout.AddsBlanks)

include hlayout

/-- What stands before a closing bracket does not go on with a number. -/
theorem endsNumber_closing {bracket : Char} (hbracket : EndsNumber [bracket]) (level : Nat)
    (rest : List Char) : EndsNumber (layout.closing level ++ bracket :: rest) := by
  have hblank := hlayout.closing level
  cases hclosing : layout.closing level with
  | nil => exact hbracket
  | cons c cs =>
    rw [hclosing] at hblank
    exact endsNumber_of_isJsonBlank (hblank c (List.mem_cons_self ..)) _

theorem skipBlanks_closing {bracket : Char} (hbracket : isJsonBlank bracket = false) (level : Nat)
    (rest : List Char) :
    skipBlanks (layout.closing level ++ bracket :: rest) = bracket :: rest := by
  rw [skipBlanks_append (hlayout.closing level), skipBlanks_cons hbracket]

/-- A comma and blanks stand between items. -/
theorem exists_between (level : Nat) (cs : List Char) :
    ∃ more, layout.between level ++ cs = ',' :: more ∧ skipBlanks more = skipBlanks cs := by
  obtain ⟨blanks, hbetween, hblanks⟩ := hlayout.between level
  exact ⟨blanks ++ cs, by rw [hbetween]; rfl, skipBlanks_append hblanks cs⟩

end

theorem skipBlanks_writeAt_append (layout : JsonLayout) (level : Nat) (datum : Datum)
    (rest : List Char) : skipBlanks (writeAt layout level datum ++ rest) =
      writeAt layout level datum ++ rest := by
  obtain ⟨c, cs, hcons, hblank, -⟩ := exists_writeAt_eq_cons layout level datum
  rw [hcons]
  exact skipBlanks_cons hblank _

/-- Whether a datum is read back from what is written of it, at all levels. -/
def ReadsBack (layout : JsonLayout) (datum : Datum) : Prop :=
  ∀ level rest, EndsNumber rest → ReadsAs (writeAt layout level datum ++ rest) datum rest

theorem readsItemsAs_writeItems {layout : JsonLayout} (hlayout : layout.AddsBlanks) {first : Datum}
    {others : List Datum} (hitems : ∀ item ∈ first :: others, ReadsBack layout item) (level : Nat)
    (rest : List Char) :
    ReadsItemsAs (writeAt layout (level + 1) first ++
      (writeItems layout level others ++ (layout.closing level ++ ']' :: rest)))
      (first :: others) rest := by
  have hbracket : EndsNumber [']'] := endsNumber_cons (by decide) (by decide) (by decide)
    (by decide) []
  induction others generalizing first with
  | nil =>
    exact .last (hitems first (List.mem_cons_self ..) _ _
      (endsNumber_closing hlayout hbracket level rest))
      (skipBlanks_closing hlayout (by decide) level rest)
  | cons second others ih =>
    rw [List.forall_mem_cons] at hitems
    obtain ⟨more, hmore, hskip⟩ := exists_between hlayout level
      (writeAt layout (level + 1) second ++
        (writeItems layout level others ++ (layout.closing level ++ ']' :: rest)))
    rw [skipBlanks_writeAt_append] at hskip
    rw [writeItems, List.append_assoc, List.append_assoc, hmore]
    refine .cons (hitems.1 _ _ (endsNumber_cons (by decide) (by decide) (by decide) (by decide) _))
      (skipBlanks_cons (by decide) _) ?_
    rw [hskip]
    exact ih hitems.2

theorem readsEntriesAs_writeEntries {layout : JsonLayout} (hlayout : layout.AddsBlanks)
    {first : String × Datum} {others : List (String × Datum)}
    (hfields : ∀ field ∈ first :: others, ReadsBack layout field.2) (level : Nat)
    (rest : List Char) :
    ReadsEntriesAs (writeKey (.string first.1) ++ (writeAt layout (level + 1) first.2 ++
      (writeEntries layout level (others.map ofField) ++ (layout.closing level ++ '\x7d' :: rest))))
      ((first :: others).map ofField) rest := by
  have hbrace : EndsNumber ['\x7d'] := endsNumber_cons (by decide) (by decide) (by decide)
    (by decide) []
  induction others generalizing first with
  | nil =>
    exact .last (skipBlanks_writeAt_append ..) (hfields first (List.mem_cons_self ..) _ _
      (endsNumber_closing hlayout hbrace level rest))
      (skipBlanks_closing hlayout (by decide) level rest)
  | cons second others ih =>
    rw [List.forall_mem_cons] at hfields
    obtain ⟨more, hmore, hskip⟩ := exists_between hlayout level (writeKey (.string second.1) ++
      (writeAt layout (level + 1) second.2 ++ (writeEntries layout level (others.map ofField) ++
        (layout.closing level ++ '\x7d' :: rest))))
    have hkey (cs : List Char) : skipBlanks (writeKey (.string second.1) ++ cs) =
        writeKey (.string second.1) ++ cs := rfl
    rw [hkey] at hskip
    rw [List.map_cons, ofField, writeEntries, List.append_assoc, List.append_assoc,
      List.append_assoc, hmore]
    refine .cons (skipBlanks_writeAt_append ..)
      (hfields.1 _ _ (endsNumber_cons (by decide) (by decide) (by decide) (by decide) _))
      (skipBlanks_cons (by decide) _) ?_
    rw [hskip]
    exact ih hfields.2

/-- **A written datum is read back**, whatever follows it. -/
theorem Writable.readsBack {layout : JsonLayout} (hlayout : layout.AddsBlanks) {datum : Datum}
    (h : datum.Writable) : ReadsBack layout datum := by
  induction h with
  | null =>
    intro level rest _
    have htext : writeAt layout level .null = "null".toList := by rw [writeAt]
    exact htext ▸ readsAs_name (by simp [names]) rest
  | bool flag =>
    intro level rest _
    have htext : writeAt layout level (.bool flag) =
      if flag then "true".toList else "false".toList := by rw [writeAt]
    rw [htext]
    cases flag <;> exact readsAs_name (by simp [names]) rest
  | integer n => exact fun _ _ hrest => by rw [writeAt]; exact readsAs_ofInt n hrest
  | float x => exact fun _ _ hrest => by rw [writeAt]; exact readsAs_jsonFloat x hrest
  | string text => exact fun _ rest _ => by rw [writeAt]; exact readsAs_string text rest
  | @list items _ ih =>
    intro level rest _
    cases items with
    | nil =>
      rw [writeAt]
      exact readsAs_list_nil rest
    | cons first others =>
      have hread := readsItemsAs_writeItems hlayout ih level rest
      obtain ⟨c, cs, hcons, hblank, hclose⟩ := exists_writeAt_eq_cons layout (level + 1) first
      rw [writeAt]
      simp only [List.cons_append, List.append_assoc, List.nil_append]
      rw [hcons, List.cons_append] at hread ⊢
      exact .list ((skipBlanks_append (hlayout.opening level) _).trans (skipBlanks_cons hblank _))
        hclose hread
  | @mapping fields hkeys _ ih =>
    intro level rest _
    cases fields with
    | nil =>
      rw [List.map_nil, writeAt]
      exact readsAs_mapping_nil rest
    | cons first others =>
      have hread := readsEntriesAs_writeEntries hlayout ih level rest
      have hkey (cs : List Char) :
          skipBlanks (layout.opening level ++ (writeKey (.string first.1) ++ cs)) =
            '"' :: (first.1.toList.flatMap jsonChar ++ '"' :: ':' :: ' ' :: cs) := by
        rw [skipBlanks_append (hlayout.opening level), writeKey_append]
        rfl
      rw [writeKey_append] at hread
      have hmapping := ReadsAs.mapping (hkey _) (by decide) hread
      rw [ofEntries_of_nodup hkeys] at hmapping
      have htext : writeAt layout level (.mapping ((first :: others).map ofField)) ++ rest =
          '\x7b' :: (layout.opening level ++ (writeKey (.string first.1) ++
            (writeAt layout (level + 1) first.2 ++
              (writeEntries layout level (others.map ofField) ++
                (layout.closing level ++ '\x7d' :: rest))))) := by
        rw [List.map_cons, ofField, writeAt]
        simp only [List.cons_append, List.append_assoc, List.nil_append]
      rw [htext]
      exact hmapping

/-- A text is the datum that is written in it. -/
theorem ofJson?_toIndentedJson {datum : Datum} (h : datum.Writable) :
    ofJson? datum.toIndentedJson = some datum := by
  obtain ⟨hlength, hread⟩ := h.readsBack addsBlanks_indented 0 [] endsNumber_nil
  have hskip : skipBlanks datum.toIndentedJson.toList =
      writeAt .indented 0 datum ++ [] := by
    rw [toIndentedJson, String.toList_ofList, ← skipBlanks_writeAt_append .indented 0 datum [],
      List.append_nil]
  rw [ofJson?, hskip, hread]
  rfl

end TypedCalc.Datum
