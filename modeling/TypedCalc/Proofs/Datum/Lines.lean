import TypedCalc.Datum.Json
import TypedCalc.Host.Basic
import TypedCalc.Proofs.Binary64.Text

/-!
# Line ends in written JSON

Carriage returns are escaped in texts, and there is none in anything else that is written.  So
reading a written file does not change any line end.

* `Datum.IsSmooth.writeAt`: there is no carriage return in what is written.
* `Datum.unifyLines_toIndentedJson`: all line ends of a written text stay as they are.
-/

namespace TypedCalc

theorem Host.unifyLines_of_notMem {cs : List Char} (h : '\r' ∉ cs) : unifyLines cs = cs := by
  induction cs with
  | nil => rfl
  | cons c rest ih =>
    rw [List.mem_cons, not_or] at h
    rw [unifyLines.eq_3 _ _ (fun _ hc _ => h.1 hc.symm) (fun hc => h.1 hc.symm), ih h.2]

namespace Datum

/-- Whether there is no carriage return in a text. -/
def IsSmooth (cs : List Char) : Prop := '\r' ∉ cs

namespace IsSmooth

variable {cs rest : List Char}

theorem nil : IsSmooth [] := List.not_mem_nil

theorem append (h : IsSmooth cs) (hrest : IsSmooth rest) : IsSmooth (cs ++ rest) := by
  rw [IsSmooth, List.mem_append, not_or]
  exact ⟨h, hrest⟩

theorem cons {c : Char} (hc : c ≠ '\r') (h : IsSmooth cs) : IsSmooth (c :: cs) := by
  rw [IsSmooth, List.mem_cons, not_or]
  exact ⟨hc.symm, h⟩

theorem flatMap {f : Char → List Char} (h : ∀ c ∈ cs, IsSmooth (f c)) :
    IsSmooth (cs.flatMap f) := by
  rw [IsSmooth, List.mem_flatMap]
  rintro ⟨c, hc, hmem⟩
  exact h c hc hmem

theorem of_isDigit (h : ∀ c ∈ cs, c.isDigit = true) : IsSmooth cs :=
  fun hmem => nomatch h _ hmem

/-! ## Numbers -/

theorem signed (negative : Bool) (h : IsSmooth cs) : IsSmooth (Binary64.signed negative cs) := by
  cases negative
  · exact h
  · exact cons (by decide) h

theorem ofInt (n : Int) : IsSmooth (Numeral.ofInt n) := by
  have hdigits := of_isDigit (isWholeNumeral_write n.natAbs).isDigit
  rw [Numeral.ofInt]
  split
  · exact cons (by decide) hdigits
  · exact hdigits

theorem writePadded (width number : Nat) : IsSmooth (Numeral.writePadded 10 width number) :=
  append (of_isDigit fun _ => isDigit_of_mem_replicate_zero)
    (of_isDigit (isWholeNumeral_write number).isDigit)

theorem jsonFloat (x : Binary64) : IsSmooth (jsonFloat x) := by
  cases x with
  | nan => exact (by decide : '\r' ∉ "NaN".toList)
  | infinity negative =>
    cases negative
    · exact (by decide : '\r' ∉ "Infinity".toList)
    · exact (by decide : '\r' ∉ "-Infinity".toList)
  | finite negative units h =>
    show IsSmooth (Binary64.finiteText negative units)
    rw [Binary64.finiteText_eq_signed]
    refine signed negative ?_
    rcases Binary64.finiteText_cases h with ⟨whole, fraction, htext, hwhole, hfraction, -, -⟩ |
      ⟨first, fraction, exponent, htext, hwhole, hfraction, -⟩
    · rw [htext]
      exact append (of_isDigit hwhole.isDigit) (cons (by decide) (of_isDigit hfraction))
    · have hdecimals : IsSmooth (if fraction = [] then [] else '.' :: fraction) := by
        split
        · exact nil
        · exact cons (by decide) (of_isDigit hfraction)
      have hsign : (if exponent < 0 then '-' else '+') ≠ '\r' := by split <;> decide
      rw [htext]
      exact (of_isDigit hwhole.isDigit).append
        (append hdecimals (cons (by decide) (cons hsign (writePadded _ _))))

/-! ## Texts -/

theorem notMem_writePadded_control : ∀ number < 0x20, '\r' ∉ Numeral.writePadded 16 4 number := by
  decide

theorem jsonChar (c : Char) : IsSmooth (jsonChar c) := by
  unfold Datum.jsonChar
  split
  case h_8 _ _ _ _ hreturn _ _ _ =>
    split
    · rename_i hcontrol
      exact cons (by decide) (cons (by decide) (notMem_writePadded_control _ hcontrol))
    · exact cons hreturn nil
  all_goals exact cons (by decide) (cons (by decide) nil)

theorem jsonString (text : String) : IsSmooth (jsonString text) :=
  cons (by decide) (append (flatMap fun c _ => jsonChar c) (cons (by decide) nil))

theorem writeKey (key : Datum) : IsSmooth (writeKey key) :=
  append (jsonString _) (by decide : '\r' ∉ [':', ' '])

/-! ## Lists and mappings -/

theorem newLine (level : Nat) : IsSmooth (newLine level) := by
  refine cons (by decide) fun hmem => ?_
  exact absurd (List.eq_of_mem_replicate hmem) (by decide)

mutual

/-- **There is no carriage return in what is written.** -/
theorem writeAt (level : Nat) : (datum : Datum) → IsSmooth (writeAt .indented level datum)
  | .null => by
    rw [Datum.writeAt]
    exact (by decide : '\r' ∉ "null".toList)
  | .bool flag => by
    rw [Datum.writeAt]
    cases flag
    · exact (by decide : '\r' ∉ "false".toList)
    · exact (by decide : '\r' ∉ "true".toList)
  | .integer n => by
    rw [Datum.writeAt]
    exact ofInt n
  | .float x => by
    rw [Datum.writeAt]
    exact jsonFloat x
  | .string text => by
    rw [Datum.writeAt]
    exact jsonString text
  | .list [] => by
    rw [Datum.writeAt]
    exact (by decide : '\r' ∉ ['[', ']'])
  | .list (first :: rest) => by
    rw [Datum.writeAt]
    exact ((((cons (by decide) (newLine _)).append (writeAt _ first)).append
      (writeItems level rest)).append (newLine _)).append (cons (by decide) nil)
  | .mapping [] => by
    rw [Datum.writeAt]
    exact (by decide : '\r' ∉ ['\x7b', '\x7d'])
  | .mapping ((key, value) :: rest) => by
    rw [Datum.writeAt]
    exact (((((cons (by decide) (newLine _)).append (writeKey key)).append
      (writeAt _ value)).append (writeEntries level rest)).append (newLine _)).append
        (cons (by decide) nil)

theorem writeItems (level : Nat) :
    (items : List Datum) → IsSmooth (writeItems .indented level items)
  | [] => by
    rw [Datum.writeItems]
    exact nil
  | item :: rest => by
    rw [Datum.writeItems]
    exact ((cons (by decide) (newLine _)).append (writeAt _ item)).append (writeItems level rest)

theorem writeEntries (level : Nat) :
    (entries : List (Datum × Datum)) → IsSmooth (writeEntries .indented level entries)
  | [] => by
    rw [Datum.writeEntries]
    exact nil
  | (key, value) :: rest => by
    rw [Datum.writeEntries]
    exact (((cons (by decide) (newLine _)).append (writeKey key)).append (writeAt _ value)).append
      (writeEntries level rest)

end

end IsSmooth

/-- **All line ends of a written text stay as they are.** -/
theorem unifyLines_toIndentedJson (datum : Datum) :
    String.ofList (Host.unifyLines datum.toIndentedJson.toList) = datum.toIndentedJson := by
  have hsmooth : IsSmooth datum.toIndentedJson.toList := by
    rw [toIndentedJson, String.toList_ofList]
    exact .writeAt 0 datum
  rw [Host.unifyLines_of_notMem hsmooth, String.ofList_toList]

end Datum

end TypedCalc
