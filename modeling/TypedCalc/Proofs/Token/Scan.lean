import TypedCalc.Proofs.Result
import TypedCalc.Token.Scan

/-!
# Where tokens and lexical errors stand

* `Token.failsOnly_readOne`: an error about the token that starts at a character stands inside the
  text from there on, and no suffix that is read is unknown.
* `Token.ofText?_spec`: the tokens of a text stand inside it, but for the one at its end.
-/

namespace TypedCalc

theorem LexicalFault.errorClass_report {fault : LexicalFault} (h : fault.isConversion = false) :
    fault.report.errorClass = .lexical := by
  cases fault with
  | tooManyDigits | tooManyDigitsToWrite => cases h
  | _ => rfl

/-- What the interpreter refuses is none of the errors of a text. -/
theorem LexicalFault.errorClass_report_of_isConversion {fault : LexicalFault}
    (h : fault.isConversion = true) : fault.report.errorClass = .conversion := by
  cases fault with
  | tooManyDigits | tooManyDigitsToWrite => rfl
  | _ => cases h

theorem LexicalFault.position_report (fault : LexicalFault) : fault.report.position = none := by
  cases fault <;> rfl

namespace Token

open Result

/-- Whether an error stands at a position or after it and before a bound, and is neither about a
suffix that no unit has nor about the interpreter. -/
def Within (position bound : Nat) (error : LexicalError) : Prop :=
  position ≤ error.position ∧ error.position < bound ∧
    (∀ suffix, error.fault ≠ .unknownSuffix suffix) ∧ error.fault.isConversion = false

theorem Within.mono {position bound position' bound' : Nat} {error : LexicalError}
    (h : Within position bound error) (hposition : position' ≤ position) (hbound : bound ≤ bound') :
    Within position' bound' error :=
  ⟨Nat.le_trans hposition h.1, Nat.lt_of_lt_of_le h.2.1 hbound, h.2.2⟩

/-! ## Numbers -/

theorem failsOnly_literalInteger (position number : Nat) :
    FailsOnly (Within position (position + 1)) (literalInteger position number) := by
  unfold literalInteger
  split
  · exact .error ⟨Nat.le_refl _, Nat.lt_succ_self _, nofun, rfl⟩
  · exact .ok _

theorem failsOnly_readRadixInteger (position : Nat) (radix : Radix) (cs : List Char) :
    FailsOnly (Within position (position + 1)) (readRadixInteger position radix cs) := by
  unfold readRadixInteger
  dsimp only
  split
  · exact .error ⟨Nat.le_refl _, Nat.lt_succ_self _, nofun, rfl⟩
  · exact .bind (failsOnly_literalInteger _ _) fun _ _ => .ok _

theorem failsOnly_readDecimal (position : Nat) (cs : List Char) :
    FailsOnly (Within position (position + 1)) (readDecimal position cs) := by
  unfold readDecimal
  dsimp only
  split
  · split
    · exact .error ⟨Nat.le_refl _, Nat.lt_succ_self _, nofun, rfl⟩
    · exact .ok _
  · exact .bind (.ok _) fun _ _ => .bind (failsOnly_literalInteger _ _) fun _ _ => .ok _

theorem failsOnly_readMagnitude (position : Nat) (cs : List Char) :
    FailsOnly (Within position (position + 1)) (readMagnitude position cs) := by
  unfold readMagnitude
  split
  · exact failsOnly_readRadixInteger _ _ _
  · exact failsOnly_readDecimal _ _

/-- What is taken for a suffix is one. -/
theorem exists_ofSuffix?_take {cs : List Char} (h : suffixLength cs ≠ 0) :
    ∃ unit, Measure.ofSuffix? (String.ofList (cs.take (suffixLength cs))) = some unit := by
  rw [← Option.isSome_iff_exists]
  fun_cases suffixLength cs with
  | case1 c rest hscale =>
    have hletter : c = 'C' ∨ c = 'F' ∨ c = 'K' := by simpa [isScaleLetter] using hscale
    show (Measure.ofSuffix? (String.ofList ['°', c])).isSome = true
    rcases hletter with rfl | rfl | rfl <;> decide
  | case2 c rest hscale =>
    show (Measure.ofSuffix? (String.ofList ['°'])).isSome = true
    decide
  | case3 =>
    show (Measure.ofSuffix? (String.ofList ['°'])).isSome = true
    decide
  | case4 c rest _ _ hsize =>
    have hletter : c = 'B' ∨ c = 'K' ∨ c = 'M' ∨ c = 'G' ∨ c = 'T' ∨ c = 'P' := by
      simpa [isSizeSuffix] using hsize
    show (Measure.ofSuffix? (String.ofList [c])).isSome = true
    rcases hletter with rfl | rfl | rfl | rfl | rfl | rfl <;> decide
  | case5 c rest hfirst hlone hsize =>
    rw [suffixLength, if_neg hsize] at h
    · exact absurd rfl h
    · exact hfirst
    · exact hlone
  | case6 => exact absurd rfl h

/-- A suffix never fails. -/
theorem exists_readSuffix (position : Nat) (number : Number) (cs : List Char) :
    ∃ result, readSuffix position number cs = .ok result := by
  unfold readSuffix
  dsimp only
  by_cases h : suffixLength cs = 0
  · exact ⟨_, if_pos h⟩
  · obtain ⟨unit, hunit⟩ := exists_ofSuffix?_take h
    rw [if_neg h, hunit]
    exact ⟨_, rfl⟩

theorem failsOnly_readNumber (position : Nat) (cs : List Char) :
    FailsOnly (Within position (position + 1)) (readNumber position cs) := by
  unfold readNumber
  refine .bind (failsOnly_readMagnitude _ _) ?_
  rintro ⟨number, digits⟩ -
  obtain ⟨⟨value, suffix⟩, hsuffix⟩ := exists_readSuffix (position + digits) number (cs.drop digits)
  dsimp only
  rw [hsuffix]
  dsimp only [bind, Except.bind]
  split
  · split
    · exact .error ⟨Nat.le_refl _, Nat.lt_succ_self _, nofun, rfl⟩
    · exact .ok _
  · exact .ok _

/-! ## Other tokens -/

theorem lt_length_of_head?_drop {cs : List Char} {n : Nat} {c : Char}
    (h : (cs.drop n).head? = some c) : n < cs.length := by
  rw [List.head?_drop] at h
  exact (List.getElem?_eq_some_iff.mp h).1

theorem failsOnly_readHistory (position : Nat) {cs : List Char} (hcs : 0 < cs.length) :
    FailsOnly (Within position (position + cs.length)) (readHistory position cs) := by
  have hhere : position < position + cs.length := Nat.lt_add_of_pos_right hcs
  unfold readHistory
  dsimp only
  split
  · exact .error ⟨Nat.le_refl _, hhere, nofun, rfl⟩
  split
  · exact .error ⟨Nat.le_refl _, hhere, nofun, rfl⟩
  split
  · rename_i c hhead
    split
    · have hlt := lt_length_of_head?_drop hhead
      exact .error ⟨Nat.le_add_right _ _, Nat.add_lt_add_left hlt _, nofun, rfl⟩
    · exact .ok _
  · exact .ok _

/-- **An error about one token** stands inside the text that starts with the token. -/
theorem failsOnly_readOne (position : Nat) (cs : List Char) :
    FailsOnly (Within position (position + cs.length)) (readOne position cs) := by
  cases cs with
  | nil => exact .ok _
  | cons c rest =>
    have hlength : 0 < (c :: rest).length := Nat.zero_lt_succ _
    have hfirst {error : LexicalError} (h : Within position (position + 1) error) :
        Within position (position + (c :: rest).length) error :=
      h.mono (Nat.le_refl _) (Nat.add_le_add_left hlength _)
    unfold readOne
    dsimp only
    split
    · exact (failsOnly_readNumber _ _).mono fun _ => hfirst
    split
    · exact failsOnly_readHistory position hlength
    split
    · exact .ok _
    split
    · exact .ok _
    split
    · exact .ok _
    split
    · exact .ok _
    split
    · exact .ok _
    · refine .error (hfirst ⟨Nat.le_refl _, Nat.lt_succ_self _, ?_⟩)
      unfold refuse
      dsimp only
      split <;> exact ⟨nofun, rfl⟩

/-! ## Whole texts -/

/-- Whether a token stands before an end, or is the end of the text and stands there. -/
def StandsBefore (bound : Nat) (token : Token) : Prop :=
  token.position < bound ∨ token.kind = .endOfInput ∧ token.position = bound

/-- Whether a scan that starts at a position and ends at a bound keeps its error and its tokens
between the two, and comes to the end of the text if there is no error. -/
structure Scan.Covers (position bound : Nat) (scan : Scan) : Prop where
  failure : ∀ error ∈ scan.failure, Within position bound error
  tokens : ∀ token ∈ scan.tokens, token.StandsBefore bound
  atEnd : scan.failure = none →
    ∃ token ∈ scan.tokens, token.kind = .endOfInput ∧ token.position = bound

theorem Scan.Covers.mono {position position' bound : Nat} {scan : Scan}
    (h : Covers position' bound scan) (hposition : position ≤ position') :
    Covers position bound scan :=
  ⟨fun error herror => (h.failure error herror).mono hposition (Nat.le_refl _),
    h.tokens, h.atEnd⟩

theorem Scan.Covers.cons {position bound : Nat} {scan : Scan} {token : Token}
    (h : Covers position bound scan) (htoken : token.StandsBefore bound) :
    Covers position bound ⟨token :: scan.tokens, scan.failure⟩ := by
  refine ⟨h.failure, List.forall_mem_cons.mpr ⟨htoken, h.tokens⟩, ?_⟩
  intro hnone
  obtain ⟨last, hmem, hlast⟩ := h.atEnd hnone
  exact ⟨last, List.mem_cons_of_mem _ hmem, hlast⟩

/-- A scan covers the text that it reads, one character after the other. -/
theorem scanFrom_covers (position skip : Nat) (cs : List Char) :
    Scan.Covers position (position + cs.length) (scanFrom position skip cs) := by
  fun_induction scanFrom position skip cs with
  | case1 position skip =>
    refine ⟨nofun, ?_, fun _ => ⟨_, List.mem_singleton_self _, rfl, rfl⟩⟩
    exact List.forall_mem_singleton.mpr (.inr ⟨rfl, rfl⟩)
  | case2 position c rest skip ih =>
    -- the rest starts one character later and ends where the whole does
    rw [List.length_cons, Nat.add_comm rest.length, ← Nat.add_assoc]
    exact ih.mono (Nat.le_succ _)
  | case3 position c rest hblank ih =>
    rw [List.length_cons, Nat.add_comm rest.length, ← Nat.add_assoc]
    exact ih.mono (Nat.le_succ _)
  | case4 position c rest hblank error herror =>
    refine ⟨?_, fun _ hmem => absurd hmem List.not_mem_nil, nofun⟩
    rintro _ ⟨⟩
    exact failsOnly_readOne position (c :: rest) error herror
  | case5 position c rest hblank lexeme hlexeme more ih =>
    rw [List.length_cons, Nat.add_comm rest.length, ← Nat.add_assoc]
    have hlt : position < position + 1 + rest.length := by omega
    exact (ih.mono (Nat.le_succ _)).cons (.inl hlt)

/-- **The places in a text.**  A lexical error stands at a character of the text and is neither
about a suffix that no unit has nor about the interpreter; otherwise every token stands at a
character of the text, but for the end of the text, which is a token too. -/
theorem ofText?_spec (text : String) :
    (∃ error, ofText? text = .error error ∧ error.position < text.length ∧
      (∀ suffix, error.fault ≠ .unknownSuffix suffix) ∧ error.fault.isConversion = false) ∨
    ∃ tokens, ofText? text = .ok tokens ∧ (∀ token ∈ tokens, token.StandsBefore text.length) ∧
      ∃ token ∈ tokens, token.kind = .endOfInput ∧ token.position = text.length := by
  have hcovers := scanFrom_covers 0 0 text.toList
  rw [Nat.zero_add, String.length_toList] at hcovers
  unfold ofText? scan
  dsimp only
  cases hfailure : (scanFrom 0 0 text.toList).failure with
  | none => exact .inr ⟨_, rfl, hcovers.tokens, hcovers.atEnd hfailure⟩
  | some error =>
    obtain ⟨-, hlt, hfault⟩ := hcovers.failure error hfailure
    exact .inl ⟨error, rfl, hlt, hfault⟩

end Token

end TypedCalc
