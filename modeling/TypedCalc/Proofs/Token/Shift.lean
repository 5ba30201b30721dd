import TypedCalc.Proofs.Token.Scan

/-!
# Positions move with the text

Reading looks forward only, so a text that stands further on in another one is read as the same
tokens or the same error, and only their places move.

* `Token.readOne_shift`: one token.
* `Token.scanFrom_shift`: a whole text.
-/

namespace TypedCalc

/-! ## Moving places -/

/-- The fault with the place that it names moved. -/
def LexicalFault.shift (distance : Nat) : LexicalFault → LexicalFault
  | .malformedNumber literal offender place =>
    .malformedNumber literal offender (place + distance)
  | fault => fault

/-- Moving a fault does not change what its message says. -/
theorem LexicalFault.message_shift (distance : Nat) (fault : LexicalFault) :
    (fault.shift distance).report.message = fault.report.message := by
  cases fault <;> rfl

/-- The error with its places moved. -/
def LexicalError.shift (distance : Nat) (error : LexicalError) : LexicalError :=
  ⟨error.fault.shift distance, error.position + distance⟩

theorem LexicalError.message_shift (distance : Nat) (error : LexicalError) :
    (error.shift distance).report.message = error.report.message := by
  rw [message_report, message_report]
  exact error.fault.message_shift distance

namespace Token

/-- The token with its place moved. -/
def shift (distance : Nat) (token : Token) : Token :=
  ⟨token.kind, token.position + distance, token.length⟩

/-- The scan with all its places moved. -/
def Scan.shift (distance : Nat) (scan : Scan) : Scan :=
  ⟨scan.tokens.map (Token.shift distance), scan.failure.map (LexicalError.shift distance)⟩

/-! ## Reading further on -/

section

variable (position distance : Nat)

theorem literalInteger_shift (number : Nat) :
    literalInteger (position + distance) number =
      (literalInteger position number).mapError (LexicalError.shift distance) := by
  unfold literalInteger
  split <;> rfl

theorem readRadixInteger_shift (radix : Radix) (cs : List Char) :
    readRadixInteger (position + distance) radix cs =
      (readRadixInteger position radix cs).mapError (LexicalError.shift distance) := by
  unfold readRadixInteger
  dsimp only
  split
  · rfl
  · rw [literalInteger_shift, Result.mapError_bind]
    rfl

theorem readDecimal_shift (cs : List Char) :
    readDecimal (position + distance) cs =
      (readDecimal position cs).mapError (LexicalError.shift distance) := by
  unfold readDecimal
  dsimp only
  split
  · split <;> rfl
  · simp only [convertDigits_none, bind, Except.bind]
    rw [literalInteger_shift]
    cases literalInteger position (Numeral.read 10 (cs.takeWhile Char.isDigit)) <;> rfl

theorem readMagnitude_shift (cs : List Char) :
    readMagnitude (position + distance) cs =
      (readMagnitude position cs).mapError (LexicalError.shift distance) := by
  unfold readMagnitude
  split
  · exact readRadixInteger_shift position distance _ cs
  · exact readDecimal_shift position distance cs

theorem readSuffix_shift (number : Number) (cs : List Char) :
    readSuffix (position + distance) number cs =
      (readSuffix position number cs).mapError (LexicalError.shift distance) := by
  unfold readSuffix
  dsimp only
  split
  · rfl
  · split <;> rfl

theorem readNumber_shift (cs : List Char) :
    readNumber (position + distance) cs =
      (readNumber position cs).mapError (LexicalError.shift distance) := by
  unfold readNumber
  rw [readMagnitude_shift, Result.mapError_bind]
  congr 1
  funext ⟨number, digits⟩
  dsimp only
  rw [Nat.add_right_comm, readSuffix_shift, Result.mapError_bind]
  congr 1
  funext ⟨value, suffix⟩
  dsimp only
  split
  · split
    · rw [Nat.add_right_comm]
      rfl
    · rfl
  · rfl

theorem readHistory_shift (cs : List Char) :
    readHistory (position + distance) cs =
      (readHistory position cs).mapError (LexicalError.shift distance) := by
  unfold readHistory
  dsimp only
  split
  · rfl
  split
  · rfl
  split
  · split
    · rw [Nat.add_right_comm position]
      rfl
    · rfl
  · rfl

theorem refuse_shift (c : Char) :
    refuse (position + distance) c = (refuse position c).shift distance := by
  unfold refuse LexicalError.shift
  split <;> rfl

/-- **A token is read alike wherever it stands.** -/
theorem readOne_shift (cs : List Char) :
    readOne (position + distance) cs =
      (readOne position cs).mapError (LexicalError.shift distance) := by
  cases cs with
  | nil => rfl
  | cons c rest =>
    unfold readOne
    dsimp only
    rw [readNumber_shift, readHistory_shift, refuse_shift]
    split
    · rfl
    split
    · rfl
    split
    · rfl
    split
    · rfl
    split
    · rfl
    split
    · rfl
    split <;> rfl

/-- **A text is scanned alike wherever it stands.** -/
theorem scanFrom_shift (skip : Nat) (cs : List Char) :
    scanFrom (position + distance) skip cs = (scanFrom position skip cs).shift distance := by
  fun_induction scanFrom position skip cs with
  | case1 position skip => rfl
  | case2 position c rest skip ih => rw [scanFrom, ← ih, Nat.add_right_comm]
  | case3 position c rest hblank ih => rw [scanFrom, if_pos hblank, ← ih, Nat.add_right_comm]
  | case4 position c rest hblank error herror =>
    rw [scanFrom, if_neg hblank, readOne_shift, herror]
    rfl
  | case5 position c rest hblank lexeme hlexeme more ih =>
    rw [scanFrom, if_neg hblank, readOne_shift, hlexeme]
    dsimp only [Except.mapError]
    rw [Nat.add_right_comm, ih]
    rfl

/-- A text in the middle of another is scanned as it is alone, but for its places. -/
theorem scanFrom_eq_shift (cs : List Char) :
    scanFrom position 0 cs = (scanFrom 0 0 cs).shift position := by
  rw [← scanFrom_shift, Nat.zero_add]

end

end Token

end TypedCalc
