import TypedCalc.Proofs.Token.Word

/-!
# Words are read as the tokens they spell

A word is the text of a token.  Read from a text, it is taken as that token as long as what follows
does not go on with it: nothing, a space, a closing parenthesis or a comma (`EndsWord`).

* `Token.scansAs_word`: a word that is read as a token is the first token of a scan.
* `Token.isNumber_describe`: the text of a literal is a number that denotes the literal.
* `Token.readOne_history`, `Token.readOne_name`, `Token.readOne_prefixOperator`,
  `Token.readOne_infixOperator`: how the other words are read.
-/

namespace TypedCalc

namespace Token

/-! ## Scans -/

/-- A scan with tokens in front of it. -/
def Scan.prepend (tokens : List Token) (scan : Scan) : Scan :=
  ⟨tokens ++ scan.tokens, scan.failure⟩

theorem Scan.prepend_append (first second : List Token) (scan : Scan) :
    scan.prepend (first ++ second) = (scan.prepend second).prepend first := by
  simp only [prepend, List.append_assoc]

/-- Whether a text, from a position on and with another text after it, is scanned as tokens under a
limit of digits. -/
def ScansAs (position : Nat) (cs rest : List Char) (tokens : List Token)
    (limit : Option Nat := none) : Prop :=
  scanFrom position 0 (cs ++ rest) limit =
    (scanFrom (position + cs.length) 0 rest limit).prepend tokens

section

variable {limit : Option Nat}

theorem ScansAs.append {position : Nat} {first second rest : List Char} {tokens more : List Token}
    (h : ScansAs position first (second ++ rest) tokens limit)
    (h' : ScansAs (position + first.length) second rest more limit) :
    ScansAs position (first ++ second) rest (tokens ++ more) limit := by
  rw [ScansAs, List.append_assoc, h, h', ← Scan.prepend_append, List.length_append, Nat.add_assoc]

/-- A whole text falls into the tokens that it is scanned as and the end of the text. -/
theorem ofText?_of_scansAs {text : String} {tokens : List Token}
    (h : ScansAs 0 text.toList [] tokens limit) :
    ofText? text limit = .ok (tokens ++ [⟨.endOfInput, text.length, 0⟩]) := by
  have hscan : scan text limit = ⟨tokens ++ [⟨.endOfInput, text.length, 0⟩], none⟩ := by
    rw [ScansAs, List.append_nil, Nat.zero_add, String.length_toList] at h
    exact h
  rw [ofText?, hscan]

/-- A text that falls into tokens is scanned as them. -/
theorem scan_of_ofText? {text : String} {tokens : List Token} (h : ofText? text = .ok tokens) :
    scan text = ⟨tokens, none⟩ := by
  unfold ofText? at h
  dsimp only at h
  split at h
  · cases h
  · rename_i hdone
    cases h
    rw [← hdone]

/-- A blank separates. -/
theorem scansAs_blank (position : Nat) {c : Char} (h : Text.isBlank c = true) (rest : List Char) :
    ScansAs position [c] rest [] limit := by
  rw [ScansAs, List.singleton_append, scanFrom, if_pos h]
  rfl

theorem scanFrom_skip (position : Nat) {skip : Nat} {cs : List Char} (h : skip ≤ cs.length) :
    scanFrom position skip cs limit = scanFrom (position + skip) 0 (cs.drop skip) limit := by
  induction skip generalizing position cs with
  | zero => rfl
  | succ skip ih =>
    cases cs with
    | nil => exact absurd h (Nat.not_succ_le_zero skip)
    | cons c rest =>
      rw [scanFrom, ih (position + 1) (Nat.le_of_succ_le_succ h), List.drop_succ_cons,
        Nat.add_assoc, Nat.add_comm 1]

/-- **A word is the first token** of a text in which it is read as a token. -/
theorem scansAs_word {position : Nat} {word rest : List Char} {kind : TokenKind}
    (hne : word ≠ []) (hblank : ∀ c ∈ word.head?, Text.isBlank c = false)
    (h : readOne position (word ++ rest) limit = .ok ⟨kind, word.length⟩) :
    ScansAs position word rest [⟨kind, position, word.length⟩] limit := by
  obtain ⟨c, cs, rfl⟩ := List.exists_cons_of_ne_nil hne
  have hc : ¬ Text.isBlank c = true := by
    rw [hblank c rfl]
    exact Bool.false_ne_true
  rw [List.cons_append] at h
  rw [ScansAs, List.cons_append, scanFrom, if_neg hc, h]
  dsimp only
  have hlength : (c :: cs).length - 1 ≤ (cs ++ rest).length := by
    rw [List.length_cons, Nat.add_sub_cancel, List.length_append]
    exact Nat.le_add_right _ _
  have hposition : position + 1 + cs.length = position + (cs.length + 1) := by omega
  rw [scanFrom_skip _ hlength, List.length_cons, Nat.add_sub_cancel, List.drop_left, hposition]
  rfl

theorem scansAs_openParen (position : Nat) (rest : List Char) :
    ∃ token : Token, token.kind = .openParen ∧ ScansAs position ['('] rest [token] limit :=
  ⟨_, rfl, scansAs_word (List.cons_ne_nil _ []) (by rintro _ ⟨⟩; rfl) rfl⟩

theorem scansAs_closeParen (position : Nat) (rest : List Char) :
    ∃ token : Token, token.kind = .closeParen ∧ ScansAs position [')'] rest [token] limit :=
  ⟨_, rfl, scansAs_word (List.cons_ne_nil _ []) (by rintro _ ⟨⟩; rfl) rfl⟩

/-- A comma with a space after it. -/
theorem scansAs_comma (position : Nat) (rest : List Char) :
    ∃ token : Token, token.kind = .comma ∧ ScansAs position [',', ' '] rest [token] limit :=
  ⟨_, rfl, (scansAs_word (List.cons_ne_nil ',' []) (by rintro _ ⟨⟩; rfl) rfl).append
    (scansAs_blank (position + 1) (by decide) rest)⟩

end

/-! ## Numbers -/

/-- Whether what follows a word does not go on with it. -/
def EndsWord (rest : List Char) : Prop := ∀ c ∈ rest.head?, c = ' ' ∨ c = ')' ∨ c = ','

/-- The text of a unit after a number. -/
def suffixText (unit : Option Measure) : List Char := ((unit.map Measure.symbol).getD "").toList

/-- No unit changes the sort of number that it is put on: an integer has no temperature unit. -/
def KeepsNumber (number : Number) (unit : Option Measure) : Prop :=
  ∀ u ∈ unit, (Value.mk number none).attach u = ⟨number, some u⟩

theorem ofSuffix?_suffixText (unit : Measure) :
    Measure.ofSuffix? (String.ofList (suffixText (some unit))) = some unit := by
  cases unit with
  | size unit => cases unit <;> decide
  | temperature unit => cases unit <;> decide

/-- A number goes on with its digits at a digit or a point, and no unit starts with these. -/
theorem isNumber_append_suffixText {digits : List Char} {number : Number} {goesOn : Char → Bool}
    {unit : Option Measure} (h : IsMagnitude digits number goesOn)
    (hgoesOn : ∀ c, goesOn c = true → c.isDigit = true ∨ c = '.')
    (hkeeps : KeepsNumber number unit) : IsNumber (digits ++ suffixText unit) ⟨number, unit⟩ := by
  cases unit with
  | none =>
    have htext : suffixText none = [] := rfl
    rw [htext, List.append_nil]
    exact .plain h
  | some unit =>
    rw [← hkeeps unit rfl]
    refine .withUnit h (ofSuffix?_suffixText unit) fun c hc => Bool.eq_false_iff.mpr fun hgoes => ?_
    have hfirst : ∀ unit ∈ Measure.all, (suffixText (some unit)).head?.all fun c =>
        ¬ (c.isDigit = true ∨ c = '.') := by decide
    have hunit := hfirst unit unit.mem_all
    rw [Option.mem_def.mp hc] at hunit
    exact of_decide_eq_true hunit (hgoesOn c hgoes)

end Token

/-- Whether a value is a literal that is written without an exponent: an integer of the type of
literals, perhaps with a unit of size, or a finite double that is not negative. -/
inductive Value.IsPlainLiteral : Value → Prop
  | integer {n : FixedInt} {unit : Option Measure} (htype : n.type = FixedInt.literalType)
      (hunit : ∀ u ∈ unit, u.isSize = true) : IsPlainLiteral ⟨.integer n, unit⟩
  | float {units : Nat} {h : Binary64.Representable units} {unit : Option Measure}
      (hplain : 'e' ∉ Binary64.finiteText false units) :
      IsPlainLiteral ⟨.float (.finite false units h), unit⟩

namespace Token

theorem keepsNumber_float (x : Binary64) (unit : Option Measure) : KeepsNumber (.float x) unit := by
  intro u _
  cases u <;> rfl

theorem keepsNumber_integer {n : FixedInt} {unit : Option Measure}
    (h : ∀ u ∈ unit, u.isSize = true) : KeepsNumber (.integer n) unit := by
  intro u hu
  cases u with
  | size u => rfl
  | temperature u => exact absurd (h _ hu) Bool.false_ne_true

theorem toList_describe (v : Value) :
    v.describe.toList = v.number.describe.toList ++ suffixText v.unit := String.toList_append

theorem isMagnitude_write {number : Nat} (h : (number : Int) ≤ FixedInt.literalType.maximum) :
    IsMagnitude (Numeral.write 10 number) (.integer (.ofInt FixedInt.literalType number))
      (fun c => c.isDigit || c == '.') := by
  have hwhole := isWholeNumeral_write number
  have hread : Numeral.read 10 (Numeral.write 10 number) = number := Numeral.read_write number
  have hword := IsMagnitude.whole hwhole.isDigit hwhole.ne_nil (by rwa [hread])
  rwa [hread] at hword

/-- The digits of a radix with its prefix. -/
theorem isMagnitude_write_radix (radix : Radix) {number : Nat}
    (h : (number : Int) ≤ FixedInt.literalType.maximum) :
    IsMagnitude ('0' :: radix.letter :: Numeral.write radix.base number)
      (.integer (.ofInt FixedInt.literalType number)) (Numeral.isDigitOf radix.base) := by
  have hbase : 1 < radix.base ∧ radix.base ≤ 16 := by cases radix <;> decide
  have hread := Numeral.read_write_of_le hbase.1 hbase.2 number
  have hword := IsMagnitude.radix radix
    (fun _ => Numeral.isDigitOf_of_mem_write hbase.1 hbase.2) (Numeral.write_ne_nil _ number)
    (by rwa [hread])
  rwa [hread] at hword

/-- An integer of the type of literals has no sign. -/
theorem exists_describe_integer {n : FixedInt} (htype : n.type = FixedInt.literalType) :
    ∃ number : Nat, n.value = number ∧
      (Number.integer n).describe.toList = Numeral.write 10 number := by
  obtain ⟨number, hnumber⟩ : ∃ number : Nat, n.value = number := by
    have hlower := n.inRange.1
    rw [htype] at hlower
    exact Int.eq_ofNat_of_zero_le hlower
  have hsign : ¬ ((number : Int) < 0) := Int.not_lt.mpr (Int.natCast_nonneg number)
  refine ⟨number, hnumber, ?_⟩
  rw [Number.describe, String.toList_ofList, hnumber, Numeral.ofInt, if_neg hsign,
    Int.natAbs_natCast]

/-- The text of an integer of the type of literals. -/
theorem isMagnitude_describe_integer {n : FixedInt} (htype : n.type = FixedInt.literalType) :
    IsMagnitude (Number.integer n).describe.toList (.integer n)
      (fun c => c.isDigit || c == '.') := by
  obtain ⟨number, hnumber, htext⟩ := exists_describe_integer htype
  have hupper := n.inRange.2
  rw [htype, hnumber] at hupper
  have hvalue : FixedInt.ofInt FixedInt.literalType number = n := by
    rw [← htype, ← hnumber, n.ofInt_value]
  have hword := isMagnitude_write hupper
  rwa [hvalue, ← htext] at hword

/-- A finite double that is written without an exponent has a fraction. -/
theorem exists_describe_float {units : Nat} (h : Binary64.Representable units)
    (hplain : 'e' ∉ Binary64.finiteText false units) :
    ∃ whole fraction, (Number.float (.finite false units h)).describe.toList =
        whole ++ '.' :: fraction ∧ (∀ c ∈ whole, c.isDigit = true) ∧
      IsMagnitude (whole ++ '.' :: fraction) (.float (.finite false units h)) Char.isDigit := by
  have htext : (Number.float (.finite false units h)).describe.toList =
      Binary64.finiteText false units := String.toList_ofList
  rcases Binary64.finiteText_cases h with
    ⟨whole, fraction, hparts, hwhole, hfraction, hne, hvalue⟩ |
    ⟨first, fraction, exponent, hparts, -⟩
  · have hword := IsMagnitude.fraction hwhole.isDigit hfraction hne
    rw [hvalue] at hword
    exact ⟨whole, fraction, htext.trans hparts, hwhole.isDigit, hword⟩
  · refine absurd ?_ hplain
    rw [hparts]
    exact List.mem_append_right _ (List.mem_cons_self ..)

/-- **The text of a literal is a number**, and denotes that literal. -/
theorem isNumber_describe {v : Value} (h : v.IsPlainLiteral) : IsNumber v.describe.toList v := by
  rw [toList_describe]
  cases h with
  | integer htype hunit =>
    refine isNumber_append_suffixText (isMagnitude_describe_integer htype) (fun c hc => ?_)
      (keepsNumber_integer hunit)
    simpa using hc
  | @float units h unit hplain =>
    obtain ⟨whole, fraction, htext, -, hword⟩ := exists_describe_float h hplain
    rw [← htext] at hword
    exact isNumber_append_suffixText hword (fun c hc => .inl hc) (keepsNumber_float _ unit)

/-- What ends a word does not go on with a number. -/
theorem EndsWord.continuesNumber {rest : List Char} (h : EndsWord rest) :
    ∀ c ∈ rest.head?, continuesNumber c = false := by
  intro c hc
  rcases h c hc with rfl | rfl | rfl <;> decide

/-! ## Other words -/

/-- The text of a history reference is read as that reference. -/
theorem readOne_history (position index : Nat) {rest : List Char} (hrest : EndsWord rest) :
    readOne position ('$' :: Numeral.write 10 index ++ rest) =
      .ok ⟨.history index, ('$' :: Numeral.write 10 index).length⟩ := by
  have hword := IsWord.history (isWholeNumeral_write index)
  rw [Numeral.read_write] at hword
  refine hword.readOne (fun c hc => ?_) position
  rcases hrest c hc with rfl | rfl | rfl <;> decide

/-- A name is read as that name, if nothing goes on with it. -/
theorem readOne_name (position : Nat) {name : String} (h : IsIdentifier name) {rest : List Char}
    (hrest : ∀ c ∈ rest.head?, isNameChar c = false) :
    readOne position (name.toList ++ rest) = .ok ⟨.name name, name.toList.length⟩ :=
  (IsWord.name h).readOne hrest position

/-- The symbol of a prefix operator is read as such a symbol, unless an equals sign follows. -/
theorem readOne_prefixOperator (position : Nat) (op : PrefixOperator) {rest : List Char}
    (hrest : ∀ c ∈ rest.head?, c ≠ '=') :
    ∃ symbol, symbol.text = op.symbol ∧ readOne position (op.symbol.toList ++ rest) =
      .ok ⟨.operator symbol, op.symbol.toList.length⟩ := by
  cases op with
  | negate => exact ⟨.between (.arithmetic .subtract), rfl, rfl⟩
  | identity => exact ⟨.between (.arithmetic .add), rfl, rfl⟩
  | complement => exact ⟨.complement, rfl, rfl⟩
  | not =>
    refine ⟨.not, rfl, ?_⟩
    cases rest with
    | nil => rfl
    | cons c rest =>
      have hc : ('=' == c) = false := beq_eq_false_iff_ne.mpr (hrest c rfl).symm
      have hmatch : OperatorSymbol.match? ('!' :: c :: rest) = some (.not, 1) := by
        simp [OperatorSymbol.match?, OperatorSymbol.table, List.isPrefixOf, hc]
      show readOne position ('!' :: c :: rest) = _
      rw [readOne, hmatch]
      rfl

/-- The symbol of an infix operator is read as that symbol, if a space follows. -/
theorem readOne_infixOperator (position : Nat) (op : InfixOperator) (rest : List Char) :
    readOne position (op.symbol.toList ++ ' ' :: rest) =
      .ok ⟨.operator (.between op), op.symbol.toList.length⟩ := by
  cases op with
  | arithmetic op => cases op <;> rfl
  | bitwise op => cases op <;> rfl
  | comparison op => cases op <;> rfl
  | logical op => cases op <;> rfl

end Token

end TypedCalc
