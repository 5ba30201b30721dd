import TypedCalc.Calculator
import TypedCalc.Format
import TypedCalc.Proofs.Evaluation.Chain
import TypedCalc.Proofs.Expr.RoundTrip
import TypedCalc.Proofs.Value.Wrap

/-!
# Renderings of integers read back

An integer is shown in decimal, and its bit pattern in three bases.  A literal is unsigned and has
no type of its own, so a rendering alone is not the integer again; but cast to the type of the
integer it is, whatever the width and the sign.

* `Expr.exists_renders`: a rendering is a literal, perhaps with a minus sign in front, whose value
  is wrapped to the integer.
* `Calculator.evaluate_rendering`: the cast of a rendering to the type of the integer.
-/

namespace TypedCalc

namespace Expr

/-! ## Trees up to positions -/

theorem erase_eq_literal {e : Expr} {v : Value} (h : e.erase = .literal 0 v) :
    ∃ position, e = .literal position v := by
  cases e <;> rw [erase] at h <;> cases h
  exact ⟨_, rfl⟩

theorem erase_eq_unary {e operand : Expr} {op : PrefixOperator}
    (h : e.erase = .unary 0 op operand) :
    ∃ position inner, e = .unary position op inner ∧ inner.erase = operand := by
  cases e <;> rw [erase] at h <;> cases h
  exact ⟨_, _, rfl, rfl⟩

theorem erase_eq_call {e : Expr} {name : String} {arguments : List Expr}
    (h : e.erase = .call 0 name arguments) :
    ∃ position inner, e = .call position name inner ∧ eraseAll inner = arguments := by
  cases e <;> rw [erase] at h <;> cases h
  exact ⟨_, _, rfl, rfl⟩

theorem eraseAll_eq_singleton {arguments : List Expr} {e : Expr} (h : eraseAll arguments = [e]) :
    ∃ argument, arguments = [argument] ∧ argument.erase = e := by
  rcases arguments with - | ⟨first, - | ⟨second, rest⟩⟩ <;> simp only [eraseAll] at h <;> cases h
  exact ⟨first, rfl, rfl⟩

/-! ## Operands -/

/-- Whether a text is scanned as an operand with at most one operator, which has an integer as its
value wherever it stands. -/
def Renders (cs : List Char) (n : FixedInt) : Prop :=
  ∃ e : Expr, Scans cs e ∧ e.height ≤ 1 ∧ ∀ e' : Expr, e'.erase = e.erase →
    ∀ env limit (depth : Nat), ¬ limit < ((depth + 1 : Nat) : Int) →
      e'.evaluateAt env limit depth = .ok ⟨.integer n, none⟩

theorem renders_number {word : List Char} {n : FixedInt}
    (h : Token.IsNumber word ⟨.integer n, none⟩) : Renders word n := by
  refine ⟨.literal 0 ⟨.integer n, none⟩, scans_number 0 h nofun, by rw [height]; decide, ?_⟩
  intro e' herase env limit depth hdepth
  obtain ⟨position, rfl⟩ := erase_eq_literal (herase.trans (by rw [erase]))
  rw [evaluateAt_literal env (by omega)]

/-- A minus sign in front reads a number as signed. -/
theorem renders_negative {word : List Char} {n : FixedInt}
    (h : Token.IsNumber word ⟨.integer n, none⟩) :
    Renders ('-' :: word) (.ofInt n.type.toSigned (-n.value)) := by
  have hstart := Token.startsWord_of_continuesNumber h.ne_nil h.continuesNumber
  have hscans : Scans word (.literal 0 ⟨.integer n, none⟩) := scans_number 0 h nofun
  refine ⟨.unary 0 .negate (.literal 0 ⟨.integer n, none⟩), hscans.unary 0 .negate hstart,
    by rw [height, height], ?_⟩
  intro e' herase env limit depth hdepth
  obtain ⟨position, inner, rfl, hinner⟩ := erase_eq_unary (herase.trans (by rw [erase, erase]))
  obtain ⟨position', rfl⟩ := erase_eq_literal hinner
  rw [evaluateAt_unary env (by omega), evaluateAt_literal env hdepth]
  rfl

/-- **A rendering of an integer** is the text of an integer that is wrapped to it. -/
theorem exists_renders {n : FixedInt} {rendering : String} (h : rendering ∈ n.renderings) :
    ∃ m, Renders rendering.toList m ∧ FixedInt.ofInt n.type m.value = n := by
  have hbits (radix : Radix) : ∃ m,
      Renders (String.ofList ('0' :: radix.letter :: Numeral.write radix.base n.bits)).toList m ∧
        FixedInt.ofInt n.type m.value = n := by
    have hfits := n.bits_le_maximum
    rw [String.toList_ofList]
    refine ⟨_, renders_number (.plain (Token.isMagnitude_write_radix radix hfits)), ?_⟩
    rw [FixedInt.value_ofInt_literalType hfits, n.ofInt_bits]
  simp only [FixedInt.renderings, List.mem_cons, List.not_mem_nil, or_false] at h
  rcases h with rfl | rfl | rfl | rfl
  · have hfits := n.natAbs_le_maximum
    have hword := Token.IsNumber.plain (Token.isMagnitude_write hfits)
    rw [String.toList_ofList, Numeral.ofInt]
    split
    · rename_i hneg
      refine ⟨_, renders_negative hword, ?_⟩
      rw [FixedInt.value_ofInt_literalType hfits, FixedInt.type_ofInt,
        FixedInt.value_ofInt_neg_natAbs hneg, n.ofInt_value]
    · rename_i hnonneg
      refine ⟨_, renders_number hword, ?_⟩
      have hvalue : (n.value.natAbs : Int) = n.value := Int.natAbs_of_nonneg (Int.not_lt.mp hnonneg)
      rw [FixedInt.value_ofInt_literalType hfits, hvalue, n.ofInt_value]
  · exact hbits .hexadecimal
  · exact hbits .octal
  · exact hbits .binary

/-! ## Casts -/

theorem isIdentifier_name (type : IntegerType) : IsIdentifier type.name := by
  cases type <;> exact ⟨⟨_, rfl, rfl⟩, List.all_eq_true.mp rfl⟩

/-- A type is found as its cast. -/
theorem function?_name (library : MathLibrary) (type : IntegerType) :
    (Registry.standardWith library).function? type.name =
      some (Builtin.castFunction (.integer type)) := by
  cases type <;> rfl

/-- A cast to an integer type wraps an integer. -/
theorem evaluateAt_cast {history : History} {library : MathLibrary} {limit : Int} (depth : Nat)
    (hdepth : ¬ limit < depth) (position : Nat) (type : IntegerType) {argument : Expr}
    {n : FixedInt}
    (h : argument.evaluateAt ⟨history, .standardWith library⟩ limit (depth + 1) =
      .ok ⟨.integer n, none⟩) :
    (Expr.call position type.name [argument]).evaluateAt ⟨history, .standardWith library⟩ limit
      depth = .ok ⟨.integer (.ofInt type n.value), none⟩ := by
  rw [evaluateAt_call _ hdepth, evaluateAllAt_cons, evaluateAllAt_nil, h]
  simp only [Environment.resolveFunction, function?_name]
  rfl

end Expr

/-- **Every rendering of an integer reads back.**  The cast of a rendering to the type of the
integer is the integer, whatever the earlier results are. -/
theorem Calculator.evaluate_rendering (library : MathLibrary) (history : History)
    {nestingLimit evaluationLimit : Int} (hnesting : 2 ≤ nestingLimit)
    (hevaluation : 2 ≤ evaluationLimit) (n : FixedInt) :
    let calculator : Calculator :=
      ⟨history, .standardWith library, nestingLimit, evaluationLimit⟩
    ∀ rendering ∈ n.renderings,
      calculator.evaluate (n.type.name ++ "(" ++ rendering ++ ")") =
        .ok (⟨.integer n, none⟩,
          { calculator with history := history.push ⟨.integer n, none⟩ }) := by
  intro calculator rendering hrendering
  obtain ⟨m, ⟨e, hscans, hheight, hvalue⟩, hm⟩ := Expr.exists_renders hrendering
  have htext : (n.type.name ++ "(" ++ rendering ++ ")").toList =
      n.type.name.toList ++ '(' :: (rendering.toList ++ [')']) := by
    simp
  have hcall := hscans.scansArguments.call 0 (Expr.isIdentifier_name n.type)
  rw [← htext] at hcall
  -- parsing leaves the positions of the nodes open, so the tree is named by its shape
  have hlimit : ((Expr.call 0 n.type.name [e]).height : Int) ≤ nestingLimit := by
    rw [Expr.height, Expr.heightAll, Expr.heightAll]
    omega
  obtain ⟨e', hparse, herase⟩ := Calculator.parse_of_scans hcall hlimit
  rw [Expr.erase, Expr.eraseAll, Expr.eraseAll] at herase
  obtain ⟨position, arguments, rfl, harguments⟩ := Expr.erase_eq_call herase
  obtain ⟨argument, rfl, hargument⟩ := Expr.eraseAll_eq_singleton harguments
  have hinner := hvalue argument hargument ⟨history, .standardWith library⟩ evaluationLimit 1
    (by omega)
  have hcast := Expr.evaluateAt_cast 0 (by omega) position n.type hinner
  rw [hm] at hcast
  have hresult : calculator.value (n.type.name ++ "(" ++ rendering ++ ")") =
      .ok ⟨.integer n, none⟩ := by
    rw [Calculator.value, hparse]
    show (Expr.evaluate _ _ _).mapError _ = _
    rw [Expr.evaluate_eq_evaluateAt, hcast]
    rfl
  rw [Calculator.evaluate, hresult]
  rfl

/-- The smallest number of 64 bits is read back from each of its four texts, although its magnitude
is no signed number. -/
theorem Calculator.evaluate_rendering_minimum :
    2 ≤ Expr.defaultLimit ∧ 2 ≤ Expr.defaultEvaluationLimit ∧
      (FixedInt.ofInt .i64 (-2 ^ 63)).renderings =
        ["-9223372036854775808", "0x8000000000000000", "0o1000000000000000000000",
          "0b1000000000000000000000000000000000000000000000000000000000000000"] ∧
      ∀ text ∈ (FixedInt.ofInt .i64 (-2 ^ 63)).renderings,
        ∃ next, (Calculator.mk (.empty 1 Nat.one_pos) (.standardWith .platform) Expr.defaultLimit
          Expr.defaultEvaluationLimit).evaluate ("i64" ++ "(" ++ text ++ ")") =
            .ok (.integer .i64 (-2 ^ 63), next) := by
  refine ⟨by decide, by decide, by decide, fun text hmem => ?_⟩
  exact ⟨_, evaluate_rendering .platform (.empty 1 Nat.one_pos) (by decide) (by decide)
    (FixedInt.ofInt .i64 (-2 ^ 63)) text hmem⟩

end TypedCalc
