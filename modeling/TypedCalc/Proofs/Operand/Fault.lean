import TypedCalc.Operand.Apply
import TypedCalc.Proofs.Result

/-!
# What operators can refuse

An operator of a tree is one that there is, so no operation on values ends with the fault that there
is no such operator.

* `Operand.failsOnly_applyPrefix` and `Operand.failsOnly_applyInfix`: the faults of operators.
* `OperandFault.errorClass_report`: how any fault is classed.
-/

namespace TypedCalc

open Result

/-- Whether a fault is about operands and not about an operator that there is none of. -/
def OperandFault.AboutOperands (fault : OperandFault) : Prop :=
  (∀ symbol, fault ≠ .unknownPrefixOperator symbol) ∧
    ∀ symbol, fault ≠ .unknownInfixOperator symbol

theorem OperandFault.errorClass_report (fault : OperandFault) :
    fault.report.errorClass = .typing ∨ fault.report.errorClass.isEvaluation = true := by
  cases fault with
  | incompatibleUnits | unitMismatch | integerRequired => exact .inl rfl
  | _ => exact .inr rfl

theorem OperandFault.position_report (fault : OperandFault) : fault.report.position = none := by
  cases fault <;> rfl

theorem Value.failsOnly_convertTo (v : Value) (unit : Measure) :
    FailsOnly OperandFault.AboutOperands (v.convertTo unit) := by
  unfold Value.convertTo
  split
  · exact .ok _
  split
  · exact .ok _
  split
  · split
    · exact .ok _
    · exact .ok _
  · exact .ok _
  · exact .error ⟨nofun, nofun⟩

namespace Operand

theorem failsOnly_coerce (symbol : String) (left right : Value) :
    FailsOnly OperandFault.AboutOperands (coerce symbol left right) := by
  unfold coerce
  split
  · split
    · exact (right.failsOnly_convertTo _).map _
    · exact .error ⟨nofun, nofun⟩
  · exact .ok _

theorem failsOnly_requireInteger (symbol : String) (v : Value) :
    FailsOnly OperandFault.AboutOperands (requireInteger symbol v) := by
  unfold requireInteger
  split
  · exact .ok _
  · exact .error ⟨nofun, nofun⟩

theorem failsOnly_integerArithmetic (op : ArithmeticOperator) (a b : FixedInt) :
    FailsOnly OperandFault.AboutOperands (integerArithmetic op a b) := by
  cases op with
  | add | subtract | multiply => exact .ok _
  | divide | remainder =>
    unfold integerArithmetic
    dsimp only
    split
    · exact .error ⟨nofun, nofun⟩
    · exact .ok _

theorem failsOnly_arithmetic (op : ArithmeticOperator) (a b : Number) :
    FailsOnly OperandFault.AboutOperands (arithmetic op a b) := by
  unfold arithmetic
  split
  · exact (failsOnly_integerArithmetic _ _ _).map _
  · exact .ok _

theorem failsOnly_bitwise (op : BitwiseOperator) (a b : FixedInt) :
    FailsOnly OperandFault.AboutOperands (bitwise op a b) := by
  cases op with
  | and | or | xor => exact .ok _
  | shiftLeft | shiftRight =>
    unfold bitwise
    dsimp only
    split
    · exact .error ⟨nofun, nofun⟩
    · exact .ok _

theorem failsOnly_applyPrefix (op : PrefixOperator) (v : Value) :
    FailsOnly OperandFault.AboutOperands (applyPrefix op v) := by
  cases op with
  | negate | identity => exact .ok _
  | complement | not => exact (failsOnly_requireInteger _ _).map _

theorem failsOnly_applyCoerced (op : InfixOperator) (left right : Value) :
    FailsOnly OperandFault.AboutOperands (applyCoerced op left right) := by
  cases op with
  | comparison op => exact .ok _
  | logical op => exact .bind (failsOnly_requireInteger _ _) fun _ _ => .ok _
  | bitwise op =>
    refine .bind (failsOnly_requireInteger _ _) fun a _ => ?_
    refine .bind (failsOnly_requireInteger _ _) fun b _ => ?_
    exact .bind (failsOnly_bitwise _ a b) fun _ _ => .ok _
  | arithmetic op => exact .bind (failsOnly_arithmetic _ _ _) fun _ _ => .ok _

/-- **An infix operator** refuses operands for what they are. -/
theorem failsOnly_applyInfix (op : InfixOperator) (left right : Value) :
    FailsOnly OperandFault.AboutOperands (applyInfix op left right) := by
  unfold applyInfix
  exact .bind (failsOnly_coerce _ _ _) fun _ _ => failsOnly_applyCoerced _ _ _

end Operand

end TypedCalc
