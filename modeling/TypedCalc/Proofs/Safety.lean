import TypedCalc.Calculator
import TypedCalc.Proofs.Evaluation.Fault
import TypedCalc.Proofs.Token.Scan

/-!
# Safety of the calculator

Whatever the text, the history and the limits are, a calculator gives a value or an error of one of
the documented classes, and the error says where in the text it happened.  No error is about a
defect of the calculator itself.

* `CalculatorError.Regular`: what an error has to be like.
* `Calculator.evaluate_safe`: every error of a calculator is like that.
-/

namespace TypedCalc

open Result

/-! ## Errors -/

/-- Whether an error is about a defect of the calculator: a suffix that it took for one and that no
unit has, a parenthesis that it lost track of, a function that broke or an operator that it does not
know. -/
def CalculatorError.IsInternal : CalculatorError → Prop
  | .lexical error => ∃ suffix, error.fault = .unknownSuffix suffix
  | .grammar error => error.fault = .noOpenParen
  | .evaluation error =>
    (∃ name text, error.fault = .brokenFunction name text) ∨
      ∃ symbol, error.fault = .operand (.unknownPrefixOperator symbol) ∨
        error.fault = .operand (.unknownInfixOperator symbol)

/-- Whether a token of a text starts at a position; the end of the text is a token there. -/
def StartsToken (text : String) (position : Nat) : Prop :=
  ∃ tokens, Token.ofText? text = .ok tokens ∧
    ∃ token ∈ tokens, token.position = position ∧ token.StandsBefore text.length

/-- Whether an error stands where it should: a lexical error at a character of the text, the error
about an empty expression at its start and any other at the start of a token. -/
def CalculatorError.HasPlace (text : String) : CalculatorError → Prop
  | .lexical error => error.position < text.length
  | .grammar error =>
    if error.fault = .emptyExpression then error.position = 0
    else StartsToken text error.position
  | .evaluation error => StartsToken text error.position

/-- The position of an error. -/
def CalculatorError.position : CalculatorError → Nat
  | .lexical error => error.position
  | .grammar error => error.position
  | .evaluation error => error.position

/-- Whether the errors of a stage can have a class. -/
def CalculatorError.HasClass : CalculatorError → ErrorClass → Prop
  | .lexical _, errorClass => errorClass = .lexical
  | .grammar _, errorClass => errorClass = .grammar
  | .evaluation _, errorClass => errorClass = .typing ∨ errorClass.isEvaluation = true

/-- Whether an error is one that a text can be to blame for, and is reported with its place and with
a class of its stage. -/
structure CalculatorError.Regular (text : String) (error : CalculatorError) : Prop where
  not_internal : ¬ error.IsInternal
  place : error.HasPlace text
  reported (wording : LimitWording) : (error.report wording).position = some error.position
  classed (wording : LimitWording) : error.HasClass (error.report wording).errorClass

theorem Report.position_atPosition {report : Report} (h : report.position = none) (p : Int) :
    (report.atPosition p).position = some p := by
  unfold Report.atPosition
  rw [h]
  rfl

namespace CalculatorError

variable {text : String}

theorem regular_lexical {error : LexicalError} (hposition : error.position < text.length)
    (hfault : ∀ suffix, error.fault ≠ .unknownSuffix suffix)
    (hconversion : error.fault.isConversion = false) : Regular text (.lexical error) where
  not_internal := fun ⟨suffix, h⟩ => hfault suffix h
  place := hposition
  reported _ := by
    rw [CalculatorError.report, LexicalError.report_of_not_isConversion hconversion]
    exact Report.position_atPosition error.fault.position_report _
  classed _ := error.errorClass_report.trans (LexicalFault.errorClass_report hconversion)

theorem regular_grammar {error : GrammarError} (hplace : HasPlace text (.grammar error))
    (hfault : error.fault ≠ .noOpenParen) : Regular text (.grammar error) where
  not_internal := hfault
  place := hplace
  reported wording := Report.position_atPosition (error.fault.position_report wording) _
  classed wording := GrammarFault.errorClass_report hfault wording

theorem regular_evaluation {error : EvaluationError} (hplace : StartsToken text error.position)
    (hfault : error.fault.AboutExpression) : Regular text (.evaluation error) where
  not_internal := by
    rintro (⟨name, broken, h⟩ | ⟨symbol, h | h⟩)
    · exact hfault.1 name broken h
    · exact (hfault.2 _ h).1 symbol rfl
    · exact (hfault.2 _ h).2 symbol rfl
  place := hplace
  reported wording := Report.position_atPosition (error.fault.position_report wording) _
  classed wording := error.fault.errorClass_report wording

end CalculatorError

/-! ## Stages -/

namespace Calculator

/-- The tokens of a text stand in it, and one of them is its end. -/
theorem startsToken_of_ofText? {text : String} {tokens : List Token}
    (h : Token.ofText? text = .ok tokens) :
    (∀ token ∈ tokens, StartsToken text token.position) ∧ StartsToken text text.length := by
  rcases Token.ofText?_spec text with ⟨error, herror, -⟩ | ⟨found, hfound, hall, last, hmem, hlast⟩
  · exact nomatch h.symm.trans herror
  · obtain rfl : tokens = found := Except.ok.inj (h.symm.trans hfound)
    exact ⟨fun token hmem => ⟨tokens, h, token, hmem, rfl, hall token hmem⟩,
      ⟨tokens, h, last, hmem, hlast.2, .inr hlast⟩⟩

theorem failsOnly_ofText? (text : String) :
    FailsOnly (fun error => CalculatorError.Regular text (.lexical error))
      (Token.ofText? text) := by
  rcases Token.ofText?_spec text with ⟨error, herror, hlt, hfault, hown⟩ | ⟨tokens, htokens, -⟩
  · rw [herror]
    exact .error (CalculatorError.regular_lexical hlt hfault hown)
  · rw [htokens]
    exact .ok _

theorem failsOnly_ofTokens? {text : String} {tokens : List Token}
    (h : Token.ofText? text = .ok tokens) (limit : Int) :
    FailsOnly (fun error => CalculatorError.Regular text (.grammar error))
      (Expr.ofTokens? tokens text.toList limit) := by
  obtain ⟨hstarts, hend⟩ := startsToken_of_ofText? h
  intro error herror
  rcases Expr.blames_of_ofTokens?_eq_error herror with rfl | ⟨hopen, hempty, hposition⟩
  · exact CalculatorError.regular_grammar rfl nofun
  · refine CalculatorError.regular_grammar ?_ hopen
    show if error.fault = .emptyExpression then error.position = 0
      else StartsToken text error.position
    rw [if_neg hempty]
    rcases hposition with ⟨token, hmem, hposition⟩ | hposition
    · rw [← hposition]
      exact hstarts token hmem
    · rw [hposition, String.length_toList]
      exact hend

theorem ofTokens?_of_parse {text : String} {limit : Int} {e : Expr}
    (h : parse limit text = .ok e) :
    ∃ tokens, Token.ofText? text = .ok tokens ∧
      Expr.ofTokens? tokens text.toList limit = .ok e := by
  obtain ⟨tokens, htokens, h⟩ := bind_eq_ok_iff.mp h
  exact ⟨tokens, mapError_eq_ok_iff.mp htokens, mapError_eq_ok_iff.mp h⟩

/-- The nodes of the tree of a text stand at its tokens. -/
theorem startsToken_of_parse {text : String} {limit : Int} {e : Expr}
    (h : parse limit text = .ok e) : ∀ position ∈ e.positions, StartsToken text position := by
  obtain ⟨tokens, htokens, hparsed⟩ := ofTokens?_of_parse h
  intro position hmem
  have hplace := Expr.positions_subset_of_ofTokens? hparsed hmem
  obtain ⟨token, htoken, rfl⟩ := List.mem_map.mp hplace
  exact (startsToken_of_ofText? htokens).1 token htoken

theorem failsOnly_parse (text : String) (limit : Int) :
    FailsOnly (CalculatorError.Regular text) (parse limit text) := by
  unfold parse
  refine .bind (.mapError (failsOnly_ofText? text)) fun tokens htokens => ?_
  exact .mapError (failsOnly_ofTokens? (mapError_eq_ok_iff.mp htokens) limit)

theorem failsOnly_value {calculator : Calculator} (h : calculator.registry.Sound) (text : String) :
    FailsOnly (CalculatorError.Regular text) (calculator.value text) := by
  unfold value
  refine .bind (failsOnly_parse text _) fun e hparse => .mapError ?_
  have hplaces := startsToken_of_parse hparse
  have hregistry : (⟨calculator.history, calculator.registry⟩ : Environment).registry.Sound := h
  rw [Expr.evaluate_eq_evaluateAt]
  exact (Expr.failsOnly_evaluateAt calculator.evaluationLimit hregistry 0 e).mono
    fun error herror => CalculatorError.regular_evaluation (hplaces _ herror.1) herror.2

/-- **The calculator is safe.**  With the built-in names, every text has a value or an error that
the text is to blame for, whatever the earlier results and the limits are.  The error is reported
with its place in the text and has one of the classes of its stage. -/
theorem evaluate_safe {library : MathLibrary} (h : library.Documented) (history : History)
    (nestingLimit evaluationLimit : Int) (text : String) :
    let calculator : Calculator :=
      ⟨history, .standardWith library, nestingLimit, evaluationLimit⟩
    (∃ result, calculator.evaluate text = .ok result) ∨
      ∃ error, calculator.evaluate text = .error error ∧ error.Regular text := by
  intro calculator
  have hsafe : FailsOnly (CalculatorError.Regular text) (calculator.evaluate text) :=
    .bind (failsOnly_value (Registry.sound_standardWith h) text) fun _ _ => .ok _
  cases hresult : calculator.evaluate text with
  | ok result => exact .inl ⟨result, rfl⟩
  | error error => exact .inr ⟨error, rfl, hsafe error hresult⟩

/-- A division by zero is reported at its operator. -/
theorem evaluate_safe_divide :
    MathLibrary.platform.Documented ∧
    ∃ error, Calculator.evaluate ⟨.empty 1 Nat.one_pos, .standard, 10, 20⟩ "1 / 0" = .error error ∧
      error.Regular "1 / 0" ∧ error.position = 2 := by
  refine ⟨MathLibrary.documented_platform, ?_⟩
  have hresult : ∃ dividend,
      Calculator.evaluate ⟨.empty 1 Nat.one_pos, .standard, 10, 20⟩ "1 / 0" =
        .error (.evaluation ⟨.operand (.divisionByZero dividend), 2⟩) :=
    ⟨_, by with_unfolding_all rfl⟩
  obtain ⟨dividend, hdivide⟩ := hresult
  rcases evaluate_safe MathLibrary.documented_platform (.empty 1 Nat.one_pos) 10 20 "1 / 0" with
    ⟨result, hok⟩ | ⟨error, herror, hregular⟩
  · exact nomatch hdivide.symm.trans hok
  · refine ⟨error, herror, hregular, ?_⟩
    obtain rfl := Except.error.inj (hdivide.symm.trans herror)
    rfl

end Calculator

end TypedCalc
