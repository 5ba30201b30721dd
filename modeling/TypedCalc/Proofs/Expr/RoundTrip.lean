import TypedCalc.Calculator
import TypedCalc.Proofs.Expr.Spelling
import TypedCalc.Proofs.Expr.Stack
import TypedCalc.Proofs.Token.Conversion

/-!
# Printing and parsing are inverse

* `Expr.Printable.scans`: the text of a tree falls into tokens that spell the tree.
* `Calculator.parse_of_scans`: a text with such tokens is parsed as the tree, apart from positions,
  unless there is no room on the stack.
* `Calculator.parse_describe`: so is the text of a tree, on every interpreter.
-/

namespace TypedCalc

namespace Expr

/-! ## Trees without positions -/

mutual

/-- A tree with all positions set to zero. -/
def erase : Expr → Expr
  | .literal _ value => .literal 0 value
  | .history _ index => .history 0 index
  | .constant _ name => .constant 0 name
  | .unary _ op operand => .unary 0 op operand.erase
  | .binary _ op left right => .binary 0 op left.erase right.erase
  | .call _ name arguments => .call 0 name (eraseAll arguments)

/-- Trees with all positions set to zero. -/
def eraseAll : List Expr → List Expr
  | [] => []
  | argument :: rest => argument.erase :: eraseAll rest

end

mutual

theorem height_erase : (e : Expr) → e.erase.height = e.height
  | .literal .. | .history .. | .constant .. => by rw [erase, height, height]
  | .unary _ _ operand => by rw [erase, height, height, height_erase operand]
  | .binary _ _ left right => by
    rw [erase, height, height, height_erase left, height_erase right]
  | .call _ _ arguments => by rw [erase, height, height, heightAll_eraseAll arguments]

theorem heightAll_eraseAll : (arguments : List Expr) →
    heightAll (eraseAll arguments) = heightAll arguments
  | [] => rfl
  | argument :: rest => by
    rw [eraseAll, heightAll, heightAll, height_erase argument, heightAll_eraseAll rest]

end

mutual

/-- How many decimal digits the longest whole number in the text of a tree has. -/
def longestNumber : Expr → Nat
  | .literal _ value => Token.wholeDigits value.number
  | .history _ index => (Numeral.write 10 index).length
  | .constant .. => 0
  | .unary _ _ operand => operand.longestNumber
  | .binary _ _ left right => max left.longestNumber right.longestNumber
  | .call _ _ arguments => longestNumberAll arguments

/-- How many decimal digits the longest whole number in the texts of several trees has. -/
def longestNumberAll : List Expr → Nat
  | [] => 0
  | argument :: rest => max argument.longestNumber (longestNumberAll rest)

end

theorem longestNumber_le_longestNumberAll {arguments : List Expr} {argument : Expr}
    (h : argument ∈ arguments) : argument.longestNumber ≤ longestNumberAll arguments := by
  induction arguments with
  | nil => exact absurd h List.not_mem_nil
  | cons first rest ih =>
    rw [longestNumberAll]
    rcases List.mem_cons.mp h with rfl | hrest
    · exact Nat.le_max_left _ _
    · exact Nat.le_trans (ih hrest) (Nat.le_max_right _ _)

/-- Whether a tree is made of literals that are written without an exponent, references, names,
operators and calls. -/
inductive Printable : Expr → Prop
  | literal (position : Nat) {value : Value} (h : value.IsPlainLiteral) :
      Printable (.literal position value)
  | history (position index : Nat) : Printable (.history position index)
  | constant (position : Nat) {name : String} (h : IsIdentifier name) :
      Printable (.constant position name)
  | unary (position : Nat) (op : PrefixOperator) {operand : Expr} (h : Printable operand) :
      Printable (.unary position op operand)
  | binary (position : Nat) (op : InfixOperator) {left right : Expr} (hleft : Printable left)
      (hright : Printable right) : Printable (.binary position op left right)
  | call (position : Nat) {name : String} {arguments : List Expr} (h : IsIdentifier name)
      (harguments : ∀ argument ∈ arguments, Printable argument) :
      Printable (.call position name arguments)

end Expr

/-! ## How words start -/

namespace Token

/-- Whether a text starts with a character that is neither blank nor an equals sign. -/
def StartsWord (cs : List Char) : Prop :=
  ∃ c, cs.head? = some c ∧ Text.isBlank c = false ∧ c ≠ '='

theorem StartsWord.append {cs : List Char} (h : StartsWord cs) (rest : List Char) :
    StartsWord (cs ++ rest) := by
  obtain ⟨c, hc, hword⟩ := h
  refine ⟨c, ?_, hword⟩
  rw [List.head?_append, hc]
  rfl

theorem StartsWord.ne_nil {cs : List Char} (h : StartsWord cs) : cs ≠ [] := by
  rintro rfl
  obtain ⟨c, hc, -⟩ := h
  exact absurd hc.symm (Option.some_ne_none c)

theorem StartsWord.isBlank {cs : List Char} (h : StartsWord cs) :
    ∀ c ∈ cs.head?, Text.isBlank c = false := by
  obtain ⟨c, hc, hblank, -⟩ := h
  rw [hc]
  rintro _ ⟨⟩
  exact hblank

theorem StartsWord.ne_equals {cs : List Char} (h : StartsWord cs) : ∀ c ∈ cs.head?, c ≠ '=' := by
  obtain ⟨c, hc, -, hne⟩ := h
  rw [hc]
  rintro _ ⟨⟩
  exact hne

theorem startsWord_of_continuesNumber {cs : List Char} (hne : cs ≠ [])
    (h : ∀ c ∈ cs, continuesNumber c = true) : StartsWord cs := by
  obtain ⟨c, rest, rfl⟩ := List.exists_cons_of_ne_nil hne
  have hc := h c (List.mem_cons_self ..)
  exact ⟨c, rfl, isBlank_of_continuesNumber hc, by rintro rfl; exact absurd hc (by decide)⟩

theorem startsWord_of_isIdentifier {name : String} (h : IsIdentifier name) :
    StartsWord name.toList :=
  startsWord_of_continuesNumber (IsWord.name h).ne_nil fun c hc =>
    continuesNumber_of_isNameChar (h.all c hc)

/-- Whether a text starts with a character that is neither blank nor in front of digits to convert:
a digit or a dollar sign. -/
def StartsPlain (cs : List Char) : Prop :=
  ∃ c, cs.head? = some c ∧ Text.isBlank c = false ∧ c.isDigit = false ∧ c ≠ '$'

/-- A word that starts so is the first token under any limit of digits. -/
theorem StartsPlain.scansAs {position : Nat} {word rest : List Char} {kind : TokenKind}
    (h : StartsPlain word) (limit : Option Nat)
    (hread : readOne position (word ++ rest) = .ok ⟨kind, word.length⟩) :
    ScansAs position word rest [⟨kind, position, word.length⟩] limit := by
  obtain ⟨c, hc, hblank, hplain⟩ := h
  obtain ⟨cs, rfl⟩ := List.head?_eq_some_iff.mp hc
  have hhead : ∀ d ∈ (c :: cs ++ rest).head?, d.isDigit = false ∧ d ≠ '$' := by
    rintro _ ⟨⟩
    exact hplain
  exact scansAs_word (List.cons_ne_nil c cs) (by rintro _ ⟨⟩; exact hblank)
    (readOne_of_head limit hhead hread)

theorem startsPlain_of_isIdentifier {name : String} (h : IsIdentifier name) :
    StartsPlain name.toList := by
  obtain ⟨c, hc, hblank, -⟩ := startsWord_of_isIdentifier h
  obtain ⟨first, hfirst, hstart⟩ := h.start
  obtain rfl := Option.some.inj (hc.symm.trans hfirst)
  exact ⟨c, hc, hblank, isDigit_of_isNameStart hstart,
    by rintro rfl; exact absurd hstart (by decide)⟩

theorem startsPlain_prefixOperator (op : PrefixOperator) : StartsPlain op.symbol.toList := by
  cases op <;> exact ⟨_, rfl, by decide, by decide, by decide⟩

theorem startsPlain_infixOperator (op : InfixOperator) : StartsPlain op.symbol.toList := by
  cases op with
  | arithmetic op => cases op <;> exact ⟨_, rfl, by decide, by decide, by decide⟩
  | bitwise op => cases op <;> exact ⟨_, rfl, by decide, by decide, by decide⟩
  | comparison op => cases op <;> exact ⟨_, rfl, by decide, by decide, by decide⟩
  | logical op => cases op <;> exact ⟨_, rfl, by decide, by decide, by decide⟩

end Token

/-! ## The texts of trees -/

namespace Expr

open Token

theorem toList_describe_history (position index : Nat) :
    (Expr.history position index).describe.toList = '$' :: Numeral.write 10 index := by
  rw [describe, String.toList_append]
  exact congrArg ('$' :: ·) Nat.toList_repr

theorem toList_describe_unary (position : Nat) (op : PrefixOperator) (operand : Expr) :
    (Expr.unary position op operand).describe.toList =
      op.symbol.toList ++ operand.describe.toList := by
  rw [describe, String.toList_append]

theorem toList_describe_binary (position : Nat) (op : InfixOperator) (left right : Expr) :
    (Expr.binary position op left right).describe.toList =
      '(' :: (left.describe.toList ++ ' ' :: (op.symbol.toList ++ ' ' ::
        (right.describe.toList ++ [')']))) := by
  simp only [describe, String.toList_append, List.append_assoc]
  rfl

/-- The text of the arguments of a call. -/
def argumentsText (arguments : List Expr) : List Char :=
  List.intercalate [',', ' '] ((describeAll arguments).map String.toList)

theorem toList_describe_call (position : Nat) (name : String) (arguments : List Expr) :
    (Expr.call position name arguments).describe.toList =
      name.toList ++ '(' :: (argumentsText arguments ++ [')']) := by
  simp only [describe, String.toList_append, String.toList_intercalate, List.append_assoc]
  rfl

theorem argumentsText_cons_cons (first second : Expr) (rest : List Expr) :
    argumentsText (first :: second :: rest) =
      first.describe.toList ++ ',' :: ' ' :: argumentsText (second :: rest) := by
  simp only [argumentsText, describeAll, List.map_cons, List.intercalate_cons_cons,
    List.append_assoc]
  rfl

theorem argumentsText_singleton (argument : Expr) :
    argumentsText [argument] = argument.describe.toList := List.intercalate_singleton

/-- The text of a tree starts with a character that no operator goes on with. -/
theorem Printable.startsWord {e : Expr} (h : e.Printable) : StartsWord e.describe.toList := by
  cases h with
  | literal position h =>
    have hnumber := isNumber_describe h
    exact startsWord_of_continuesNumber hnumber.ne_nil hnumber.continuesNumber
  | history position index =>
    rw [toList_describe_history]
    exact ⟨'$', rfl, by decide, by decide⟩
  | constant position h => exact startsWord_of_isIdentifier h
  | unary position op h =>
    rw [toList_describe_unary]
    cases op <;> exact ⟨_, rfl, by decide, by decide⟩
  | binary position op hleft hright =>
    rw [toList_describe_binary]
    exact ⟨'(', rfl, by decide, by decide⟩
  | call position h harguments =>
    rw [toList_describe_call]
    exact (startsWord_of_isIdentifier h).append _

/-! ## Scanning the text of a tree -/

theorem endsWord_cons {c : Char} (h : c = ' ' ∨ c = ')' ∨ c = ',') (rest : List Char) :
    EndsWord (c :: rest) := by
  rintro _ ⟨⟩
  exact h

/-- Whether a text is scanned as tokens that spell a tree, whatever follows it, under a limit of
digits. -/
def Scans (cs : List Char) (e : Expr) (limit : Option Nat := none) : Prop :=
  ∀ position rest, EndsWord rest → ∃ tokens e', Spells tokens e' ∧ e'.erase = e.erase ∧
    ScansAs position cs rest tokens limit

/-- Whether a text is scanned as the arguments of a call up to a closing parenthesis, whatever
follows that. -/
def ScansArguments (cs : List Char) (arguments : List Expr) (limit : Option Nat := none) : Prop :=
  ∀ position rest, ∃ (spelled : List (List Token × Expr)) (joined : List Token),
    CommaSeparated (spelled.map (·.1)) joined ∧
      (∀ argument ∈ spelled, Spells argument.1 argument.2) ∧
    eraseAll (spelled.map (·.2)) = eraseAll arguments ∧
    ScansAs position cs (')' :: rest) joined limit

section

variable {limit : Option Nat}

theorem scans_of_readOne {cs : List Char} {e : Expr} {kind : TokenKind} (hword : StartsWord cs)
    (hread : ∀ position rest, EndsWord rest →
      readOne position (cs ++ rest) limit = .ok ⟨kind, cs.length⟩)
    (hspells : ∀ token : Token, token.kind = kind → ∃ e', Spells [token] e' ∧ e'.erase = e.erase) :
    Scans cs e limit := by
  intro position rest hrest
  obtain ⟨e', hspells, herase⟩ := hspells ⟨kind, position, cs.length⟩ rfl
  exact ⟨_, e', hspells, herase,
    scansAs_word hword.ne_nil hword.isBlank (hread position rest hrest)⟩

/-- A number is scanned as a literal if it has no more digits than the limit. -/
theorem scans_number (position : Nat) {word : List Char} {v : Value} (h : IsNumber word v)
    (hfits : ∀ bound ∈ limit, ∀ rest, EndsWord rest → FitsDigits bound (word ++ rest)) :
    Scans word (.literal position v) limit := by
  refine scans_of_readOne (startsWord_of_continuesNumber h.ne_nil h.continuesNumber)
    (fun start rest hrest => ?_) fun _ htoken => ⟨_, .literal htoken, by rw [erase, erase]⟩
  have hread := (IsWord.number h).readOne hrest.continuesNumber start
  exact readOne_of_fitsDigits (fun bound hbound => hfits bound hbound rest hrest) hread

theorem Scans.unary {cs : List Char} {operand : Expr} (position : Nat) (op : PrefixOperator)
    (hstart : StartsWord cs) (h : Scans cs operand limit) :
    Scans (op.symbol.toList ++ cs) (.unary position op operand) limit := by
  intro start rest hrest
  obtain ⟨symbol, hsymbol, hread⟩ := readOne_prefixOperator start op (hstart.append rest).ne_equals
  obtain ⟨tokens, e', hspells, herase, hscan⟩ := h (start + op.symbol.toList.length) rest hrest
  have hfirst := (startsPlain_prefixOperator op).scansAs limit hread
  have hoperator : Token.IsPrefix ⟨.operator symbol, start, op.symbol.toList.length⟩ op :=
    ⟨symbol, rfl, hsymbol⟩
  exact ⟨_, _, .unary hoperator hspells, by rw [erase, herase, erase], hfirst.append hscan⟩

/-- An infix operator with a space on either side. -/
theorem scansAs_infix (position : Nat) (op : InfixOperator) (rest : List Char) :
    ∃ token : Token, token.IsInfix op.level op ∧
      ScansAs position (' ' :: (op.symbol.toList ++ [' '])) rest [token] limit := by
  have hsymbol := (startsPlain_infixOperator op).scansAs limit
    (readOne_infixOperator (position + 1) op rest)
  have hafter := hsymbol.append (scansAs_blank (position + 1 + op.symbol.toList.length)
    (c := ' ') (by decide) rest)
  exact ⟨_, ⟨⟨_, rfl, rfl⟩, op.mem_levels_level⟩,
    (scansAs_blank position (by decide) _).append hafter⟩

theorem Scans.binary {left right : Expr} (position : Nat) (op : InfixOperator)
    (hleft : Scans left.describe.toList left limit)
    (hright : Scans right.describe.toList right limit) :
    Scans (Expr.binary position op left right).describe.toList
      (.binary position op left right) limit := by
  intro start rest hrest
  have hparts : (Expr.binary position op left right).describe.toList =
      ['('] ++ (left.describe.toList ++ (' ' :: (op.symbol.toList ++ [' ']) ++
        (right.describe.toList ++ [')']))) := by
    rw [toList_describe_binary]
    simp only [List.cons_append, List.append_assoc, List.nil_append]
  obtain ⟨opening, hopening, hopenscan⟩ := scansAs_openParen start
    (left.describe.toList ++ (' ' :: (op.symbol.toList ++ [' ']) ++
      (right.describe.toList ++ [')'])) ++ rest)
  obtain ⟨tokens, l, hl, hlerase, hlscan⟩ := hleft (start + 1)
    (' ' :: (op.symbol.toList ++ [' ']) ++ (right.describe.toList ++ [')']) ++ rest)
    (endsWord_cons (.inl rfl) _)
  obtain ⟨operator, hoperator, hopscan⟩ := scansAs_infix (start + 1 + left.describe.toList.length)
    op (right.describe.toList ++ [')'] ++ rest)
  obtain ⟨tokens', r, hr, hrerase, hrscan⟩ := hright
    (start + 1 + left.describe.toList.length + (' ' :: (op.symbol.toList ++ [' '])).length)
    ([')'] ++ rest) (endsWord_cons (.inr (.inl rfl)) _)
  obtain ⟨closing, hclosing, hclosescan⟩ := scansAs_closeParen
    (start + 1 + left.describe.toList.length + (' ' :: (op.symbol.toList ++ [' '])).length +
      right.describe.toList.length) rest
  have hscan := hopenscan.append (hlscan.append (hopscan.append (hrscan.append hclosescan)))
  have htokens : opening :: tokens ++ operator :: tokens' ++ [closing] =
      [opening] ++ (tokens ++ ([operator] ++ (tokens' ++ [closing]))) := by
    simp only [List.cons_append, List.append_assoc, List.nil_append]
  refine ⟨_, _, .binary hopening hclosing hoperator hl hr, by rw [erase, hlerase, hrerase, erase],
    ?_⟩
  rw [hparts, htokens]
  exact hscan

theorem scansArguments_nil : ScansArguments [] [] limit := fun _ _ =>
  ⟨[], [], .none, fun _ hmem => absurd hmem List.not_mem_nil, rfl, rfl⟩

/-- One argument needs no comma. -/
theorem Scans.scansArguments {cs : List Char} {e : Expr} (h : Scans cs e limit) :
    ScansArguments cs [e] limit := by
  intro position rest
  obtain ⟨tokens, e', hspells, herase, hscan⟩ :=
    h position (')' :: rest) (endsWord_cons (.inr (.inl rfl)) _)
  refine ⟨[(tokens, e')], tokens, .one tokens, List.forall_mem_singleton.mpr hspells, ?_, hscan⟩
  rw [List.map_singleton, eraseAll, eraseAll, herase]
  rfl

/-- The texts of arguments with commas between them. -/
theorem scansArguments_argumentsText {arguments : List Expr}
    (h : ∀ argument ∈ arguments, Scans argument.describe.toList argument limit) :
    ScansArguments (argumentsText arguments) arguments limit := by
  induction arguments with
  | nil => exact scansArguments_nil
  | cons first others ih =>
    obtain ⟨hfirst, hothers⟩ := List.forall_mem_cons.mp h
    cases others with
    | nil =>
      rw [argumentsText_singleton]
      exact hfirst.scansArguments
    | cons second others =>
      intro position rest
      obtain ⟨tokens, e, hspells, herase, hscan⟩ := hfirst position
        ([',', ' '] ++ argumentsText (second :: others) ++ ')' :: rest)
        (endsWord_cons (.inr (.inr rfl)) _)
      obtain ⟨comma, hcomma, hcommascan⟩ := scansAs_comma
        (position + first.describe.toList.length)
        (argumentsText (second :: others) ++ ')' :: rest)
      obtain ⟨spelled, joined, hjoined, hspelled, herased, hscan'⟩ :=
        ih hothers (position + first.describe.toList.length + 2) rest
      obtain ⟨next, more, rfl⟩ : ∃ next more, spelled = next :: more := by
        refine List.exists_cons_of_ne_nil ?_
        rintro rfl
        exact absurd herased.symm (List.cons_ne_nil _ _)
      refine ⟨(tokens, e) :: next :: more, tokens ++ comma :: joined, .more tokens hcomma hjoined,
        List.forall_mem_cons.mpr ⟨hspells, hspelled⟩, ?_, ?_⟩
      · rw [List.map_cons, eraseAll, eraseAll, herase, herased]
      · rw [argumentsText_cons_cons]
        exact hscan.append (hcommascan.append hscan')

/-- A name is the first token of a text if nothing goes on with it. -/
theorem scansAs_name (position : Nat) {name : String} (h : IsIdentifier name) {rest : List Char}
    (hrest : ∀ c ∈ rest.head?, isNameChar c = false) :
    ScansAs position name.toList rest [⟨.name name, position, name.toList.length⟩] limit :=
  (startsPlain_of_isIdentifier h).scansAs limit (readOne_name position h hrest)

/-- A name with arguments in parentheses is scanned as a call. -/
theorem ScansArguments.call {cs : List Char} {arguments : List Expr}
    (h : ScansArguments cs arguments limit) (position : Nat) {name : String}
    (hname : IsIdentifier name) :
    Scans (name.toList ++ '(' :: (cs ++ [')'])) (.call position name arguments) limit := by
  intro start rest hrest
  have hnamescan : ScansAs start name.toList (['('] ++ (cs ++ [')']) ++ rest)
      [⟨.name name, start, name.toList.length⟩] limit :=
    scansAs_name start hname (by rintro _ ⟨⟩; rfl)
  obtain ⟨opening, hopening, hopenscan⟩ := scansAs_openParen (start + name.toList.length)
    (cs ++ [')'] ++ rest)
  obtain ⟨closing, hclosing, hclosescan⟩ := scansAs_closeParen
    (start + name.toList.length + 1 + cs.length) rest
  obtain ⟨spelled, joined, hjoined, hspelled, herased, hinsidescan⟩ :=
    h (start + name.toList.length + 1) rest
  have hscan := hnamescan.append (hopenscan.append (hinsidescan.append hclosescan))
  have hspells : Spells (⟨.name name, start, name.toList.length⟩ :: opening :: joined ++ [closing])
      (.call start name (spelled.map (·.2))) := .call rfl hopening hclosing hjoined hspelled
  exact ⟨_, _, hspells, by rw [erase, herased, erase], hscan⟩

/-- **The text of a tree falls into tokens that spell the tree** under any limit that its numbers
do not exceed. -/
theorem Printable.scans {e : Expr} (h : e.Printable)
    (hdigits : ∀ bound ∈ limit, e.longestNumber ≤ bound) : Scans e.describe.toList e limit := by
  induction h with
  | literal position h =>
    exact scans_number position (isNumber_describe h) fun bound hbound _ hrest =>
      fitsDigits_describe h (hdigits bound hbound) hrest
  | history position index =>
    have hstart := (Printable.history position index).startsWord
    rw [toList_describe_history] at hstart ⊢
    refine scans_of_readOne hstart (fun _ rest hrest => ?_)
      fun token htoken => ⟨_, .history htoken, by rw [erase, erase]⟩
    have hfits bound hbound := fitsDigits_history (hdigits bound hbound) hrest
    exact readOne_of_fitsDigits hfits (readOne_history _ index hrest)
  | constant position h =>
    intro start rest hrest
    refine ⟨_, _, .constant rfl, by rw [erase, erase], scansAs_name start h fun c hc => ?_⟩
    rcases hrest c hc with rfl | rfl | rfl <;> rfl
  | unary position op h ih =>
    rw [toList_describe_unary]
    exact (ih hdigits).unary position op h.startsWord
  | binary position op _ _ ihleft ihright =>
    have hleft := ihleft fun bound hbound => (Nat.le_max_left ..).trans (hdigits bound hbound)
    have hright := ihright fun bound hbound => (Nat.le_max_right ..).trans (hdigits bound hbound)
    exact hleft.binary position op hright
  | call position h _ ih =>
    rw [toList_describe_call]
    refine (scansArguments_argumentsText fun argument hmem => ?_).call position h
    exact ih argument hmem fun bound hbound =>
      (longestNumber_le_longestNumberAll hmem).trans (hdigits bound hbound)

/-- A whole text falls into tokens that spell a tree and the end of the text. -/
theorem Scans.ofText? {text : String} {e : Expr} (h : Scans text.toList e limit) :
    ∃ tokens e' position, Spells tokens e' ∧ e'.erase = e.erase ∧
      Token.ofText? text limit = .ok (tokens ++ [⟨.endOfInput, position, 0⟩]) := by
  obtain ⟨tokens, e', hspells, herase, hscan⟩ := h 0 [] nofun
  exact ⟨tokens, e', _, hspells, herase, ofText?_of_scansAs hscan⟩

end

/-! ## Parsing the text of a tree -/

section

variable {tokens : List Token} {e : Expr} {last : Token}

/-- Tokens that spell a tree are a sentence with that tree. -/
theorem Spells.derives (h : Spells tokens e) : Derives 0 tokens e := by
  have hread : Run ⟨[], e.height⟩ .prefixed { rest := tokens } (.expr e { rest := [] }) :=
    h.reads (List.append_nil tokens).symm (fun _ hmem => absurd hmem (Option.not_mem_none _))
      (by dsimp only; omega)
  have hrun := hread.level_of_prefixed (Nat.zero_le _) fun other _ => rfl
  obtain ⟨taken, (htaken : tokens = taken ++ []), hderives⟩ := hrun.takes (Nat.zero_le _)
  rwa [htaken, List.append_nil]

/-- Tokens that spell a tree are parsed as that tree. -/
theorem Spells.ofTokens? (h : Spells tokens e) (hlast : last.kind = .endOfInput)
    (text : List Char) {limit : Int} (hlimit : (e.height : Int) ≤ limit) :
    Expr.ofTokens? (tokens ++ [last]) text limit = .ok e := by
  obtain ⟨token, more, htokens, -, -, hne⟩ := h.exists_head
  have hoperator (symbol : OperatorSymbol) : last.kind ≠ .operator symbol := by
    rw [hlast]
    nofun
  have hread : Run ⟨text, limit⟩ .prefixed { rest := tokens ++ [last] }
      (.expr e { rest := [last] }) :=
    h.reads rfl (by rintro _ ⟨⟩; rw [hlast]; nofun) (by dsimp only; omega)
  rw [ofTokens?_eq_ok_iff]
  refine ⟨?_, _, hread.level_of_prefixed (Nat.zero_le _) fun other _ =>
    infixOfLevel?_of_kind_ne hoperator other [], hlast⟩
  rw [htokens]
  exact hne

/-- Tokens that spell a tree fit on a stack with room for as many openers as the tree is high. -/
theorem Spells.tokensFitOn (h : Spells tokens e) (hlast : last.kind = .endOfInput) (limit : Int)
    {stack : Stack}
    (hstack : stack.Holds (callsPerOpener * (e.height + 1))) :
    TokensFitOn (tokens ++ [last]) limit stack := by
  have hparse := h.ofTokens? hlast [] (Int.le_refl e.height)
  exact ⟨e.height, .inr (around_lt_of_ofTokens? hlast h.derives.kind_ne_endOfInput hparse), hstack⟩

end

end Expr

namespace Calculator

/-- The tokens of a text are what is parsed. -/
theorem parse_of_ofText? {text : String} {tokens : List Token} {limit : Int}
    {interpreter : Interpreter} (h : Token.ofText? text interpreter.digits = .ok tokens) :
    parse limit text interpreter =
      (Expr.ofTokens? tokens text.toList limit interpreter.stack).mapError .grammar := by
  rw [parse, h]
  rfl

/-- A text with tokens that spell a tree is parsed as that tree, unless there is no room on the
stack for as many openers as the tree is high. -/
theorem parse_of_spells (interpreter : Interpreter) {text : String} {tokens : List Token} {e : Expr}
    {last : Token} (h : Expr.Spells tokens e) (hlast : last.kind = .endOfInput)
    (htokens : Token.ofText? text interpreter.digits = .ok (tokens ++ [last])) {limit : Int}
    (hlimit : (e.height : Int) ≤ limit) :
    parse limit text interpreter = .ok e ∨
      ¬ interpreter.stack.Holds (Expr.callsPerOpener * (e.height + 1)) ∧ ∃ position,
        parse limit text interpreter = .error (.grammar ⟨.stackExhausted limit, position⟩) := by
  have hcut := Expr.cut_ofTokens? (tokens ++ [last]) text.toList limit interpreter.stack
  rw [h.ofTokens? hlast _ hlimit] at hcut
  rw [parse_of_ofText? htokens]
  rcases hcut with heq | ⟨hfits, ⟨_, position⟩, herror, rfl⟩
  · left
    rw [heq]
    rfl
  · refine .inr ⟨fun hholds => hfits (h.tokensFitOn hlast limit hholds), position, ?_⟩
    rw [herror]
    rfl

/-- A text that is scanned as a tree is parsed as that tree, apart from the positions. -/
theorem parse_of_scans {text : String} {e : Expr} (h : Expr.Scans text.toList e) {limit : Int}
    (hlimit : (e.height : Int) ≤ limit) :
    ∃ e', parse limit text = .ok e' ∧ e'.erase = e.erase := by
  obtain ⟨tokens, e', position, hspells, herase, htokens⟩ := h.ofText?
  rw [← e.height_erase, ← herase, e'.height_erase] at hlimit
  have hparse := parse_of_spells {} hspells rfl htokens hlimit
  exact ⟨e', hparse.resolve_right fun hcut => hcut.1 (Stack.holds_unlimited _), herase⟩

/-- **Printing and parsing are inverse.**  The text of a tree made of literals that are written
without an exponent, references, names, operators and calls is parsed under any limit that the
height of the tree does not exceed, and gives the tree again, apart from the positions.  The
interpreter shows only where there is no room on its stack for as many openers as the tree is high,
or where it converts fewer digits than a number of the text has. -/
theorem parse_describe {e : Expr} (h : e.Printable) {limit : Int}
    (hlimit : (e.height : Int) ≤ limit) (interpreter : Interpreter) :
    (∃ e', parse limit e.describe interpreter = .ok e' ∧ e'.erase = e.erase) ∨
    (¬ interpreter.stack.Holds (Expr.callsPerOpener * (e.height + 1)) ∧ ∃ position,
      parse limit e.describe interpreter =
        .error (.grammar ⟨.stackExhausted limit, position⟩)) ∨
    (∃ bound ∈ interpreter.digits, bound < e.longestNumber) ∧ ∃ error,
      parse limit e.describe interpreter = .error (.lexical error) ∧
        error.fault.isConversion = true := by
  have hscans : Expr.Scans e.describe.toList e := h.scans nofun
  obtain ⟨tokens, e', position, hspells, herase, htokens⟩ := hscans.ofText?
  have hheight : e'.height = e.height := by
    rw [← e'.height_erase, herase, e.height_erase]
  rcases Token.cut_ofText? e.describe interpreter.digits with heq | ⟨-, error, herror, hfault⟩
  · rw [← hheight] at hlimit ⊢
    rcases parse_of_spells interpreter hspells rfl (heq.trans htokens) hlimit with hparse | hcut
    · exact .inl ⟨e', hparse, herase⟩
    · exact .inr (.inl hcut)
  · refine .inr (.inr ⟨?_, error, ?_, hfault⟩)
    · -- numbers that the interpreter converts would have given tokens
      by_contra hexceeds
      push Not at hexceeds
      obtain ⟨found, _, place, -, -, hfound⟩ := (h.scans hexceeds).ofText?
      cases hfound.symm.trans herror
    · rw [parse, herror]
      rfl

end Calculator

namespace Expr

/-- Twenty-one and a half. -/
def sampleNumber : Binary64 := .finite false (43 * 2 ^ 1073) (by decide +kernel)

/-- A call of `max` with operators in a row, a literal whose suffix could be taken for a radix, a
group, and a literal with a fraction and a unit. -/
def sampleTree : Expr :=
  .call 0 "max"
    [.unary 0 .not (.unary 0 .not (.literal 0 (.integer .u64 0 (some (.size .byte))))),
     .binary 0 (.arithmetic .subtract) (.history 0 2) (.unary 0 .negate (.constant 0 "PI")),
     .literal 0 ⟨.float sampleNumber, some (.temperature .celsius)⟩]

theorem describe_sampleTree : sampleTree.describe = "max(!!0B, ($2 - -PI), 21.5°C)" := by
  decide +kernel

theorem printable_sampleTree : sampleTree.Printable := by
  have hmax : IsIdentifier "max" := ⟨⟨'m', rfl, rfl⟩, List.all_eq_true.mp rfl⟩
  have hpi : IsIdentifier "PI" := ⟨⟨'P', rfl, rfl⟩, List.all_eq_true.mp rfl⟩
  refine .call 0 hmax (List.forall_mem_cons.mpr ⟨?_, List.forall_mem_cons.mpr ⟨?_,
    List.forall_mem_singleton.mpr ?_⟩⟩)
  · exact .unary 0 _ (.unary 0 _ (.literal 0 (.integer rfl (by rintro _ ⟨⟩; rfl))))
  · exact .binary 0 _ (.history 0 2) (.unary 0 _ (.constant 0 hpi))
  · exact .literal 0 (.float (by decide +kernel))

end Expr

/-- The sample is read under the standard limits of the interpreter. -/
theorem Calculator.parse_describe_sampleTree :
    (Expr.sampleTree.height : Int) ≤ 3 ∧
      ∃ e', Calculator.parse 3 "max(!!0B, ($2 - -PI), 21.5°C)" .standard = .ok e' ∧
        e'.erase = Expr.sampleTree := by
  have hheight : (Expr.sampleTree.height : Int) ≤ 3 := by decide
  have hparse := Calculator.parse_describe Expr.printable_sampleTree hheight .standard
  rw [Expr.describe_sampleTree] at hparse
  rcases hparse with ⟨e', hparse, herase⟩ | ⟨hroom, -⟩ | ⟨⟨bound, hbound, hlong⟩, -⟩
  · exact ⟨hheight, e', hparse, herase⟩
  · exact absurd (by decide) hroom
  · obtain rfl := Option.some.inj hbound
    exact absurd hlong (by decide)

end TypedCalc
