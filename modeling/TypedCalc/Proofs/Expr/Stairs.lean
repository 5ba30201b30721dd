import TypedCalc.Proofs.Expr.RoundTrip

/-!
# The deepest trees

The tree of a text is deepest for its nesting if an operator of every level stands to the right of
one of the level before it, and a call with such an argument stands to the right of them all.

* `Expr.Stairs`: the tokens of such a text and its tree.
* `Expr.Stairs.reads`: they are read as that tree, with one open call for each call in it.
* `Expr.exists_stairs`: there is a text with such tokens for every number of calls.
-/

namespace TypedCalc.Expr

open Token

/-- Whether tokens are stairs from a level on with a number of calls of a function: a number and an
operator for each level, and then a number or a call with stairs from the first level on. -/
inductive Stairs (name : String) : Nat → Nat → List Token → Expr → Prop
  /-- A number ends the stairs. -/
  | number {token : Token} {value : Value} (h : token.kind = .number value) :
      Stairs name InfixOperator.levelCount 0 [token] (.literal token.position value)
  /-- A call starts from the first level again. -/
  | call {token opening closing : Token} {calls : Nat} {tokens : List Token} {e : Expr}
      (h : token.kind = .name name) (hopening : opening.kind = .openParen)
      (hclosing : closing.kind = .closeParen) (inner : Stairs name 0 calls tokens e) :
      Stairs name InfixOperator.levelCount (calls + 1) (token :: opening :: tokens ++ [closing])
        (.call token.position name [e])
  /-- An operator of the level, with the other levels to its right. -/
  | step {token operator : Token} {value : Value} {level calls : Nat} {op : InfixOperator}
      {tokens : List Token} {e : Expr} (h : token.kind = .number value)
      (hop : operator.IsInfix level op) (inner : Stairs name (level + 1) calls tokens e) :
      Stairs name level calls (token :: operator :: tokens)
        (.binary operator.position op (.literal token.position value) e)

/-! ## Reading stairs -/

theorem Stairs.exists_head {name : String} {level calls : Nat} {tokens : List Token} {e : Expr}
    (h : Stairs name level calls tokens e) :
    ∃ token more, tokens = token :: more ∧ token.kind ≠ .comma ∧ token.kind ≠ .closeParen ∧
      token.kind ≠ .endOfInput := by
  cases h with
  | number h | call h | step h =>
    exact ⟨_, _, rfl, by rw [h]; exact ⟨nofun, nofun, nofun⟩⟩

/-- Before stairs there is neither a comma nor a closing parenthesis. -/
theorem Stairs.current_ne {name : String} {level calls : Nat} {tokens rest : List Token} {e : Expr}
    (h : Stairs name level calls tokens e) {source : Source} {s : State}
    (hrest : s.rest = tokens ++ rest) :
    (s.current source).kind ≠ .comma ∧ (s.current source).kind ≠ .closeParen := by
  obtain ⟨token, more, rfl, hcomma, hclose, -⟩ := h.exists_head
  have hcurrent : s.current source = token := by
    rw [State.current, hrest]
    rfl
  rw [hcurrent]
  exact ⟨hcomma, hclose⟩

/-- **Stairs are read as their tree** up to a closing parenthesis or the end of the text. -/
theorem Stairs.reads {name : String} {level calls : Nat} {tokens : List Token} {e : Expr}
    (h : Stairs name level calls tokens e) {source : Source} {s : State} {last : Token}
    {rest : List Token} (hrest : s.rest = tokens ++ last :: rest)
    (hlast : last.kind = .closeParen ∨ last.kind = .endOfInput)
    (hdepth : (s.depth + calls : Nat) ≤ source.limit) :
    Run source (.level level) s (.expr e { s with rest := last :: rest }) := by
  induction h generalizing s last rest with
  | @number token value h =>
    obtain ⟨_, position, length⟩ := token
    cases h
    exact .top (Nat.lt_irrefl _) (.unprefixed (prefixAt?_of_kind_ne hrest nofun) (.number hrest))
  | @call token opening closing calls tokens e h hopening hclosing inner ih =>
    obtain ⟨_, position, length⟩ := token
    obtain ⟨_, opened, length'⟩ := opening
    cases h
    cases hopening
    rw [List.append_assoc, List.cons_append, List.cons_append, List.singleton_append] at hrest
    have hinner := ih (s := s.inside source (tokens ++ closing :: last :: rest) opened (.call name))
      rfl (.inl hclosing) (by dsimp only [State.inside]; omega)
    obtain ⟨hcomma, hclose⟩ := inner.current_ne
      (s := s.inside source (tokens ++ closing :: last :: rest) opened (.call name)) rfl
    have hcall := Run.call hrest (by omega) hclose (.argumentLast hcomma hclose hinner
      (afterComma?_of_kind_ne (by rw [hclosing]; nofun) _))
    rw [Outcome.close_inside hclosing] at hcall
    exact .top (Nat.lt_irrefl _) (.unprefixed (prefixAt?_of_kind_ne hrest nofun) hcall)
  | @step token operator value level calls op tokens e h hop inner ih =>
    obtain ⟨_, position, length⟩ := token
    cases h
    have hend : ∀ symbol, last.kind ≠ .operator symbol := by
      rcases hlast with hlast | hlast <;> (rw [hlast]; nofun)
    have hlevel : level < InfixOperator.levelCount := hop.lt_length
    have hnumber : Run source (.level (level + 1)) s (.expr (.literal position value)
        { s with rest := operator :: (tokens ++ last :: rest) }) :=
      .level_of_prefixed (.unprefixed (prefixAt?_of_kind_ne hrest nofun) (.number hrest)) hlevel
        fun other hother => infixOfLevel?_of_ne hop (Nat.ne_of_gt hother) _
    have hright := ih (s := { s with rest := tokens ++ last :: rest }) rfl hlast hdepth
    exact .level hlevel hnumber (.chain
      (infixOfLevel?_eq_some_iff_isInfix.mpr ⟨operator, rfl, rfl, hop⟩) hright
      (.chainEnd (infixOfLevel?_of_kind_ne hend level rest)))

/-- Stairs that a text ends with are the whole expression. -/
theorem Stairs.ofTokens? {name : String} {calls : Nat} {tokens : List Token} {e : Expr}
    (h : Stairs name 0 calls tokens e) {last : Token} (hlast : last.kind = .endOfInput)
    (text : List Char) : Expr.ofTokens? (tokens ++ [last]) text calls = .ok e := by
  obtain ⟨token, more, htokens, -, -, hne⟩ := h.exists_head
  have hread : Run ⟨text, calls⟩ (.level 0) { rest := tokens ++ [last] }
      (.expr e { rest := [last] }) := h.reads rfl (.inr hlast) (by dsimp only; omega)
  refine ofTokens?_eq_ok_iff.mpr ⟨?_, _, hread, hlast⟩
  rw [htokens]
  exact hne

/-! ## Texts of stairs -/

/-- An operator of every level, the loosest first. -/
def oneOfEachLevel : List InfixOperator :=
  [.logical .or, .logical .and, .bitwise .or, .bitwise .xor, .bitwise .and, .comparison .equal,
   .bitwise .shiftLeft, .arithmetic .add, .arithmetic .multiply]

/-- A text with a number and each of some operators in front of it. -/
def climb (ops : List InfixOperator) (cs : List Char) : List Char :=
  ops.foldr (fun op cs => ['1'] ++ (' ' :: (op.symbol.toList ++ [' ']) ++ cs)) cs

/-- The text of stairs with a number of calls of a function. -/
def stairsText (name : String) : Nat → List Char
  | 0 => climb oneOfEachLevel ['1']
  | calls + 1 => climb oneOfEachLevel (name.toList ++ (['('] ++ (stairsText name calls ++ [')'])))

/-- Whether an interpreter converts numbers of one digit. -/
def ConvertsDigit (limit : Option Nat) : Prop := ∀ bound ∈ limit, 1 ≤ bound

/-- Whether a text is scanned as stairs, whatever follows it, under a limit of digits. -/
def ScansStairs (name : String) (level calls : Nat) (cs : List Char) (limit : Option Nat) : Prop :=
  ∀ position rest, EndsWord rest → ∃ tokens e, Stairs name level calls tokens e ∧
    ScansAs position cs rest tokens limit

section

variable {limit : Option Nat}

/-- The number one is scanned as a literal. -/
theorem exists_scansAs_one (hlimit : ConvertsDigit limit) (position : Nat) {rest : List Char}
    (hrest : EndsWord rest) :
    ∃ token value, token.kind = .number value ∧ ScansAs position ['1'] rest [token] limit := by
  have hone : (Value.integer .u64 1).IsPlainLiteral := .integer rfl nofun
  have hnumber : IsNumber ['1'] (.integer .u64 1) := isNumber_describe hone
  have hread := readOne_of_fitsDigits
    (fun bound hbound => fitsDigits_describe hone (hlimit bound hbound) hrest)
    ((IsWord.number hnumber).readOne hrest.continuesNumber position)
  exact ⟨_, _, rfl, scansAs_word (List.cons_ne_nil _ _) (by rintro _ ⟨⟩; decide) hread⟩

theorem scansStairs_one (name : String) (hlimit : ConvertsDigit limit) :
    ScansStairs name InfixOperator.levelCount 0 ['1'] limit := by
  intro position rest hrest
  obtain ⟨token, value, hkind, hscan⟩ := exists_scansAs_one hlimit position hrest
  exact ⟨_, _, .number hkind, hscan⟩

theorem ScansStairs.step {name : String} {calls : Nat} {cs : List Char}
    (hlimit : ConvertsDigit limit) (op : InfixOperator)
    (h : ScansStairs name (op.level + 1) calls cs limit) :
    ScansStairs name op.level calls (['1'] ++ (' ' :: (op.symbol.toList ++ [' ']) ++ cs))
      limit := by
  intro position rest hrest
  have hspace : EndsWord (' ' :: (op.symbol.toList ++ [' ']) ++ cs ++ rest) :=
    endsWord_cons (.inl rfl) _
  obtain ⟨token, value, hkind, hfirst⟩ := exists_scansAs_one hlimit position hspace
  obtain ⟨operator, hoperator, hopscan⟩ := scansAs_infix (position + 1) op (cs ++ rest)
  obtain ⟨tokens, e, hstairs, hscan⟩ :=
    h (position + 1 + (' ' :: (op.symbol.toList ++ [' '])).length) rest hrest
  exact ⟨_, _, .step hkind hoperator hstairs, hfirst.append (hopscan.append hscan)⟩

theorem ScansStairs.call {name : String} {calls : Nat} {cs : List Char} (hname : IsIdentifier name)
    (h : ScansStairs name 0 calls cs limit) :
    ScansStairs name InfixOperator.levelCount (calls + 1)
      (name.toList ++ (['('] ++ (cs ++ [')']))) limit := by
  intro position rest hrest
  have hnamescan : ScansAs position name.toList (['('] ++ (cs ++ [')']) ++ rest)
      [⟨.name name, position, name.toList.length⟩] limit :=
    scansAs_name position hname (by rintro _ ⟨⟩; rfl)
  obtain ⟨opening, hopening, hopenscan⟩ := scansAs_openParen (position + name.toList.length)
    (cs ++ [')'] ++ rest)
  obtain ⟨tokens, e, hstairs, hscan⟩ := h (position + name.toList.length + 1) ([')'] ++ rest)
    (endsWord_cons (.inr (.inl rfl)) _)
  obtain ⟨closing, hclosing, hclosescan⟩ := scansAs_closeParen
    (position + name.toList.length + 1 + cs.length) rest
  exact ⟨_, _, .call rfl hopening hclosing hstairs,
    hnamescan.append (hopenscan.append (hscan.append hclosescan))⟩

/-- All levels can be put in front. -/
theorem ScansStairs.climb {name : String} {calls : Nat} {cs : List Char}
    (hlimit : ConvertsDigit limit) (h : ScansStairs name InfixOperator.levelCount calls cs limit) :
    ScansStairs name 0 calls (climb oneOfEachLevel cs) limit :=
  h.step hlimit (.arithmetic .multiply) |>.step hlimit (.arithmetic .add)
    |>.step hlimit (.bitwise .shiftLeft) |>.step hlimit (.comparison .equal)
    |>.step hlimit (.bitwise .and) |>.step hlimit (.bitwise .xor) |>.step hlimit (.bitwise .or)
    |>.step hlimit (.logical .and) |>.step hlimit (.logical .or)

theorem scansStairs_stairsText {name : String} (hname : IsIdentifier name) (calls : Nat)
    (hlimit : ConvertsDigit limit) : ScansStairs name 0 calls (stairsText name calls) limit := by
  induction calls with
  | zero => exact (scansStairs_one name hlimit).climb hlimit
  | succ calls ih => exact (ih.call hname).climb hlimit

end

/-- The text of stairs falls into the tokens of stairs and the end of the text. -/
theorem exists_ofText?_stairsText {name : String} (hname : IsIdentifier name) (calls : Nat)
    (limit : Option Nat) (hlimit : ConvertsDigit limit) :
    ∃ tokens last e, last.kind = .endOfInput ∧ Stairs name 0 calls tokens e ∧
      ofText? (String.ofList (stairsText name calls)) limit = .ok (tokens ++ [last]) := by
  have hcharacters : (String.ofList (stairsText name calls)).toList = stairsText name calls :=
    String.toList_ofList
  obtain ⟨tokens, e, hstairs, hscan⟩ := scansStairs_stairsText hname calls hlimit 0 [] nofun
  rw [← hcharacters] at hscan
  exact ⟨tokens, _, e, rfl, hstairs, ofText?_of_scansAs hscan⟩

/-- **There are stairs with any number of calls**, and the parser reads them when that many groups,
calls and prefix operators can be open.  Their numbers have one digit. -/
theorem exists_stairs {name : String} (hname : IsIdentifier name) (calls : Nat) :
    ∃ text tokens last e,
      (∀ limit, ConvertsDigit limit → ofText? text limit = .ok (tokens ++ [last])) ∧
      Stairs name 0 calls tokens e ∧
      Expr.ofTokens? (tokens ++ [last]) text.toList calls = .ok e := by
  obtain ⟨tokens, last, e, hlast, hstairs, htokens⟩ :=
    exists_ofText?_stairsText hname calls none nofun
  refine ⟨String.ofList (stairsText name calls), tokens, last, e, fun limit hlimit => ?_, hstairs,
    hstairs.ofTokens? hlast _⟩
  -- a limit that gives tokens gives those that there are without one
  rcases cut_ofText? (String.ofList (stairsText name calls)) limit with heq | ⟨-, error, herror, -⟩
  · exact heq.trans htokens
  · obtain ⟨found, _, _, -, -, hfound⟩ := exists_ofText?_stairsText hname calls limit hlimit
    cases hfound.symm.trans herror

end TypedCalc.Expr
