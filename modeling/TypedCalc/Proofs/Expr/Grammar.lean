import TypedCalc.Proofs.Expr.Blame

/-!
# The grammar of expressions

`Derives level tokens e` says that the tokens are a sentence of a level and that `e` is its tree.
The grammar says nothing about how a sentence is read.

* `Run.takes`: what the parser takes is a sentence, and the tree is the one of the grammar.
* `Derives.reads`: the parser reads every sentence, whatever follows it, as long as no operator of
  the level or above and no parenthesis does.
* `ofTokens?_eq_ok_iff_derives_of_le`: the parser is the grammar, as long as no limit is in the way.
-/

namespace TypedCalc

/-! ## The grammar -/

/-- Whether a token is the symbol of an infix operator of a level. -/
def Token.IsInfix (token : Token) (level : Nat) (op : InfixOperator) : Prop :=
  (∃ symbol, token.kind = .operator symbol ∧ symbol.text = op.symbol) ∧
    ∃ row ∈ InfixOperator.levels[level]?, op ∈ row

/-- Whether a token is the symbol of a prefix operator. -/
def Token.IsPrefix (token : Token) (op : PrefixOperator) : Prop :=
  ∃ symbol, token.kind = .operator symbol ∧ symbol.text = op.symbol

theorem Token.IsInfix.lt_length {token : Token} {level : Nat} {op : InfixOperator}
    (h : token.IsInfix level op) : level < InfixOperator.levels.length := by
  obtain ⟨-, row, hrow, -⟩ := h
  exact (List.getElem?_eq_some_iff.mp hrow).1

namespace Expr

/-- Token lists with commas between them, joined to one list. -/
inductive CommaSeparated : List (List Token) → List Token → Prop
  /-- Nothing at all. -/
  | none : CommaSeparated [] []
  /-- One list alone. -/
  | one (tokens : List Token) : CommaSeparated [tokens] tokens
  /-- A list, a comma and the others. -/
  | more (tokens : List Token) {next joined : List Token} {others : List (List Token)}
      {comma : Token} (hcomma : comma.kind = .comma)
      (h : CommaSeparated (next :: others) joined) :
      CommaSeparated (tokens :: next :: others) (tokens ++ comma :: joined)

/-- **The grammar.**  There is a level for every row of the table of infix operators, which group
to the left, and one more level above them for prefix operators and operands. -/
inductive Derives : Nat → List Token → Expr → Prop
  /-- An infix operator between a sentence of its level and a sentence of the next one. -/
  | binary {level : Nat} {left right : List Token} {operator : Token} {op : InfixOperator}
      {l r : Expr} (hop : operator.IsInfix level op) (hleft : Derives level left l)
      (hright : Derives (level + 1) right r) :
      Derives level (left ++ operator :: right) (.binary operator.position op l r)
  /-- A sentence of the next level. -/
  | tighter {level : Nat} {tokens : List Token} {e : Expr}
      (h : level < InfixOperator.levels.length) (inner : Derives (level + 1) tokens e) :
      Derives level tokens e
  /-- A prefix operator before prefix operators and an operand. -/
  | unary {operator : Token} {op : PrefixOperator} {tokens : List Token} {e : Expr}
      (hop : operator.IsPrefix op) (inner : Derives InfixOperator.levels.length tokens e) :
      Derives InfixOperator.levels.length (operator :: tokens) (.unary operator.position op e)
  /-- A number. -/
  | number {token : Token} {value : Value} (h : token.kind = .number value) :
      Derives InfixOperator.levels.length [token] (.literal token.position value)
  /-- A history reference. -/
  | history {token : Token} {index : Nat} (h : token.kind = .history index) :
      Derives InfixOperator.levels.length [token] (.history token.position index)
  /-- A constant. -/
  | constant {token : Token} {name : String} (h : token.kind = .name name) :
      Derives InfixOperator.levels.length [token] (.constant token.position name)
  /-- A name with sentences between parentheses, each with its tree. -/
  | call {token opening closing : Token} {name : String} {arguments : List (List Token × Expr)}
      {joined : List Token} (h : token.kind = .name name) (hopening : opening.kind = .openParen)
      (hclosing : closing.kind = .closeParen)
      (hjoined : CommaSeparated (arguments.map (·.1)) joined)
      (harguments : ∀ argument ∈ arguments, Derives 0 argument.1 argument.2) :
      Derives InfixOperator.levels.length (token :: opening :: joined ++ [closing])
        (.call token.position name (arguments.map (·.2)))
  /-- A sentence between parentheses. -/
  | group {opening closing : Token} {tokens : List Token} {e : Expr}
      (hopening : opening.kind = .openParen) (hclosing : closing.kind = .closeParen)
      (inner : Derives 0 tokens e) :
      Derives InfixOperator.levels.length (opening :: tokens ++ [closing]) e

/-- A sentence of a level is a sentence of every level below it. -/
theorem Derives.of_le {level higher : Nat} {tokens : List Token} {e : Expr}
    (h : Derives higher tokens e) (hle : level ≤ higher)
    (hhigher : higher ≤ InfixOperator.levels.length) : Derives level tokens e := by
  induction hle with
  | refl => exact h
  | step hle ih => exact ih (.tighter hhigher h) (Nat.le_of_succ_le hhigher)

/-! ## Operators in the grammar and in the parser -/

theorem infixOfLevel?_eq_some_iff_isInfix {level : Nat} {tokens rest : List Token}
    {op : InfixOperator} {position : Nat} :
    infixOfLevel? level tokens = some (op, position, rest) ↔
      ∃ token : Token, tokens = token :: rest ∧ token.position = position ∧
        token.IsInfix level op := by
  rw [infixOfLevel?_eq_some_iff]
  constructor
  · rintro ⟨symbol, length, rfl, hop, rfl⟩
    exact ⟨_, rfl, rfl, ⟨symbol, rfl, OperatorSymbol.infix?_eq_some_iff.mp hop⟩,
      op.mem_levels_level⟩
  · rintro ⟨⟨_, _, length⟩, rfl, rfl, ⟨symbol, rfl, hop⟩, row, hrow, hmem⟩
    exact ⟨symbol, length, rfl, OperatorSymbol.infix?_eq_some_iff.mpr hop,
      InfixOperator.level_of_mem_levels hrow hmem⟩

theorem prefixAt?_eq_some_iff_isPrefix {tokens rest : List Token} {op : PrefixOperator}
    {position : Nat} :
    prefixAt? tokens = some (op, position, rest) ↔
      ∃ token : Token, tokens = token :: rest ∧ token.position = position ∧ token.IsPrefix op := by
  rw [prefixAt?_eq_some_iff]
  constructor
  · rintro ⟨symbol, length, rfl, hop⟩
    exact ⟨_, rfl, rfl, symbol, rfl, OperatorSymbol.prefix?_eq_some_iff.mp hop⟩
  · rintro ⟨⟨_, _, length⟩, rfl, rfl, symbol, rfl, hop⟩
    exact ⟨symbol, length, rfl, OperatorSymbol.prefix?_eq_some_iff.mpr hop⟩

/-! ## Soundness -/

/-- What a phase takes from the tokens, as the grammar has it. -/
def Phase.Takes (s : State) : Phase → Outcome → Prop
  | .level n, .expr e after => n ≤ InfixOperator.levels.length →
      ∃ tokens, s.rest = tokens ++ after.rest ∧ Derives n tokens e
  | .chain n left, .expr e after =>
      ∃ tokens, s.rest = tokens ++ after.rest ∧
        ∀ before, Derives n before left → Derives n (before ++ tokens) e
  | .prefixed, .expr e after | .operand, .expr e after =>
      ∃ tokens, s.rest = tokens ++ after.rest ∧ Derives InfixOperator.levels.length tokens e
  | .arguments _, .arguments es after =>
      ∃ (arguments : List (List Token × Expr)) (joined : List Token),
        s.rest = joined ++ after.rest ∧ CommaSeparated (arguments.map (·.1)) joined ∧
          arguments ≠ [] ∧ arguments.map (·.2) = es ∧
          ∀ argument ∈ arguments, Derives 0 argument.1 argument.2
  | _, _ => True

/-- A closing parenthesis makes a sentence of what was taken before it. -/
theorem Phase.takes_close {source : Source} {s after : State} {e : Expr} (opened : Nat)
    (before : List Token) (hrest : s.rest = before ++ after.rest)
    (hderives : ∀ closing : Token, closing.kind = .closeParen →
      Derives InfixOperator.levels.length (before ++ [closing]) e) :
    Phase.operand.Takes s (Outcome.close source opened e after) := by
  rcases Outcome.close_cases source opened e after with
    ⟨position, length, rest, _, _, hafter, _, hclose⟩ | ⟨_, _, hclose, _⟩
  · rw [hclose]
    refine ⟨before ++ [⟨.closeParen, position, length⟩], ?_, hderives _ rfl⟩
    rw [hrest, hafter, List.append_assoc, List.singleton_append]
  · rw [hclose]
    trivial

/-- **The parser is sound.**  What a phase takes is a sentence with the tree that it gives. -/
theorem Run.takes {source : Source} {phase : Phase} {s : State} {o : Outcome}
    (h : Run source phase s o) : phase.Takes s o := by
  induction h with
  | @top level s o h inner ih =>
    cases o with
    | expr e after =>
      intro hlevel
      have htop : level = InfixOperator.levels.length := Nat.le_antisymm hlevel (Nat.not_lt.mp h)
      rw [htop]
      exact ih
    | arguments | stop => trivial
  | @level level s after first o h operand chain ihoperand ihchain =>
    cases o with
    | expr e after =>
      intro hlevel
      obtain ⟨tokens, hrest, hfirst⟩ := ihoperand h
      obtain ⟨more, hmore, hchain⟩ := ihchain
      refine ⟨tokens ++ more, ?_, hchain tokens (.tighter h hfirst)⟩
      rw [hrest, hmore, List.append_assoc]
    | arguments | stop => trivial
  | chainEnd h => exact ⟨[], rfl, fun before hbefore => by rwa [List.append_nil]⟩
  | @chain level left right s after op position rest o h operand chain ihoperand ihchain =>
    obtain ⟨token, hrest, rfl, hop⟩ := infixOfLevel?_eq_some_iff_isInfix.mp h
    cases o with
    | expr e after =>
      obtain ⟨tokens, (hrest' : rest = _), hright⟩ := ihoperand hop.lt_length
      obtain ⟨more, hmore, hchain⟩ := ihchain
      refine ⟨token :: tokens ++ more, ?_, fun before hbefore => ?_⟩
      · rw [hrest, hrest', hmore, List.cons_append, List.cons_append, List.append_assoc]
      · have hderives := hchain _ (.binary hop hbefore hright)
        rwa [List.append_assoc, List.cons_append] at hderives
    | arguments | stop => trivial
  | @unprefixed s o h operand ih =>
    cases o with
    | expr e after => exact ih
    | arguments | stop => trivial
  | @prefixed s after op position rest operand h hdeep inner ih =>
    obtain ⟨token, hrest, rfl, hop⟩ := prefixAt?_eq_some_iff_isPrefix.mp h
    obtain ⟨tokens, (hrest' : rest = _), hinner⟩ := ih
    exact ⟨token :: tokens, by rw [hrest, hrest', List.cons_append], .unary hop hinner⟩
  | @number s value position length rest h => exact ⟨[_], h, .number rfl⟩
  | history h => exact ⟨[_], h, .history rfl⟩
  | constant h hnext => exact ⟨[_], h, .constant rfl⟩
  | @group s after opened length rest e h hdeep inner ih =>
    obtain ⟨tokens, (hrest : rest = _), hinner⟩ := ih (Nat.zero_le _)
    refine Phase.takes_close opened (⟨.openParen, opened, length⟩ :: tokens) ?_ ?_
    · rw [h, hrest, List.cons_append]
    · exact fun closing hclosing => .group rfl hclosing hinner
  | @callEmpty s name position opened length length' rest h hdeep hnext =>
    refine Phase.takes_close opened
      [⟨.name name, position, length⟩, ⟨.openParen, opened, length'⟩] h ?_
    exact fun closing hclosing => @Derives.call _ _ closing _ [] [] rfl rfl hclosing .none nofun
  | @call s after name position opened length length' rest es h hdeep hnext inner ih =>
    obtain ⟨arguments, joined, (hrest : rest = _), hjoined, -, rfl, harguments⟩ := ih
    refine Phase.takes_close opened
      (⟨.name name, position, length⟩ :: ⟨.openParen, opened, length'⟩ :: joined) ?_ ?_
    · rw [h, hrest, List.cons_append, List.cons_append]
    · exact fun closing hclosing => .call rfl rfl hclosing hjoined harguments
  | argumentLast hcomma hclose first hnext ih =>
    obtain ⟨tokens, hrest, hfirst⟩ := ih (Nat.zero_le _)
    refine ⟨[(tokens, _)], tokens, hrest, .one tokens, nofun, rfl, ?_⟩
    rintro argument hmem
    rw [List.mem_singleton.mp hmem]
    exact hfirst
  | @argument s after after' name e es rest hcomma hclose first hnext others ihfirst ihothers =>
    obtain ⟨tokens, hrest, hfirst⟩ := ihfirst (Nat.zero_le _)
    obtain ⟨arguments, joined, (hrest' : rest = _), hjoined, hne, hes, harguments⟩ := ihothers
    obtain ⟨position, length, hafter⟩ := afterComma?_eq_some hnext
    obtain ⟨next, arguments, rfl⟩ := List.exists_cons_of_ne_nil hne
    refine ⟨(tokens, e) :: next :: arguments, tokens ++ ⟨.comma, position, length⟩ :: joined,
      ?_, .more tokens rfl hjoined, nofun, by rw [List.map_cons, hes], ?_⟩
    · rw [hrest, hafter, hrest', List.append_assoc, List.cons_append]
    · exact List.forall_mem_cons.mpr ⟨hfirst, harguments⟩
  | levelStop | chainStop | prefixDeep | prefixStop | groupDeep | groupStop | callDeep | callStop
  | unexpected | argumentMissing | argumentStop | argumentsStop => trivial

/-! ## Completeness -/

theorem infixOfLevel?_top (tokens : List Token) :
    infixOfLevel? InfixOperator.levels.length tokens = none := by
  cases h : infixOfLevel? InfixOperator.levels.length tokens with
  | none => rfl
  | some found =>
    obtain ⟨_, _, _, hop⟩ := infixOfLevel?_eq_some_iff_isInfix.mp h
    exact absurd hop.lt_length (Nat.lt_irrefl _)

theorem infixOfLevel?_of_kind_ne {token : Token} (h : ∀ symbol, token.kind ≠ .operator symbol)
    (level : Nat) (rest : List Token) : infixOfLevel? level (token :: rest) = none := by
  cases hfound : infixOfLevel? level (token :: rest) with
  | none => rfl
  | some found =>
    obtain ⟨_, htoken, _, ⟨symbol, hkind, _⟩, _⟩ := infixOfLevel?_eq_some_iff_isInfix.mp hfound
    cases htoken
    exact absurd hkind (h symbol)

theorem infixOfLevel?_of_ne {token : Token} {level other : Nat} {op : InfixOperator}
    (hop : token.IsInfix level op) (hne : other ≠ level) (rest : List Token) :
    infixOfLevel? other (token :: rest) = none := by
  obtain ⟨⟨symbol, hkind, htext⟩, row, hrow, hmem⟩ := hop
  obtain ⟨_, _, length⟩ := token
  cases hkind
  simp only [infixOfLevel?, OperatorSymbol.infix?_eq_some_iff.mpr htext]
  rw [if_neg]
  rintro rfl
  exact hne (InfixOperator.level_of_mem_levels hrow hmem)

/-- What may follow a sentence of a level: no parenthesis, which would make a call of a name, and
no operator that binds more tightly. -/
structure Follows (level : Nat) (rest : List Token) : Prop where
  /-- No parenthesis follows. -/
  noParen : ∀ token ∈ rest.head?, token.kind ≠ .openParen
  /-- No operator of a higher level follows. -/
  noTighter : ∀ other, level < other → infixOfLevel? other rest = none

theorem Follows.of_isInfix {token : Token} {level : Nat} {op : InfixOperator}
    (hop : token.IsInfix level op) (rest : List Token) : Follows level (token :: rest) where
  noParen := by
    obtain ⟨⟨symbol, hkind, _⟩, _⟩ := hop
    rintro token ⟨⟩
    rw [hkind]
    nofun
  noTighter := fun other hother => infixOfLevel?_of_ne hop (Nat.ne_of_gt hother) rest

theorem Follows.succ {level : Nat} {rest : List Token} (h : Follows level rest) :
    Follows (level + 1) rest where
  noParen := h.noParen
  noTighter := fun other hother => h.noTighter other (Nat.lt_of_succ_lt hother)

/-- Anything may follow that is neither a parenthesis nor an operator. -/
theorem Follows.of_kind {token : Token} (hparen : token.kind ≠ .openParen)
    (hoperator : ∀ symbol, token.kind ≠ .operator symbol) (level : Nat) (rest : List Token) :
    Follows level (token :: rest) where
  noParen := by
    rintro token ⟨⟩
    exact hparen
  noTighter := fun other _ => infixOfLevel?_of_kind_ne hoperator other rest

section

variable {source : Source} {s : State} {level : Nat} {tokens rest : List Token} {e : Expr}
  {o : Outcome}

/-- The parser reads a sentence of a level, whatever follows, and goes on with the chain of the
level. -/
def Reads (source : Source) (level : Nat) (tokens : List Token) (e : Expr) : Prop :=
  ∀ ⦃s : State⦄ ⦃rest : List Token⦄ ⦃o : Outcome⦄, s.rest = tokens ++ rest →
    Follows level rest → (s.depth + tokens.length : Nat) ≤ source.limit →
    Run source (.chain level e) { s with rest := rest } o → Run source (.level level) s o

/-- Where no operator of the level follows, the sentence is all that is read. -/
theorem Reads.expr (h : Reads source level tokens e) (hrest : s.rest = tokens ++ rest)
    (hfollows : Follows level rest) (hend : infixOfLevel? level rest = none)
    (hdepth : (s.depth + tokens.length : Nat) ≤ source.limit) :
    Run source (.level level) s (.expr e { s with rest := rest }) :=
  h hrest hfollows hdepth (.chainEnd hend)

theorem Run.eq_of_chain_top
    (h : Run source (.chain InfixOperator.levels.length e) s o) : o = .expr e s := by
  rw [← h.run_eq]
  exact run_chain_of_none source s e (infixOfLevel?_top s.rest)

theorem Run.prefixed_of_top (h : Run source (.level InfixOperator.levels.length) s o) :
    Run source .prefixed s o := by
  cases h with
  | top h inner => exact inner
  | level h _ _ | levelStop h _ => exact absurd h (Nat.lt_irrefl _)

theorem Run.current_ne_of_arguments {name : String} {es : List Expr} {after : State}
    (h : Run source (.arguments name) s (.arguments es after)) :
    (s.current source).kind ≠ .closeParen := by
  cases h <;> assumption

/-- An operand is a sentence of the highest level. -/
theorem Run.level_of_operand {token : Token} {more : List Token} (hrest : s.rest = token :: more)
    (hkind : ∀ symbol, token.kind ≠ .operator symbol)
    (hoperand : Run source .operand s (.expr e { s with rest := rest }))
    (hchain : Run source (.chain InfixOperator.levels.length e) { s with rest := rest } o) :
    Run source (.level InfixOperator.levels.length) s o := by
  rw [hchain.eq_of_chain_top]
  refine .top (Nat.lt_irrefl _) (.unprefixed ?_ hoperand)
  cases h : prefixAt? s.rest with
  | none => rfl
  | some found =>
    obtain ⟨_, htokens, _, symbol, hsymbol, _⟩ := prefixAt?_eq_some_iff_isPrefix.mp h
    cases hrest.symm.trans htokens
    exact absurd hsymbol (hkind symbol)

theorem Outcome.close_inside {closing : Token} (hclosing : closing.kind = .closeParen)
    (inside : List Token) (opened : Nat) (opening : Opening) :
    Outcome.close source opened e
      { s.inside source inside opened opening with rest := closing :: rest } =
        .expr e { s with rest := rest } := by
  obtain ⟨_, position, length⟩ := closing
  cases hclosing
  rfl

/-- A sentence starts with a token that neither separates nor closes nor ends. -/
theorem Derives.exists_head (h : Derives level tokens e) :
    ∃ token more, tokens = token :: more ∧ token.kind ≠ .comma ∧ token.kind ≠ .closeParen ∧
      token.kind ≠ .endOfInput := by
  induction h with
  | binary hop hleft hright ihleft ihright =>
    obtain ⟨token, more, rfl, hkind⟩ := ihleft
    exact ⟨token, _, List.cons_append, hkind⟩
  | tighter h inner ih => exact ih
  | unary hop inner ih =>
    obtain ⟨symbol, hkind, _⟩ := hop
    exact ⟨_, _, rfl, by rw [hkind]; exact ⟨nofun, nofun, nofun⟩⟩
  | number h | history h | constant h | call h | group h =>
    exact ⟨_, _, rfl, by rw [h]; exact ⟨nofun, nofun, nofun⟩⟩

theorem afterComma?_of_kind {token : Token} (h : token.kind = .comma) (rest : List Token) :
    afterComma? (token :: rest) = some rest := by
  obtain ⟨_, _, _⟩ := token
  cases h
  rfl

theorem afterComma?_of_kind_ne {token : Token} (h : token.kind ≠ .comma) (rest : List Token) :
    afterComma? (token :: rest) = none := by
  cases hfound : afterComma? (token :: rest) with
  | none => rfl
  | some found =>
    obtain ⟨_, _, htokens⟩ := afterComma?_eq_some hfound
    cases htokens
    exact absurd rfl h

/-- Before a sentence there is neither a comma nor a closing parenthesis. -/
theorem Derives.current_ne (h : Derives level tokens e) (hrest : s.rest = tokens ++ rest) :
    (s.current source).kind ≠ .comma ∧ (s.current source).kind ≠ .closeParen := by
  obtain ⟨token, more, rfl, hcomma, hclose, -⟩ := h.exists_head
  have hcurrent : s.current source = token := by
    rw [State.current, hrest]
    rfl
  rw [hcurrent]
  exact ⟨hcomma, hclose⟩

/-- An argument is read up to the comma or the parenthesis after it. -/
theorem Reads.argument (h : Reads source 0 tokens e) {token : Token}
    (hkind : token.kind = .comma ∨ token.kind = .closeParen)
    (hrest : s.rest = tokens ++ token :: rest)
    (hdepth : (s.depth + tokens.length : Nat) ≤ source.limit) :
    Run source (.level 0) s (.expr e { s with rest := token :: rest }) := by
  have hoperator (symbol : OperatorSymbol) : token.kind ≠ .operator symbol := by
    rcases hkind with hkind | hkind <;> (rw [hkind]; nofun)
  have hparen : token.kind ≠ .openParen := by
    rcases hkind with hkind | hkind <;> (rw [hkind]; nofun)
  exact h.expr hrest (.of_kind hparen hoperator _ _) (infixOfLevel?_of_kind_ne hoperator _ _) hdepth

/-- Sentences with commas between them are read as arguments. -/
theorem CommaSeparated.run {lists : List (List Token)} {joined : List Token}
    (h : CommaSeparated lists joined) {arguments : List (List Token × Expr)}
    (hlists : arguments.map (·.1) = lists) (hne : arguments ≠ [])
    (hderives : ∀ argument ∈ arguments, Derives 0 argument.1 argument.2)
    (hreads : ∀ argument ∈ arguments, Reads source 0 argument.1 argument.2)
    {closing : Token} (hclosing : closing.kind = .closeParen) (name : String)
    (hrest : s.rest = joined ++ closing :: rest)
    (hdepth : (s.depth + joined.length : Nat) ≤ source.limit) :
    Run source (.arguments name) s
      (.arguments (arguments.map (·.2)) { s with rest := closing :: rest }) := by
  induction h generalizing arguments s with
  | none => exact absurd (List.map_eq_nil_iff.mp hlists) hne
  | one tokens =>
    obtain ⟨⟨_, e⟩, rfl, rfl⟩ := List.map_eq_singleton_iff.mp hlists
    obtain ⟨hcomma, hclose⟩ :=
      (hderives _ (List.mem_singleton_self _)).current_ne hrest
    have hfirst := (hreads _ (List.mem_singleton_self _)).argument (.inr hclosing) hrest hdepth
    exact .argumentLast hcomma hclose hfirst (afterComma?_of_kind_ne (by rw [hclosing]; nofun) _)
  | @more tokens next joined others comma hkind h ih =>
    obtain ⟨⟨_, e⟩, arguments, rfl, rfl, hothers⟩ := List.map_eq_cons_iff.mp hlists
    rw [List.append_assoc, List.cons_append] at hrest
    rw [List.length_append, List.length_cons] at hdepth
    obtain ⟨hderives, hderives'⟩ := List.forall_mem_cons.mp hderives
    obtain ⟨hreads, hreads'⟩ := List.forall_mem_cons.mp hreads
    obtain ⟨hcomma, hclose⟩ := hderives.current_ne hrest
    have hfirst := hreads.argument (.inl hkind) hrest (by dsimp only at hdepth ⊢; omega)
    have hne : arguments ≠ [] := by
      rintro rfl
      exact nomatch hothers
    refine .argument hcomma hclose hfirst (afterComma?_of_kind hkind _) ?_
    exact ih hothers hne hderives' hreads' rfl (by dsimp only; omega)

/-- **The parser is complete.**  It reads every sentence. -/
theorem Derives.reads (h : Derives level tokens e) : Reads source level tokens e := by
  induction h with
  | @binary level left right operator op l r hop hleft hright ihleft ihright =>
    intro s rest o hrest hfollows hdepth hchain
    rw [List.length_append, List.length_cons] at hdepth
    rw [List.append_assoc, List.cons_append] at hrest
    -- the left operand is read first, then the chain goes on with the operator and the right one
    refine ihleft hrest (.of_isInfix hop _) (by omega) ?_
    refine .chain (infixOfLevel?_eq_some_iff_isInfix.mpr ⟨operator, rfl, rfl, hop⟩) ?_ hchain
    exact ihright.expr rfl hfollows.succ (hfollows.noTighter _ (Nat.lt_succ_self _)) (by
      dsimp only
      omega)
  | @tighter level tokens e h inner ih =>
    intro s rest o hrest hfollows hdepth hchain
    exact .level h
      (ih.expr hrest hfollows.succ (hfollows.noTighter _ (Nat.lt_succ_self _)) hdepth) hchain
  | @unary operator op tokens e hop inner ih =>
    intro s rest o hrest hfollows hdepth hchain
    rw [List.length_cons] at hdepth
    rw [hchain.eq_of_chain_top]
    refine .top (Nat.lt_irrefl _) ?_
    have hinner := ih.expr (s := { s with rest := tokens ++ rest, depth := s.depth + 1 }) rfl
      hfollows (infixOfLevel?_top rest) (by dsimp only; omega)
    exact .prefixed (prefixAt?_eq_some_iff_isPrefix.mpr ⟨operator, hrest, rfl, hop⟩) (by omega)
      hinner.prefixed_of_top
  | @number token value h =>
    intro s rest o hrest hfollows hdepth hchain
    obtain ⟨_, position, length⟩ := token
    cases h
    exact Run.level_of_operand hrest nofun (.number hrest) hchain
  | @history token index h =>
    intro s rest o hrest hfollows hdepth hchain
    obtain ⟨_, position, length⟩ := token
    cases h
    exact Run.level_of_operand hrest nofun (.history hrest) hchain
  | @constant token name h =>
    intro s rest o hrest hfollows hdepth hchain
    obtain ⟨_, position, length⟩ := token
    cases h
    exact Run.level_of_operand hrest nofun (.constant hrest hfollows.noParen) hchain
  | @call token opening closing name arguments joined h hopening hclosing hjoined harguments ih =>
    intro s rest o hrest hfollows hdepth hchain
    obtain ⟨_, position, length⟩ := token
    obtain ⟨_, opened, length'⟩ := opening
    cases h
    cases hopening
    rw [List.append_assoc, List.cons_append, List.cons_append, List.singleton_append] at hrest
    rw [List.length_append, List.length_cons, List.length_cons] at hdepth
    refine Run.level_of_operand hrest nofun ?_ hchain
    by_cases hempty : arguments = []
    · subst hempty
      cases hjoined
      rw [List.nil_append] at hrest
      have hdeep : ¬ source.limit < (s.depth + 1 : Nat) := by omega
      have hcall := Run.callEmpty hrest hdeep hclosing
      have hclosed : Outcome.close source opened (.call position name [])
          (s.inside source (closing :: rest) opened (.call name)) =
            .expr (.call position name []) { s with rest := rest } :=
        Outcome.close_inside hclosing (closing :: rest) opened (.call name)
      rwa [hclosed] at hcall
    · have hinner := hjoined.run
        (s := s.inside source (joined ++ closing :: rest) opened (.call name))
        rfl hempty harguments ih hclosing name rfl (by dsimp only [State.inside]; omega)
      have hcall := Run.call hrest (by omega) hinner.current_ne_of_arguments hinner
      rwa [Outcome.close_inside hclosing] at hcall
  | @group opening closing tokens e hopening hclosing inner ih =>
    intro s rest o hrest hfollows hdepth hchain
    obtain ⟨_, opened, length⟩ := opening
    cases hopening
    rw [List.append_assoc, List.cons_append, List.singleton_append] at hrest
    rw [List.length_append, List.length_cons] at hdepth
    refine Run.level_of_operand hrest nofun ?_ hchain
    have hinner := ih.argument (s := s.inside source (tokens ++ closing :: rest) opened .group)
      (.inr hclosing) rfl (by dsimp only [State.inside]; omega)
    have hgroup := Run.group hrest (by omega) hinner
    rwa [Outcome.close_inside hclosing] at hgroup

end

/-! ## The parser is the grammar -/

theorem CommaSeparated.kind_ne_endOfInput {lists : List (List Token)} {joined : List Token}
    (h : CommaSeparated lists joined)
    (hlists : ∀ tokens ∈ lists, ∀ token ∈ tokens, token.kind ≠ .endOfInput) :
    ∀ token ∈ joined, token.kind ≠ .endOfInput := by
  induction h with
  | none => exact fun _ hmem => absurd hmem List.not_mem_nil
  | one tokens => exact hlists tokens (List.mem_singleton_self _)
  | more tokens hcomma h ih =>
    obtain ⟨htokens, hothers⟩ := List.forall_mem_cons.mp hlists
    intro token hmem
    rcases List.mem_append.mp hmem with hmem | hmem
    · exact htokens token hmem
    · rcases List.mem_cons.mp hmem with rfl | hmem
      · rw [hcomma]
        nofun
      · exact ih hothers token hmem

/-- The end of the text is not part of a sentence. -/
theorem Derives.kind_ne_endOfInput {level : Nat} {tokens : List Token} {e : Expr}
    (h : Derives level tokens e) : ∀ token ∈ tokens, token.kind ≠ .endOfInput := by
  induction h with
  | binary hop hleft hright ihleft ihright =>
    obtain ⟨⟨symbol, hkind, _⟩, _⟩ := hop
    refine List.forall_mem_append.mpr ⟨ihleft, List.forall_mem_cons.mpr ⟨?_, ihright⟩⟩
    rw [hkind]
    nofun
  | tighter h inner ih => exact ih
  | unary hop inner ih =>
    obtain ⟨symbol, hkind, _⟩ := hop
    refine List.forall_mem_cons.mpr ⟨?_, ih⟩
    rw [hkind]
    nofun
  | number h | history h | constant h =>
    refine List.forall_mem_singleton.mpr ?_
    rw [h]
    nofun
  | call h hopening hclosing hjoined harguments ih =>
    have hinside := hjoined.kind_ne_endOfInput (List.forall_mem_map.mpr ih)
    refine List.forall_mem_append.mpr ⟨List.forall_mem_cons.mpr ⟨?_,
      List.forall_mem_cons.mpr ⟨?_, hinside⟩⟩, List.forall_mem_singleton.mpr ?_⟩
    · rw [h]
      nofun
    · rw [hopening]
      nofun
    · rw [hclosing]
      nofun
  | group hopening hclosing inner ih =>
    refine List.forall_mem_append.mpr ⟨List.forall_mem_cons.mpr ⟨?_, ih⟩,
      List.forall_mem_singleton.mpr ?_⟩
    · rw [hopening]
      nofun
    · rw [hclosing]
      nofun

/-- The tokens before the end of the text are all that a run can take in front of an end. -/
theorem eq_of_append_end {tokens taken rest : List Token} {last : Token} {source : Source}
    {depth : Nat} {frames : List Frame} (htokens : ∀ token ∈ tokens, token.kind ≠ .endOfInput)
    (htaken : ∀ token ∈ taken, token.kind ≠ .endOfInput) (hlast : last.kind = .endOfInput)
    (h : tokens ++ [last] = taken ++ rest)
    (hend : ((⟨rest, depth, frames⟩ : State).current source).kind = .endOfInput) :
    taken = tokens := by
  rcases List.append_eq_append_iff.mp h with ⟨more, rfl, hmore⟩ | ⟨more, rfl, hmore⟩
  · cases more with
    | nil => exact List.append_nil _
    | cons token more =>
      obtain ⟨rfl, -⟩ := List.cons.inj hmore
      exact absurd hlast (htaken _ (List.mem_append_right _ List.mem_cons_self))
  · cases more with
    | nil => exact (List.append_nil _).symm
    | cons token more =>
      rw [hmore] at hend
      exact absurd hend (htokens _ (List.mem_append_right _ List.mem_cons_self))

/-- What gives a tree is a sentence, whatever the limit. -/
theorem derives_of_ofTokens?_eq_ok {tokens : List Token} {last : Token} {text : List Char}
    {limit : Int} (hlast : last.kind = .endOfInput)
    (htokens : ∀ token ∈ tokens, token.kind ≠ .endOfInput) {e : Expr}
    (h : ofTokens? (tokens ++ [last]) text limit = .ok e) : Derives 0 tokens e := by
  obtain ⟨-, ⟨rest, depth, frames⟩, hrun, hend⟩ := ofTokens?_eq_ok_iff.mp h
  obtain ⟨taken, hrest, hderives⟩ := hrun.takes (Nat.zero_le _)
  rwa [eq_of_append_end htokens hderives.kind_ne_endOfInput hlast hrest hend] at hderives

theorem ofTokens?_eq_ok_iff_derives_of_le {tokens : List Token} {last : Token} {text : List Char}
    {limit : Int} (hlast : last.kind = .endOfInput)
    (htokens : ∀ token ∈ tokens, token.kind ≠ .endOfInput) (hlimit : tokens.length ≤ limit)
    {e : Expr} : ofTokens? (tokens ++ [last]) text limit = .ok e ↔ Derives 0 tokens e := by
  constructor
  · exact derives_of_ofTokens?_eq_ok hlast htokens
  · intro h
    rw [ofTokens?_eq_ok_iff]
    obtain ⟨token, more, htoken, -, -, hne⟩ := h.exists_head
    have hoperator (symbol : OperatorSymbol) : last.kind ≠ .operator symbol := by
      rw [hlast]
      nofun
    have hreads : Reads ⟨text, limit⟩ 0 tokens e := h.reads
    have hrun := hreads.expr (s := { rest := tokens ++ [last] }) rfl
      (.of_kind (by rw [hlast]; nofun) hoperator _ _) (infixOfLevel?_of_kind_ne hoperator _ _)
      (by dsimp only; omega)
    refine ⟨?_, _, hrun, hlast⟩
    rw [htoken]
    exact hne

end Expr

theorem GrammarFault.errorClass_report {fault : GrammarFault} (h : fault ≠ .noOpenParen)
    (wording : LimitWording) : (fault.report wording).errorClass = .grammar := by
  cases fault with
  | noOpenParen => exact absurd rfl h
  | _ => rfl

theorem GrammarFault.position_report (fault : GrammarFault) (wording : LimitWording) :
    (fault.report wording).position = none := by
  cases fault <;> rfl

end TypedCalc
