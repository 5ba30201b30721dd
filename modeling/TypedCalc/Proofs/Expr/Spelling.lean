import TypedCalc.Proofs.Expr.Grammar

/-!
# Tokens that spell a tree

An expression is written with parentheses around every infix operation, so its tokens are an
operand, perhaps after prefix operators, whatever its root is.  Reading them takes as many open
groups, calls and prefix operators as the tree is high.

* `Expr.Spells`: the tokens that a tree is written with.
* `Expr.Spells.reads`: they are read as that tree under any limit that its height does not exceed.
-/

namespace TypedCalc.Expr

mutual

/-- The height of a tree: a number, a reference and a constant have none, and every operator and
every call is one above the highest of its operands. -/
def height : Expr → Nat
  | .literal .. | .history .. | .constant .. => 0
  | .unary _ _ operand => operand.height + 1
  | .binary _ _ left right => max left.height right.height + 1
  | .call _ _ arguments => heightAll arguments + 1

/-- The height of the highest of several trees. -/
def heightAll : List Expr → Nat
  | [] => 0
  | argument :: rest => max argument.height (heightAll rest)

end

theorem height_le_heightAll {arguments : List Expr} {argument : Expr} (h : argument ∈ arguments) :
    argument.height ≤ heightAll arguments := by
  induction arguments with
  | nil => exact absurd h List.not_mem_nil
  | cons first rest ih =>
    rw [heightAll]
    rcases List.mem_cons.mp h with rfl | hrest
    · exact Nat.le_max_left _ _
    · exact Nat.le_trans (ih hrest) (Nat.le_max_right _ _)

/-- Whether tokens are those that a tree is written with, and the nodes of the tree stand where the
tokens do. -/
inductive Spells : List Token → Expr → Prop
  /-- A number. -/
  | literal {token : Token} {value : Value} (h : token.kind = .number value) :
      Spells [token] (.literal token.position value)
  /-- A history reference. -/
  | history {token : Token} {index : Nat} (h : token.kind = .history index) :
      Spells [token] (.history token.position index)
  /-- A constant. -/
  | constant {token : Token} {name : String} (h : token.kind = .name name) :
      Spells [token] (.constant token.position name)
  /-- A prefix operator before its operand. -/
  | unary {operator : Token} {op : PrefixOperator} {tokens : List Token} {e : Expr}
      (hop : operator.IsPrefix op) (inner : Spells tokens e) :
      Spells (operator :: tokens) (.unary operator.position op e)
  /-- An infix operator between its operands, in parentheses. -/
  | binary {opening operator closing : Token} {op : InfixOperator} {left right : List Token}
      {l r : Expr} (hopening : opening.kind = .openParen) (hclosing : closing.kind = .closeParen)
      (hop : operator.IsInfix op.level op) (hleft : Spells left l) (hright : Spells right r) :
      Spells (opening :: left ++ operator :: right ++ [closing])
        (.binary operator.position op l r)
  /-- A name with arguments in parentheses. -/
  | call {token opening closing : Token} {name : String} {arguments : List (List Token × Expr)}
      {joined : List Token} (h : token.kind = .name name) (hopening : opening.kind = .openParen)
      (hclosing : closing.kind = .closeParen)
      (hjoined : CommaSeparated (arguments.map (·.1)) joined)
      (harguments : ∀ argument ∈ arguments, Spells argument.1 argument.2) :
      Spells (token :: opening :: joined ++ [closing])
        (.call token.position name (arguments.map (·.2)))

/-- A spelling starts with a token that neither separates nor closes nor ends. -/
theorem Spells.exists_head {tokens : List Token} {e : Expr} (h : Spells tokens e) :
    ∃ token more, tokens = token :: more ∧ token.kind ≠ .comma ∧ token.kind ≠ .closeParen ∧
      token.kind ≠ .endOfInput := by
  cases h with
  | unary hop inner =>
    obtain ⟨symbol, hkind, _⟩ := hop
    exact ⟨_, _, rfl, by rw [hkind]; exact ⟨nofun, nofun, nofun⟩⟩
  | literal h | history h | constant h | binary h | call h =>
    exact ⟨_, _, rfl, by rw [h]; exact ⟨nofun, nofun, nofun⟩⟩

section

variable {source : Source} {s after : State} {tokens rest : List Token} {e : Expr}

theorem prefixAt?_of_kind_ne {token : Token} (htokens : tokens = token :: rest)
    (h : ∀ symbol, token.kind ≠ .operator symbol) : prefixAt? tokens = none := by
  cases hfound : prefixAt? tokens with
  | none => rfl
  | some found =>
    obtain ⟨_, hcons, _, symbol, hsymbol, _⟩ := prefixAt?_eq_some_iff_isPrefix.mp hfound
    cases htokens.symm.trans hcons
    exact absurd hsymbol (h symbol)

/-- Where no operator of the levels in between follows, an expression of a higher level is all that
is read at a lower one. -/
theorem Run.level_of_le {level higher : Nat} (h : Run source (.level higher) s (.expr e after))
    (hle : level ≤ higher) (hhigher : higher ≤ InfixOperator.levelCount)
    (hend : ∀ other, level ≤ other → other < higher → infixOfLevel? other after.rest = none) :
    Run source (.level level) s (.expr e after) := by
  induction hle with
  | refl => exact h
  | @step higher hle ih =>
    refine ih (.level hhigher h (.chainEnd (hend higher hle (Nat.lt_succ_self _))))
      (Nat.le_of_succ_le hhigher) fun other hlevel hother => ?_
    exact hend other hlevel (Nat.lt_succ_of_lt hother)

/-- An operand is all that is read at a level if no operator of that level or a higher one
follows. -/
theorem Run.level_of_prefixed {level : Nat} (h : Run source .prefixed s (.expr e after))
    (hlevel : level ≤ InfixOperator.levelCount)
    (hend : ∀ other, level ≤ other → infixOfLevel? other after.rest = none) :
    Run source (.level level) s (.expr e after) :=
  .level_of_le (.top (Nat.lt_irrefl _) h) hlevel (Nat.le_refl _) fun other hother _ =>
    hend other hother

/-- The parser reads tokens as an operand, whatever follows them, if this many more groups, calls
and prefix operators can be open. -/
def ReadsOperand (source : Source) (nesting : Nat) (tokens : List Token) (e : Expr) : Prop :=
  ∀ ⦃s : State⦄ ⦃rest : List Token⦄, s.rest = tokens ++ rest →
    (∀ token ∈ rest.head?, token.kind ≠ .openParen) →
    (s.depth + nesting : Nat) ≤ source.limit →
      Run source .prefixed s (.expr e { s with rest := rest })

/-- An operand is read as an expression up to a comma or a closing parenthesis. -/
theorem ReadsOperand.argument {nesting : Nat} (h : ReadsOperand source nesting tokens e)
    {token : Token} (hkind : token.kind = .comma ∨ token.kind = .closeParen)
    (hrest : s.rest = tokens ++ token :: rest) (hdepth : (s.depth + nesting : Nat) ≤ source.limit) :
    Run source (.level 0) s (.expr e { s with rest := token :: rest }) := by
  have hne : token.kind ≠ .openParen ∧ ∀ symbol, token.kind ≠ .operator symbol := by
    rcases hkind with hkind | hkind <;> (rw [hkind]; exact ⟨nofun, nofun⟩)
  refine .level_of_prefixed (h hrest ?_ hdepth) (Nat.zero_le _) fun other _ =>
    infixOfLevel?_of_kind_ne hne.2 other rest
  rintro _ ⟨⟩
  exact hne.1

/-- Before a spelling there is neither a comma nor a closing parenthesis. -/
theorem Spells.current_ne (h : Spells tokens e) (hrest : s.rest = tokens ++ rest) :
    (s.current source).kind ≠ .comma ∧ (s.current source).kind ≠ .closeParen := by
  obtain ⟨token, more, rfl, hcomma, hclose, -⟩ := h.exists_head
  have hcurrent : s.current source = token := by
    rw [State.current, hrest]
    rfl
  rw [hcurrent]
  exact ⟨hcomma, hclose⟩

/-- Spellings with commas between them are read as arguments. -/
theorem CommaSeparated.run_spells {nesting : Nat} {lists : List (List Token)} {joined : List Token}
    (h : CommaSeparated lists joined) {arguments : List (List Token × Expr)}
    (hlists : arguments.map (·.1) = lists) (hne : arguments ≠ [])
    (hspells : ∀ argument ∈ arguments, Spells argument.1 argument.2)
    (hreads : ∀ argument ∈ arguments, ReadsOperand source nesting argument.1 argument.2)
    {closing : Token} (hclosing : closing.kind = .closeParen) (name : String)
    (hrest : s.rest = joined ++ closing :: rest)
    (hdepth : (s.depth + nesting : Nat) ≤ source.limit) :
    Run source (.arguments name) s
      (.arguments (arguments.map (·.2)) { s with rest := closing :: rest }) := by
  induction h generalizing arguments s with
  | none => exact absurd (List.map_eq_nil_iff.mp hlists) hne
  | one tokens =>
    obtain ⟨⟨_, e⟩, rfl, rfl⟩ := List.map_eq_singleton_iff.mp hlists
    obtain ⟨hcomma, hclose⟩ := (hspells _ (List.mem_singleton_self _)).current_ne hrest
    have hfirst := (hreads _ (List.mem_singleton_self _)).argument (.inr hclosing) hrest hdepth
    exact .argumentLast hcomma hclose hfirst (afterComma?_of_kind_ne (by rw [hclosing]; nofun) _)
  | @more tokens next joined others comma hkind h ih =>
    obtain ⟨⟨_, e⟩, arguments, rfl, rfl, hothers⟩ := List.map_eq_cons_iff.mp hlists
    rw [List.append_assoc, List.cons_append] at hrest
    obtain ⟨hspells, hspells'⟩ := List.forall_mem_cons.mp hspells
    obtain ⟨hreads, hreads'⟩ := List.forall_mem_cons.mp hreads
    obtain ⟨hcomma, hclose⟩ := hspells.current_ne hrest
    have hfirst := hreads.argument (.inl hkind) hrest hdepth
    have hne : arguments ≠ [] := by
      rintro rfl
      exact nomatch hothers
    refine .argument hcomma hclose hfirst (afterComma?_of_kind hkind _) ?_
    exact ih hothers hne hspells' hreads' rfl hdepth

theorem ReadsOperand.mono {nesting more : Nat} (h : ReadsOperand source nesting tokens e)
    (hle : nesting ≤ more) : ReadsOperand source more tokens e :=
  fun _ _ hrest hnext hdepth => h hrest hnext (by omega)

/-- Two operands with an infix operator between them are read up to a closing parenthesis. -/
theorem ReadsOperand.binary {nesting : Nat} {left right : List Token} {l r : Expr}
    (hleft : ReadsOperand source nesting left l) (hright : ReadsOperand source nesting right r)
    {operator closing : Token} {op : InfixOperator} (hop : operator.IsInfix op.level op)
    (hclosing : closing.kind = .closeParen)
    (hrest : s.rest = left ++ operator :: (right ++ closing :: rest))
    (hdepth : (s.depth + nesting : Nat) ≤ source.limit) :
    Run source (.level 0) s
      (.expr (.binary operator.position op l r) { s with rest := closing :: rest }) := by
  have hlevel : op.level < InfixOperator.levelCount := hop.lt_length
  have hoperator : operator.kind ≠ .openParen := by
    obtain ⟨⟨symbol, hkind, _⟩, _⟩ := hop
    rw [hkind]
    nofun
  have hclose (other : Nat) : infixOfLevel? other (closing :: rest) = none :=
    infixOfLevel?_of_kind_ne (by rw [hclosing]; nofun) other rest
  have hfirst : Run source (.level (op.level + 1)) s
      (.expr l { s with rest := operator :: (right ++ closing :: rest) }) :=
    .level_of_prefixed (hleft hrest (by rintro _ ⟨⟩; exact hoperator) hdepth) hlevel
      fun other hother => infixOfLevel?_of_ne hop (Nat.ne_of_gt hother) _
  have hsecond : Run source (.level (op.level + 1)) { s with rest := right ++ closing :: rest }
      (.expr r { s with rest := closing :: rest }) :=
    .level_of_prefixed (hright rfl (by rintro _ ⟨⟩; rw [hclosing]; nofun) hdepth) hlevel
      fun other _ => hclose other
  have hlevelRun : Run source (.level op.level) s
      (.expr (.binary operator.position op l r) { s with rest := closing :: rest }) :=
    .level hlevel hfirst (.chain
      (infixOfLevel?_eq_some_iff_isInfix.mpr ⟨operator, rfl, rfl, hop⟩) hsecond
      (.chainEnd (hclose _)))
  exact hlevelRun.level_of_le (Nat.zero_le _) (Nat.le_of_lt hlevel) fun other _ _ => hclose other

/-- **A spelling is read as its tree**, if the tree is not higher than the number of groups, calls
and prefix operators that can still be opened. -/
theorem Spells.reads (h : Spells tokens e) : ReadsOperand source e.height tokens e := by
  induction h with
  | @literal token value h =>
    intro s rest hrest hnext hdepth
    obtain ⟨_, position, length⟩ := token
    cases h
    exact .unprefixed (prefixAt?_of_kind_ne hrest nofun) (.number hrest)
  | @history token index h =>
    intro s rest hrest hnext hdepth
    obtain ⟨_, position, length⟩ := token
    cases h
    exact .unprefixed (prefixAt?_of_kind_ne hrest nofun) (.history hrest)
  | @constant token name h =>
    intro s rest hrest hnext hdepth
    obtain ⟨_, position, length⟩ := token
    cases h
    exact .unprefixed (prefixAt?_of_kind_ne hrest nofun) (.constant hrest hnext)
  | @unary operator op tokens e hop inner ih =>
    intro s rest hrest hnext hdepth
    rw [height] at hdepth
    have hinner := ih (s := { s with rest := tokens ++ rest, depth := s.depth + 1 }) rfl hnext
      (by dsimp only; omega)
    exact .prefixed (prefixAt?_eq_some_iff_isPrefix.mpr ⟨operator, hrest, rfl, hop⟩) (by omega)
      hinner
  | @binary opening operator closing op left right l r hopening hclosing hop _ _ ihleft ihright =>
    intro s rest hrest hnext hdepth
    obtain ⟨_, opened, length⟩ := opening
    cases hopening
    rw [height] at hdepth
    rw [List.append_assoc, List.append_assoc, List.cons_append, List.cons_append,
      List.singleton_append] at hrest
    have hinner := (ihleft.mono (Nat.le_max_left _ _)).binary (ihright.mono (Nat.le_max_right _ _))
      (s := s.inside source (left ++ operator :: (right ++ closing :: rest)) opened .group)
      hop hclosing rfl (by dsimp only [State.inside]; omega)
    have hgroup := Run.group hrest (by omega) hinner
    rw [Outcome.close_inside hclosing] at hgroup
    exact .unprefixed (prefixAt?_of_kind_ne hrest nofun) hgroup
  | @call token opening closing name arguments joined h hopening hclosing hjoined harguments ih =>
    intro s rest hrest hnext hdepth
    obtain ⟨_, position, length⟩ := token
    obtain ⟨_, opened, length'⟩ := opening
    cases h
    cases hopening
    rw [height] at hdepth
    rw [List.append_assoc, List.cons_append, List.cons_append, List.singleton_append] at hrest
    refine .unprefixed (prefixAt?_of_kind_ne hrest nofun) ?_
    by_cases hempty : arguments = []
    · subst hempty
      cases hjoined
      rw [List.nil_append] at hrest
      have hdeep : ¬ source.limit < (s.depth + 1 : Nat) := by omega
      have hcall := Run.callEmpty hrest hdeep hclosing
      have hclosed : Outcome.close source opened (.call position name [])
          (s.inside source (closing :: rest) opened (.call name)) =
            .expr (.call position name []) { s with rest := rest } :=
        Outcome.close_inside hclosing (closing :: rest) opened (.call name)
      rwa [hclosed] at hcall
    · have hreads : ∀ argument ∈ arguments,
          ReadsOperand source (heightAll (arguments.map (·.2))) argument.1 argument.2 :=
        fun argument hmem =>
          (ih argument hmem).mono (height_le_heightAll (List.mem_map_of_mem hmem))
      have hinner := hjoined.run_spells
        (s := s.inside source (joined ++ closing :: rest) opened (.call name))
        rfl hempty harguments hreads hclosing name rfl (by dsimp only [State.inside]; omega)
      have hcall := Run.call hrest (by omega) hinner.current_ne_of_arguments hinner
      rwa [Outcome.close_inside hclosing] at hcall

end

end TypedCalc.Expr
