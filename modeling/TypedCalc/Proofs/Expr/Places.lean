import TypedCalc.Proofs.Expr.Grammar

/-!
# The places of a tree

Every node of a tree that was read from tokens stands at one of the tokens, and every literal is
the number that one of them says.

* `Expr.positions_subset_of_ofTokens?`: the places.
* `Expr.hasLiterals_of_ofTokens?`: the literals.
-/

namespace TypedCalc.Expr

mutual

/-- The positions of all nodes of an expression. -/
def positions : Expr → List Nat
  | .literal position _ => [position]
  | .history position _ => [position]
  | .constant position _ => [position]
  | .unary position _ operand => position :: operand.positions
  | .binary position _ left right => position :: (left.positions ++ right.positions)
  | .call position _ arguments => position :: positionsAll arguments

/-- The positions of all nodes of arguments. -/
def positionsAll : List Expr → List Nat
  | [] => []
  | argument :: rest => argument.positions ++ positionsAll rest

end

theorem position_mem_positions (e : Expr) : e.position ∈ e.positions := by
  cases e <;> exact List.mem_cons_self

theorem mem_positionsAll {arguments : List Expr} {position : Nat} :
    position ∈ positionsAll arguments ↔ ∃ argument ∈ arguments, position ∈ argument.positions := by
  induction arguments with
  | nil => exact ⟨(fun h => absurd h List.not_mem_nil), fun ⟨_, h, _⟩ => absurd h List.not_mem_nil⟩
  | cons argument rest ih =>
    simp only [positionsAll, List.mem_append, ih, List.mem_cons, exists_eq_or_imp]

theorem CommaSeparated.subset {lists : List (List Token)} {joined tokens : List Token}
    (h : CommaSeparated lists joined) (hmem : tokens ∈ lists) : tokens ⊆ joined := by
  induction h with
  | none => exact absurd hmem List.not_mem_nil
  | one alone =>
    rw [List.mem_singleton.mp hmem]
    exact List.Subset.refl _
  | more first hcomma h ih =>
    rcases List.mem_cons.mp hmem with rfl | hmem
    · exact List.subset_append_left _ _
    · exact List.subset_append_of_subset_right _ (List.subset_cons_of_subset _ (ih hmem))

/-- **The nodes of a sentence** stand at its tokens. -/
theorem Derives.positions_subset {level : Nat} {tokens : List Token} {e : Expr}
    (h : Derives level tokens e) : e.positions ⊆ tokens.map Token.position := by
  induction h with
  | @binary level left right operator op l r hop hleft hright ihleft ihright =>
    unfold positions
    rw [List.map_append, List.map_cons]
    refine List.cons_subset.mpr ⟨List.mem_append_right _ List.mem_cons_self, ?_⟩
    refine List.append_subset.mpr ⟨List.subset_append_of_subset_left _ ihleft, ?_⟩
    exact List.subset_append_of_subset_right _ (List.subset_cons_of_subset _ ihright)
  | tighter h inner ih => exact ih
  | unary hop inner ih =>
    unfold positions
    exact List.cons_subset_cons _ ih
  | number h => exact List.Subset.refl _
  | history h => exact List.Subset.refl _
  | constant h => exact List.Subset.refl _
  | @call token opening closing name arguments joined h hopening hclosing hjoined harguments ih =>
    unfold positions
    refine List.cons_subset_cons _ ?_
    intro position hmem
    obtain ⟨_, htree, hposition⟩ := mem_positionsAll.mp hmem
    obtain ⟨argument, hargument, rfl⟩ := List.mem_map.mp htree
    obtain ⟨found, hfound, rfl⟩ := List.mem_map.mp (ih argument hargument hposition)
    have htokens : argument.1 ∈ arguments.map (·.1) := List.mem_map_of_mem hargument
    have hinside : found ∈ joined := hjoined.subset htokens hfound
    exact List.mem_map_of_mem
      (List.mem_cons_of_mem _ (List.mem_append_left _ hinside))
  | group hopening hclosing inner ih =>
    rw [List.cons_append, List.map_cons, List.map_append]
    exact List.subset_cons_of_subset _ (List.subset_append_of_subset_left _ ih)

/-- The nodes of a tree stand at the tokens that it was read from. -/
theorem positions_subset_of_ofTokens? {tokens : List Token} {text : List Char} {limit : Int}
    {e : Expr} (h : ofTokens? tokens text limit = .ok e) :
    e.positions ⊆ tokens.map Token.position := by
  obtain ⟨-, after, hrun, -⟩ := ofTokens?_eq_ok_iff.mp h
  obtain ⟨taken, (hrest : tokens = _), hderives⟩ := hrun.takes (Nat.zero_le _)
  rw [hrest, List.map_append]
  exact List.subset_append_of_subset_left _ hderives.positions_subset

/-! ## Literals -/

/-- Whether all literals of a tree have a property. -/
inductive HasLiterals (p : Value → Prop) : Expr → Prop
  | literal (position : Nat) {value : Value} (h : p value) : HasLiterals p (.literal position value)
  | history (position index : Nat) : HasLiterals p (.history position index)
  | constant (position : Nat) (name : String) : HasLiterals p (.constant position name)
  | unary (position : Nat) (op : PrefixOperator) {operand : Expr} (h : HasLiterals p operand) :
      HasLiterals p (.unary position op operand)
  | binary (position : Nat) (op : InfixOperator) {left right : Expr} (hleft : HasLiterals p left)
      (hright : HasLiterals p right) : HasLiterals p (.binary position op left right)
  | call (position : Nat) (name : String) {arguments : List Expr}
      (h : ∀ argument ∈ arguments, HasLiterals p argument) :
      HasLiterals p (.call position name arguments)

/-- **The literals of a sentence** are the numbers of its tokens. -/
theorem Derives.hasLiterals {p : Value → Prop} {level : Nat} {tokens : List Token} {e : Expr}
    (h : Derives level tokens e)
    (htokens : ∀ token ∈ tokens, ∀ value, token.kind = .number value → p value) :
    e.HasLiterals p := by
  induction h with
  | binary hop hleft hright ihleft ihright =>
    refine .binary _ _ (ihleft fun token hmem => ?_) (ihright fun token hmem => ?_)
    · exact htokens token (List.mem_append_left _ hmem)
    · exact htokens token (List.mem_append_right _ (List.mem_cons_of_mem _ hmem))
  | tighter h inner ih => exact ih htokens
  | unary hop inner ih =>
    exact .unary _ _ (ih fun token hmem => htokens token (List.mem_cons_of_mem _ hmem))
  | number h => exact .literal _ (htokens _ (List.mem_singleton_self _) _ h)
  | history h => exact .history _ _
  | constant h => exact .constant _ _
  | @call token opening closing name arguments joined h hopening hclosing hjoined harguments ih =>
    refine .call _ _ fun tree htree => ?_
    obtain ⟨argument, hargument, rfl⟩ := List.mem_map.mp htree
    refine ih argument hargument fun found hfound => htokens found ?_
    have hinside : found ∈ joined := hjoined.subset (List.mem_map_of_mem hargument) hfound
    exact List.mem_cons_of_mem _ (List.mem_append_left _ (List.mem_cons_of_mem _ hinside))
  | group hopening hclosing inner ih =>
    refine ih fun token hmem => htokens token ?_
    exact List.mem_append_left _ (List.mem_cons_of_mem _ hmem)

/-- The literals of a tree are the numbers of the tokens that it was read from. -/
theorem hasLiterals_of_ofTokens? {p : Value → Prop} {tokens : List Token} {text : List Char}
    {limit : Int} {e : Expr} (h : ofTokens? tokens text limit = .ok e)
    (htokens : ∀ token ∈ tokens, ∀ value, token.kind = .number value → p value) :
    e.HasLiterals p := by
  obtain ⟨-, after, hrun, -⟩ := ofTokens?_eq_ok_iff.mp h
  obtain ⟨taken, (hrest : tokens = _), hderives⟩ := hrun.takes (Nat.zero_le _)
  refine hderives.hasLiterals fun token hmem => htokens token ?_
  rw [hrest]
  exact List.mem_append_left _ hmem

end TypedCalc.Expr
