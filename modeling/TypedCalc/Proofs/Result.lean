/-!
# Results of steps that may fail

* `Result.bind_eq_ok_iff` and `Result.bind_eq_error_iff`: what two steps in a row give.
* `Result.FailsOnly`: a property of every error that a step can end with, which steps in a row
  share.
* `Result.GivesOnly`: a property of every value that a step can give.
* `Result.Cut`: what a result becomes when something can run out before it is reached.
-/

namespace TypedCalc.Result

variable {ε α β : Type} {first : Except ε α} {next : α → Except ε β}

theorem bind_eq_ok_iff {b : β} :
    (first >>= next) = .ok b ↔ ∃ a, first = .ok a ∧ next a = .ok b := by
  cases first with
  | error fault => exact ⟨nofun, fun ⟨_, h, _⟩ => nomatch h⟩
  | ok a => exact ⟨fun h => ⟨a, rfl, h⟩, fun ⟨_, rfl, h⟩ => h⟩

theorem bind_eq_error_iff {fault : ε} :
    (first >>= next) = .error fault ↔
      first = .error fault ∨ ∃ a, first = .ok a ∧ next a = .error fault := by
  cases first with
  | error fault' =>
    constructor
    · intro h
      cases h
      exact .inl rfl
    · rintro (h | ⟨_, h, _⟩) <;> cases h
      rfl
  | ok a =>
    constructor
    · exact fun h => .inr ⟨a, rfl, h⟩
    · rintro (h | ⟨_, h, hnext⟩) <;> cases h
      exact hnext

theorem mapError_eq_ok_iff {ε' : Type} {result : Except ε α} {f : ε → ε'} {a : α} :
    result.mapError f = .ok a ↔ result = .ok a := by
  cases result with
  | ok found => exact ⟨(fun h => congrArg Except.ok (Except.ok.inj h)), fun h => h ▸ rfl⟩
  | error fault => exact ⟨(fun h => nomatch h), fun h => nomatch h⟩

theorem mapError_eq_error_iff {ε' : Type} {result : Except ε α} {f : ε → ε'} {fault : ε'} :
    result.mapError f = .error fault ↔ ∃ inner, result = .error inner ∧ f inner = fault := by
  cases result with
  | ok found => exact ⟨(fun h => nomatch h), fun ⟨_, h, _⟩ => nomatch h⟩
  | error inner =>
    constructor
    · exact fun h => ⟨inner, rfl, Except.error.inj h⟩
    · rintro ⟨_, ⟨⟩, rfl⟩
      rfl

/-- Changing the errors of two steps in a row changes those of each. -/
theorem mapError_bind {ε' : Type} (f : ε → ε') :
    (first >>= next).mapError f = first.mapError f >>= fun a => (next a).mapError f := by
  cases first <;> rfl

/-! ## Properties of errors -/

/-- Whether every error that a result can be has a property. -/
def FailsOnly (p : ε → Prop) (result : Except ε α) : Prop :=
  ∀ fault, result = .error fault → p fault

namespace FailsOnly

variable {p q : ε → Prop}

theorem ok (a : α) : FailsOnly p (.ok a) := fun _ h => nomatch h

theorem error {fault : ε} (h : p fault) : FailsOnly p (.error fault : Except ε α) := by
  rintro _ ⟨⟩
  exact h

theorem mono {result : Except ε α} (h : FailsOnly p result) (hpq : ∀ fault, p fault → q fault) :
    FailsOnly q result := fun fault hresult => hpq fault (h fault hresult)

theorem bind (hfirst : FailsOnly p first) (hnext : ∀ a, first = .ok a → FailsOnly p (next a)) :
    FailsOnly p (first >>= next) := by
  intro fault h
  rcases bind_eq_error_iff.mp h with h | ⟨a, ha, h⟩
  · exact hfirst fault h
  · exact hnext a ha fault h

theorem map {result : Except ε α} (h : FailsOnly p result) (f : α → β) :
    FailsOnly p (result.map f) := by
  cases result with
  | ok a => exact ok (f a)
  | error fault => exact error (h fault rfl)

theorem mapError {ε' : Type} {r : ε' → Prop} {result : Except ε α} {f : ε → ε'}
    (h : FailsOnly (fun fault => r (f fault)) result) : FailsOnly r (result.mapError f) := by
  cases result with
  | ok a => exact ok a
  | error fault => exact error (h fault rfl)

end FailsOnly

/-- Changing errors does nothing if none of them changes. -/
theorem mapError_eq_self {result : Except ε α} {f : ε → ε}
    (h : FailsOnly (fun fault => f fault = fault) result) : result.mapError f = result := by
  cases result with
  | ok a => rfl
  | error fault => exact congrArg Except.error (h fault rfl)

/-! ## Properties of values -/

/-- Whether every value that a result can be has a property. -/
def GivesOnly (p : α → Prop) (result : Except ε α) : Prop :=
  ∀ a, result = .ok a → p a

namespace GivesOnly

variable {p : α → Prop} {q : β → Prop}

theorem ok {a : α} (h : p a) : GivesOnly p (.ok a : Except ε α) := by
  rintro _ ⟨⟩
  exact h

theorem error (fault : ε) : GivesOnly p (.error fault : Except ε α) := fun _ h => nomatch h

theorem bind (hfirst : GivesOnly p first) (hnext : ∀ a, p a → GivesOnly q (next a)) :
    GivesOnly q (first >>= next) := by
  intro b h
  obtain ⟨a, ha, hb⟩ := bind_eq_ok_iff.mp h
  exact hnext a (hfirst a ha) b hb

theorem bind_of_forall (hnext : ∀ a, GivesOnly q (next a)) : GivesOnly q (first >>= next) := by
  intro b h
  obtain ⟨a, -, hb⟩ := bind_eq_ok_iff.mp h
  exact hnext a b hb

theorem map {result : Except ε α} {f : α → β} (h : GivesOnly (fun a => q (f a)) result) :
    GivesOnly q (result.map f) := by
  cases result with
  | ok a => exact ok (h a rfl)
  | error fault => exact error fault

theorem mapError {ε' : Type} {result : Except ε α} (h : GivesOnly p result) (f : ε → ε') :
    GivesOnly p (result.mapError f) :=
  fun a ha => h a (mapError_eq_ok_iff.mp ha)

end GivesOnly

/-! ## Running out -/

/-- Whether a result is another one, or an error that is there because there is no room for it. -/
def Cut (p : ε → Prop) (room : Prop) (short full : Except ε α) : Prop :=
  short = full ∨ ¬ room ∧ ∃ fault, short = .error fault ∧ p fault

namespace Cut

variable {p : ε → Prop} {room room' : Prop}

theorem refl (result : Except ε α) : Cut p room result result := .inl rfl

theorem mono {short full : Except ε α} (h : Cut p room short full) (hroom : room' → room) :
    Cut p room' short full :=
  h.imp_right fun ⟨hnot, hfault⟩ => ⟨fun h => hnot (hroom h), hfault⟩

/-- Two steps in a row are cut where one of them is. -/
theorem bind {first' : Except ε α} {next' : α → Except ε β} (hfirst : Cut p room first first')
    (hnext : ∀ a, Cut p room (next a) (next' a)) :
    Cut p room (first >>= next) (first' >>= next') := by
  rcases hfirst with rfl | ⟨hroom, fault, rfl, hfault⟩
  · cases first with
    | error fault => exact .inl rfl
    | ok a => exact hnext a
  · exact .inr ⟨hroom, fault, rfl, hfault⟩

theorem eq_of_room {short full : Except ε α} (h : Cut p room short full) (hroom : room) :
    short = full :=
  h.resolve_right fun hcut => hcut.1 hroom

end Cut

end TypedCalc.Result
