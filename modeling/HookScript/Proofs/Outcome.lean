import HookScript.Text.Basic

/-!
# Steps that may fail

A reader or a loader is a sequence of steps, each of which gives a result or an
error.  These are the few laws of such sequences: a sequence succeeds if all its
steps do, and ends with the first error.
-/

namespace HookScript.Outcome

variable {ε α β : Type}

@[simp]
theorem ok_bind (value : α) (next : α → Except ε β) : (Except.ok value >>= next) = next value :=
  rfl

@[simp]
theorem pure_eq_ok (value : α) : (pure value : Except ε α) = .ok value := rfl

theorem bind_eq_ok {first : Except ε α} {next : α → Except ε β} {result : β} :
    (first >>= next) = .ok result ↔ ∃ value, first = .ok value ∧ next value = .ok result := by
  cases first with
  | error error => exact ⟨nofun, nofun⟩
  | ok value =>
    constructor
    · intro done
      exact ⟨value, rfl, done⟩
    · intro parts
      rcases parts with ⟨same, found, done⟩
      cases found
      exact done

theorem bind_eq_error {first : Except ε α} {next : α → Except ε β} {error : ε} :
    (first >>= next) = .error error ↔
      first = .error error ∨ ∃ value, first = .ok value ∧ next value = .error error := by
  cases first with
  | error here =>
    constructor
    · intro failed
      cases failed
      exact Or.inl rfl
    · intro either
      rcases either with failed | ⟨value, impossible, _⟩
      · cases failed
        rfl
      · cases impossible
  | ok value =>
    constructor
    · intro failed
      exact Or.inr ⟨value, rfl, failed⟩
    · intro either
      rcases either with impossible | ⟨same, found, failed⟩
      · cases impossible
      · cases found
        exact failed

theorem map_eq_ok {f : α → β} {first : Except ε α} {result : β} :
    (f <$> first) = .ok result ↔ ∃ value, first = .ok value ∧ f value = result := by
  cases first with
  | error error => exact ⟨nofun, nofun⟩
  | ok value =>
    constructor
    · intro done
      exact ⟨value, rfl, Except.ok.inj done⟩
    · intro parts
      rcases parts with ⟨same, found, rfl⟩
      cases found
      rfl

theorem toOption_bind_ok (first : Except ε α) (f : α → β) :
    (first >>= fun value => .ok (f value)).toOption = first.toOption.map f := by
  cases first with
  | error error => rfl
  | ok value => rfl

/-- A check in front of the remaining steps. -/
theorem check_eq_ok {condition : Prop} [Decidable condition] {error : ε}
    {next : Unit → Except ε β} {result : β} :
    (if condition then throw error >>= next else next ()) = .ok result ↔
      ¬condition ∧ next () = .ok result := by
  by_cases holds : condition
  · rw [if_pos holds]
    exact ⟨nofun, fun passed => (passed.1 holds).elim⟩
  · rw [if_neg holds]
    exact ⟨fun done => ⟨holds, done⟩, And.right⟩

end HookScript.Outcome
