/-!
# Syllabus: actions one after the other

Rendering and working on files are actions that change a state and fail with the state they have
reached. What two actions do one after the other is told by what the first does.

* **`bind_ok`**, **`of_bind_eq_error`**: two actions, and which of them has failed.
* **`Raises`**: the errors that an action may fail with.
-/

namespace Syllabus.Action

variable {ε σ α β : Type} {action : EStateM ε σ α} {next : α → EStateM ε σ β}
  {state later : σ}

/-- What comes behind a success goes on from it. -/
theorem bind_ok {value : α} (h : action state = .ok value later) :
    (action >>= next) state = next value later := by
  change EStateM.bind action next state = next value later
  unfold EStateM.bind
  rw [h]

/-- What comes behind an error is not done. -/
theorem bind_error {e : ε} (h : action state = .error e later) :
    (action >>= next) state = .error e later := by
  change EStateM.bind action next state = .error e later
  unfold EStateM.bind
  rw [h]

/-- Two actions that succeed one after the other each do. -/
theorem exists_of_bind_eq_ok {value : β} (h : (action >>= next) state = .ok value later) :
    ∃ found between, action state = .ok found between ∧ next found between = .ok value later := by
  change EStateM.bind action next state = _ at h
  unfold EStateM.bind at h
  -- Had the first failed, so would both.
  split at h
  · next found between hfound => exact ⟨found, between, hfound, h⟩
  · cases h

/-- If they fail, the first does, or the second does behind it. -/
theorem of_bind_eq_error {e : ε} (h : (action >>= next) state = .error e later) :
    action state = .error e later
      ∨ ∃ found between, action state = .ok found between
        ∧ next found between = .error e later := by
  change EStateM.bind action next state = _ at h
  unfold EStateM.bind at h
  split at h
  · next found between hfound => exact .inr ⟨found, between, hfound, h⟩
  · next e' between hfound =>
    cases h
    exact .inl hfound

/-- Whether an action fails with errors of some kind only. -/
def Raises (allowed : ε → Prop) (action : EStateM ε σ α) : Prop :=
  ∀ ⦃state e later⦄, action state = .error e later → allowed e

namespace Raises

variable {allowed : ε → Prop}

theorem pure (value : α) : Raises allowed (Pure.pure value : EStateM ε σ α) := by
  intro state e later h
  cases h

theorem throw {e : ε} (he : allowed e) : Raises allowed (throw e : EStateM ε σ α) := by
  intro state found later h
  cases h
  exact he

/-- Two actions raise what each of them does. -/
theorem bind (haction : Raises allowed action) (hnext : ∀ value, Raises allowed (next value)) :
    Raises allowed (action >>= next) := by
  intro state e later h
  rcases of_bind_eq_error h with hfirst | ⟨value, between, _, hsecond⟩
  · exact haction hfirst
  · exact hnext value hsecond

/-- A loop raises what its turns do. -/
theorem forIn {items : List α} {action : α → EStateM ε σ Unit}
    (h : ∀ item ∈ items, Raises allowed (action item)) :
    Raises allowed (ForIn.forIn items PUnit.unit fun item _ => do
      action item
      Pure.pure (ForInStep.yield PUnit.unit)) := by
  -- On the items, one turn after the other.
  induction items with
  | nil => exact pure _
  | cons item items ih =>
    simp only [List.forIn_cons, bind_assoc, pure_bind]
    exact bind (h item List.mem_cons_self) fun _ => ih fun other hother => h other (.tail _ hother)

/-- With its errors put into other words, an action raises these. -/
theorem adaptExcept {ε' : Type} {others : ε' → Prop} (h : Raises allowed action) {wrap : ε → ε'}
    (hwrap : ∀ e, allowed e → others (wrap e)) :
    Raises others (action.adaptExcept wrap : EStateM ε' σ α) := by
  intro state e later hresult
  unfold EStateM.adaptExcept at hresult
  split at hresult
  · next cause between hcause =>
    cases hresult
    -- The error comes from one that the action itself raises.
    exact hwrap cause (h hcause)
  · cases hresult

end Raises

end Syllabus.Action
