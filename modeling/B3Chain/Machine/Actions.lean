import Mathlib

/-!
# Actions that change a state and may throw

What an action changed before it threw stays changed, so an action gives an
outcome and a state in every case.  Of a state often only a part matters: an
action is quiet for that part if it leaves it alone, and what an action leads to
is said of the part before and after it.
-/

namespace B3Chain.Machine

variable {ε State α β View : Type}

/-- An action on a state, with exceptions. -/
abbrev Action (ε State α : Type) := ExceptT ε (StateM State) α

namespace Action

/-- The outcome of an action and the state it leaves. -/
def perform (action : Action ε State α) (state : State) :
    Except ε α × State :=
  action.run.run state

@[simp]
theorem perform_pure (value : α) (state : State) :
    (pure value : Action ε State α).perform state = (.ok value, state) := rfl

@[simp]
theorem perform_throw (thrown : ε) (state : State) :
    (throw thrown : Action ε State α).perform state = (.error thrown, state) :=
  rfl

@[simp]
theorem perform_modify (change : State → State) (state : State) :
    (modify change : Action ε State PUnit).perform state =
      (.ok ⟨⟩, change state) := rfl

@[simp]
theorem ofExcept_ok (value : α) :
    (MonadExcept.ofExcept (.ok value) : Action ε State α) = pure value := rfl

theorem perform_bind (action : Action ε State α)
    (next : α → Action ε State β) (state : State) :
    (action >>= next).perform state =
      match action.perform state with
      | (.ok value, changed) => (next value).perform changed
      | (.error thrown, changed) => (.error thrown, changed) := by
  rw [perform, perform, ExceptT.run_bind, StateT.run_bind]
  obtain ⟨outcome, changed⟩ := action.run.run state
  cases outcome with
  | error thrown => rfl
  | ok value => rfl

theorem perform_tryCatch (action : Action ε State α)
    (handler : ε → Action ε State α) (state : State) :
    (tryCatch action handler).perform state =
      match action.perform state with
      | (.ok value, changed) => (.ok value, changed)
      | (.error thrown, changed) => (handler thrown).perform changed := by
  rw [perform, perform, ExceptT.run_tryCatch, StateT.run_bind]
  obtain ⟨outcome, changed⟩ := action.run.run state
  cases outcome with
  | error thrown => rfl
  | ok value => rfl

/-- The action throws in no state. -/
def Returns (action : Action ε State α) : Prop :=
  ∀ state, ∃ value, (action.perform state).1 = .ok value

theorem returns_pure (value : α) :
    (pure value : Action ε State α).Returns :=
  fun _ => ⟨value, rfl⟩

theorem returns_modify (change : State → State) :
    (modify change : Action ε State PUnit).Returns :=
  fun _ => ⟨⟨⟩, rfl⟩

variable {action : Action ε State α} {next : α → Action ε State β}

theorem returns_bind (first : action.Returns)
    (later : ∀ value, (next value).Returns) : (action >>= next).Returns := by
  intro state
  obtain ⟨value, returned⟩ := first state
  rw [perform_bind]
  cases performed : action.perform state with
  | mk outcome changed =>
    rw [performed] at returned
    cases returned
    exact later value changed

/-- What the action returns, if it returns. -/
def Yields (action : Action ε State α) (post : α → Prop) : Prop :=
  ∀ state value, (action.perform state).1 = .ok value → post value

theorem yields_pure {post : α → Prop} {value : α} (holds : post value) :
    (pure value : Action ε State α).Yields post := by
  rintro state _ ⟨⟩
  exact holds

theorem yields_bind {post : β → Prop}
    (later : ∀ value, (next value).Yields post) :
    (action >>= next).Yields post := by
  intro state value returned
  rw [perform_bind] at returned
  cases performed : action.perform state with
  | mk outcome changed =>
    rw [performed] at returned
    cases outcome with
    | error thrown => cases returned
    | ok first => exact later first changed value returned

/-! ## A part of the state -/

/-- The action leaves the part of the state alone. -/
def Quiet (view : State → View) (action : Action ε State α) : Prop :=
  ∀ state, view (action.perform state).2 = view state

variable {view : State → View}

theorem quiet_pure (value : α) :
    (pure value : Action ε State α).Quiet view :=
  fun _ => rfl

theorem quiet_throw (thrown : ε) :
    (throw thrown : Action ε State α).Quiet view :=
  fun _ => rfl

theorem quiet_modify {change : State → State}
    (same : ∀ state, view (change state) = view state) :
    (modify change : Action ε State PUnit).Quiet view :=
  same

theorem quiet_get : (get : Action ε State State).Quiet view :=
  fun _ => rfl

theorem quiet_ofExcept (outcome : Except ε α) :
    (MonadExcept.ofExcept outcome : Action ε State α).Quiet view := by
  cases outcome with
  | error thrown => exact quiet_throw thrown
  | ok value => exact quiet_pure value

theorem quiet_bind (first : action.Quiet view)
    (later : ∀ value, (next value).Quiet view) :
    (action >>= next).Quiet view := by
  intro state
  have same := first state
  rw [perform_bind]
  cases performed : action.perform state with
  | mk outcome changed =>
    rw [performed] at same
    cases outcome with
    | error thrown => exact same
    | ok value => exact (later value changed).trans same

theorem quiet_tryCatch {handler : ε → Action ε State α}
    (first : action.Quiet view)
    (handled : ∀ thrown, (handler thrown).Quiet view) :
    (tryCatch action handler).Quiet view := by
  intro state
  have same := first state
  rw [perform_tryCatch]
  cases performed : action.perform state with
  | mk outcome changed =>
    rw [performed] at same
    cases outcome with
    | error thrown => exact (handled thrown changed).trans same
    | ok value => exact same

/-! ## Invariants -/

/-- Whether it returns or throws, the action keeps the property. -/
def Keeps (invariant : State → Prop) (action : Action ε State α) : Prop :=
  ∀ state, invariant state → invariant (action.perform state).2

variable {invariant : State → Prop}

theorem keeps_of_quiet {property : View → Prop} (quiet : action.Quiet view) :
    action.Keeps fun state => property (view state) := by
  intro state holds
  rw [quiet state]
  exact holds

theorem keeps_modify {change : State → State}
    (kept : ∀ state, invariant state → invariant (change state)) :
    (modify change : Action ε State PUnit).Keeps invariant :=
  kept

theorem keeps_bind (first : action.Keeps invariant)
    (later : ∀ value, (next value).Keeps invariant) :
    (action >>= next).Keeps invariant := by
  intro state holds
  have reached := first state holds
  rw [perform_bind]
  cases performed : action.perform state with
  | mk outcome changed =>
    rw [performed] at reached
    cases outcome with
    | error thrown => exact reached
    | ok value => exact later value changed reached

theorem keeps_tryCatch {handler : ε → Action ε State α}
    (first : action.Keeps invariant)
    (handled : ∀ thrown, (handler thrown).Keeps invariant) :
    (tryCatch action handler).Keeps invariant := by
  intro state holds
  have reached := first state holds
  rw [perform_tryCatch]
  cases performed : action.perform state with
  | mk outcome changed =>
    rw [performed] at reached
    cases outcome with
    | error thrown => exact handled thrown changed reached
    | ok value => exact reached

/--
From the states with one property the action leads to states with the other,
whether it returns or throws.
-/
def Turns (before after : State → Prop) (action : Action ε State α) : Prop :=
  ∀ state, before state → after (action.perform state).2

variable {before after : State → Prop}

theorem turns_bind {middle : State → Prop}
    (first : action.Turns before middle)
    (thrown : ∀ state, middle state → after state)
    (later : ∀ value, (next value).Turns middle after) :
    (action >>= next).Turns before after := by
  intro state holds
  have reached := first state holds
  rw [perform_bind]
  cases performed : action.perform state with
  | mk outcome changed =>
    rw [performed] at reached
    cases outcome with
    | error error => exact thrown changed reached
    | ok value => exact later value changed reached

end Action

end B3Chain.Machine
