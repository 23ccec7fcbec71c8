import Mathlib

/-!
# Runs of a deterministic machine

A machine takes one event at a time; an event that is not enabled in a state
has no successor.  `Along` says that a condition holds at each step of a run,
about the state before the step.  The invariant rule: what holds at the start
and is kept by each step that meets a condition holds at the end of every run
whose steps meet it.
-/

namespace B3Chain.Machine

universe u v w

variable {State : Type u} {Event : Type v} {Record : Type w}

/-- The state after a list of events, if each of them is enabled in turn. -/
def run (step : State → Event → Option State) :
    State → List Event → Option State
  | state, [] => some state
  | state, event :: rest =>
    (step state event).bind fun next => run step next rest

/-- Each step of the run from `state` meets `condition`. -/
def Along (step : State → Event → Option State)
    (condition : State → Event → Prop) : State → List Event → Prop
  | _, [] => True
  | state, event :: rest =>
    condition state event ∧
      ∀ next, step state event = some next →
        Along step condition next rest

/-- The property holds in every state of the run from `state`. -/
def Throughout (step : State → Event → Option State)
    (property : State → Prop) : State → List Event → Prop
  | state, [] => property state
  | state, event :: rest =>
    property state ∧
      ∀ next, step state event = some next →
        Throughout step property next rest

/-- The machine with a record of its run; no step reads the record. -/
def recording (step : State → Event → Option State)
    (write : State → Event → Record → Record) (state : State × Record)
    (event : Event) : Option (State × Record) :=
  (step state.1 event).map fun next => (next, write state.1 event state.2)

/-- A run can be checked step by step. -/
instance decidableAlong (step : State → Event → Option State)
    (condition : State → Event → Prop)
    [∀ state event, Decidable (condition state event)] :
    (state : State) → (events : List Event) →
      Decidable (Along step condition state events)
  | _, [] => isTrue trivial
  | state, event :: rest =>
    match found : step state event with
    | none =>
      decidable_of_iff (condition state event) (by simp [Along, found])
    | some next =>
      have := decidableAlong step condition next rest
      decidable_of_iff
        (condition state event ∧ Along step condition next rest)
        (by simp [Along, found])

variable {step : State → Event → Option State}
  {condition property : State → Event → Prop} {invariant : State → Prop}
  {state final : State} {events : List Event}

theorem run_cons_eq_some
    {event : Event} {rest : List Event}
    (taken : run step state (event :: rest) = some final) :
    ∃ next, step state event = some next ∧ run step next rest = some final := by
  rw [run] at taken
  exact Option.bind_eq_some_iff.mp taken

theorem run_append (state : State) (left right : List Event) :
    run step state (left ++ right) =
      (run step state left).bind fun next => run step next right := by
  induction left generalizing state with
  | nil => rfl
  | cons event rest induction =>
    rw [List.cons_append, run, run, Option.bind_assoc]
    exact congrArg _ (funext fun next => induction next)

/-- A condition on events alone holds along every run of such events. -/
theorem along_of_forall
    (each : ∀ event ∈ events, ∀ state, condition state event)
    (state : State) : Along step condition state events := by
  induction events generalizing state with
  | nil => exact trivial
  | cons event rest induction =>
    refine ⟨each event List.mem_cons_self state, fun next _ => ?_⟩
    exact induction (fun later member =>
      each later (List.mem_cons_of_mem event member)) next

/-- The invariant rule for whole runs. -/
theorem run_invariant
    (kept : ∀ state event next, invariant state → condition state event →
      step state event = some next → invariant next)
    {state final : State} {events : List Event}
    (start : invariant state)
    (along : Along step condition state events)
    (taken : run step state events = some final) :
    invariant final := by
  induction events generalizing state with
  | nil =>
    rw [run, Option.some_inj] at taken
    exact taken ▸ start
  | cons event rest induction =>
    obtain ⟨next, stepped, remaining⟩ := run_cons_eq_some taken
    exact induction (kept state event next start along.1 stepped)
      (along.2 next stepped) remaining

/-- Replacing each event by one that steps alike does not change a run. -/
theorem run_map
    {change : Event → Event}
    (alike : ∀ state event, condition state event →
      step state event = step state (change event))
    (along : Along step condition state events) :
    run step state events = run step state (events.map change) := by
  induction events generalizing state with
  | nil => rfl
  | cons event rest induction =>
    rw [List.map_cons, run, run, ← alike state event along.1]
    cases stepped : step state event with
    | none => rfl
    | some next => exact induction (along.2 next stepped)

/-- What an invariant implies at each step holds along the whole run. -/
theorem along_of_invariant
    (kept : ∀ state event next, invariant state → condition state event →
      step state event = some next → invariant next)
    (implied : ∀ state event, invariant state → condition state event →
      property state event)
    (start : invariant state)
    (along : Along step condition state events) :
    Along step property state events := by
  induction events generalizing state with
  | nil => exact trivial
  | cons event rest induction =>
    refine ⟨implied state event start along.1, fun next stepped => ?_⟩
    exact induction (kept state event next start along.1 stepped)
      (along.2 next stepped)

theorem Along.imp
    (each : ∀ state event, condition state event → property state event)
    (along : Along step condition state events) :
    Along step property state events :=
  along_of_invariant (fun _ _ _ _ _ _ => trivial)
    (fun state event _ => each state event) trivial along

/-- What every step keeps, and what follows from it. -/
theorem along_of_kept
    (invariant : State → Prop)
    (kept : ∀ state event next, invariant state →
      step state event = some next → invariant next)
    (implied : ∀ state event, invariant state → property state event)
    (start : invariant state) (events : List Event) :
    Along step property state events :=
  along_of_invariant (fun state event next holds _ => kept state event next holds)
    (fun state event holds _ => implied state event holds) start
    (along_of_forall (fun _ _ _ => trivial) state)

/-- Two conditions that agree wherever an invariant holds. -/
theorem along_iff_of_invariant
    (invariant : State → Prop)
    (kept : ∀ state event next, invariant state → condition state event →
      step state event = some next → invariant next)
    (agree : ∀ state event, invariant state →
      (condition state event ↔ property state event))
    (start : invariant state) :
    Along step condition state events ↔
      Along step property state events := by
  constructor
  · exact along_of_invariant kept
      (fun state event holds => (agree state event holds).mp) start
  · refine along_of_invariant (fun state event next holds met =>
        kept state event next holds ((agree state event holds).mpr met))
      (fun state event holds => (agree state event holds).mpr) start

/--
A machine that stops once it is no longer well: it is well at the end of a run
of allowed events exactly if each step met the condition that keeps it well.
-/
theorem run_well_iff_along_of_allowed
    {invariant well : State → Prop} {allowed : Event → Prop}
    (kept : ∀ state event next, invariant state → well state →
      allowed event → step state event = some next →
        invariant next ∧ (well next ↔ condition state event))
    (stops : ∀ state event, ¬ well state → step state event = none)
    (start : invariant state) (sound : well state)
    (each : ∀ event ∈ events, allowed event)
    (taken : run step state events = some final) :
    well final ↔ Along step condition state events := by
  induction events generalizing state with
  | nil =>
    rw [run, Option.some_inj] at taken
    exact iff_of_true (taken ▸ sound) trivial
  | cons event rest induction =>
    obtain ⟨next, stepped, remaining⟩ := run_cons_eq_some taken
    obtain ⟨holds, meets⟩ := kept state event next start sound
      (each event List.mem_cons_self) stepped
    rw [Along, ← meets]
    by_cases good : well next
    · rw [induction holds good (fun later member =>
        each later (List.mem_cons_of_mem event member)) remaining]
      constructor
      · intro along
        refine ⟨good, fun other found => ?_⟩
        cases stepped.symm.trans found
        exact along
      · intro along
        exact along.2 next stepped
    · -- No event has a successor, so the run ends here.
      cases rest with
      | nil =>
        rw [run, Option.some_inj] at remaining
        exact iff_of_false (remaining ▸ good) fun along => good along.1
      | cons later more =>
        rw [run, stops next later good] at remaining
        cases remaining

/-- The same if every event is allowed. -/
theorem run_well_iff_along
    {invariant well : State → Prop}
    (kept : ∀ state event next, invariant state → well state →
      step state event = some next →
        invariant next ∧ (well next ↔ condition state event))
    (stops : ∀ state event, ¬ well state → step state event = none)
    (start : invariant state) (sound : well state)
    (taken : run step state events = some final) :
    well final ↔ Along step condition state events := by
  have each : ∀ event ∈ events, (fun _ : Event => True) event :=
    fun _ _ => trivial
  exact run_well_iff_along_of_allowed
    (fun state event next holds good _ stepped =>
      kept state event next holds good stepped) stops start sound each taken

theorem Throughout.first {property : State → Prop}
    (all : Throughout step property state events) : property state := by
  cases events with
  | nil => exact all
  | cons event rest => exact all.1

/--
What holds after a step exactly if the step meets a condition holds in every
state of a run exactly if each of its steps meets the condition.
-/
theorem throughout_iff_along
    {invariant property : State → Prop}
    (kept : ∀ state event next, invariant state →
      step state event = some next →
        (property next ↔ condition state event) ∧
          (condition state event → invariant next))
    (start : invariant state) (holds : property state)
    (taken : run step state events = some final) :
    Throughout step property state events ↔
      Along step condition state events := by
  induction events generalizing state with
  | nil => exact iff_of_true holds trivial
  | cons event rest induction =>
    obtain ⟨next, stepped, remaining⟩ := run_cons_eq_some taken
    obtain ⟨meets, keeps⟩ := kept state event next start stepped
    constructor
    · intro all
      have now := all.2 next stepped
      have met := meets.mp now.first
      refine ⟨met, fun other found => ?_⟩
      cases stepped.symm.trans found
      exact (induction (keeps met) now.first remaining).mp now
    · intro along
      refine ⟨holds, fun other found => ?_⟩
      cases stepped.symm.trans found
      exact (induction (keeps along.1) (meets.mpr along.1)
        remaining).mpr (along.2 next stepped)

/--
What never decreases is unchanged at the end of a run only if it was at each
step.
-/
theorem along_of_unchanged
    {Loss : Type*} [PartialOrder Loss] {loss : State → Loss}
    (grows : ∀ state event next, step state event = some next →
      loss state ≤ loss next ∧
        (loss next = loss state → condition state event))
    (taken : run step state events = some final) :
    loss state ≤ loss final ∧
      (loss final = loss state → Along step condition state events) := by
  induction events generalizing state with
  | nil =>
    rw [run, Option.some_inj] at taken
    exact ⟨le_of_eq (congrArg loss taken), fun _ => trivial⟩
  | cons event rest induction =>
    obtain ⟨next, stepped, remaining⟩ := run_cons_eq_some taken
    obtain ⟨first, meets⟩ := grows state event next stepped
    obtain ⟨later, along⟩ := induction remaining
    refine ⟨first.trans later, fun same => ?_⟩
    have unchanged : loss next = loss state :=
      le_antisymm (later.trans (le_of_eq same)) first
    refine ⟨meets unchanged, fun other found => ?_⟩
    cases stepped.symm.trans found
    exact along (same.trans unchanged.symm)

end B3Chain.Machine
