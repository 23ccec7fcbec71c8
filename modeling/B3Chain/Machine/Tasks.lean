import B3Chain.Machine.Run

/-!
# Tasks that share a store

Asynchronous runs are interleaved at the points where they wait.  A task that
is resumed with a reply changes the store and waits again or ends; tasks are
started, killed, and the store is changed from outside.  Two rules: what every
task keeps for itself and for the others holds in every run, and a key that is
open in the store is served by a task if every step that opens a key, or ends
a task that serves it, leaves one that does.
-/

namespace B3Chain.Machine

universe u v w x y

/-- A store and the tasks that wait. -/
structure System (Store : Type u) (Task : Type v) where
  store : Store
  tasks : Nat → Option Task

/-- What can happen to a system. -/
inductive TaskEvent (Task : Type v) (Reply : Type w) (Change : Type x)
  | spawn (index : Nat) (task : Task)
  | resume (index : Nat) (reply : Reply)
  | kill (dead : Task → Bool)
  | change (change : Change)

/-- How tasks start and go on, and how the store is changed from outside. -/
structure Program (Store : Type u) (Task : Type v) (Reply : Type w)
    (Change : Type x) where
  start : System Store Task → Task → Bool
  resume : Store → Task → Reply → Option (Store × Option Task)
  change : Store → Change → Option Store

variable {Store : Type u} {Task : Type v} {Reply : Type w} {Change : Type x}

/-- A system in which no task waits. -/
def System.idle (store : Store) : System Store Task where
  store := store
  tasks := fun _ => none

namespace Program

variable (program : Program Store Task Reply Change)

/-- One event. -/
def step (system : System Store Task) :
    TaskEvent Task Reply Change → Option (System Store Task)
  | .spawn index task =>
    if (system.tasks index).isNone ∧ program.start system task then
      some { system with
        tasks := Function.update system.tasks index (some task) }
    else none
  | .resume index reply =>
    (system.tasks index).bind fun task =>
      (program.resume system.store task reply).map fun result =>
        { store := result.1
          tasks := Function.update system.tasks index result.2 }
  | .kill dead =>
    some { system with
      tasks := fun index => (system.tasks index).filter fun task =>
        !dead task }
  | .change change =>
    (program.change system.store change).map fun store =>
      { system with store }

/-- The condition of a step, given part by part. -/
structure Condition (Store : Type u) (Task : Type v) (Reply : Type w)
    (Change : Type x) where
  resume : Store → Task → Reply → Prop
  kill : Task → Prop
  change : Store → Change → Prop

/-- The step meets the condition. -/
def Meets (condition : Condition Store Task Reply Change)
    (system : System Store Task) : TaskEvent Task Reply Change → Prop
  | .spawn _ _ => True
  | .resume index reply =>
    ∀ task, system.tasks index = some task →
      condition.resume system.store task reply
  | .kill dead =>
    ∀ index task, system.tasks index = some task → dead task →
      condition.kill task
  | .change change => condition.change system.store change

variable {program} {condition : Condition Store Task Reply Change}

/-- After one place was written a task is the written one or an old one. -/
theorem update_eq_some {tasks : Nat → Option Task} {index other : Nat}
    {after : Option Task} {later : Task}
    (found : Function.update tasks index after other = some later) :
    after = some later ∨ tasks other = some later := by
  by_cases same : other = index
  · rw [same, Function.update_self] at found
    exact .inl found
  · rw [Function.update_of_ne same] at found
    exact .inr found

/-- A task at another place is still there. -/
theorem update_of_apart {tasks : Nat → Option Task} {index other : Nat}
    (after : Option Task) {waiting : Task} (apart : other ≠ index)
    (found : tasks other = some waiting) :
    Function.update tasks index after other = some waiting :=
  (Function.update_of_ne apart after tasks).trans found

/-- What one task keeps for the store, for itself and for the others. -/
structure Keeps (program : Program Store Task Reply Change)
    (condition : Condition Store Task Reply Change)
    (shared : Store → Prop) (own : Store → Task → Prop) : Prop where
  start : ∀ system task, program.start system task → shared system.store →
    own system.store task
  resume : ∀ store task reply next after, shared store → own store task →
    condition.resume store task reply →
      program.resume store task reply = some (next, after) →
        shared next ∧ ∀ later, after = some later → own next later
  others : ∀ store task reply next after other, shared store →
    condition.resume store task reply →
      program.resume store task reply = some (next, after) →
        own store other → own next other
  change : ∀ store change next, shared store →
    condition.change store change → program.change store change = some next →
      shared next ∧ ∀ other, own store other → own next other

/-- The invariant of a system. -/
def Holds (shared : Store → Prop) (own : Store → Task → Prop)
    (system : System Store Task) : Prop :=
  shared system.store ∧
    ∀ index task, system.tasks index = some task → own system.store task

theorem holds_idle {shared : Store → Prop} {own : Store → Task → Prop}
    {store : Store} (start : shared store) :
    Holds shared own (System.idle store) :=
  ⟨start, fun _ _ waiting => nomatch waiting⟩

theorem step_holds {shared : Store → Prop} {own : Store → Task → Prop}
    (keeps : Keeps program condition shared own)
    (system : System Store Task) (event : TaskEvent Task Reply Change)
    (next : System Store Task) (holds : Holds shared own system)
    (meets : Meets condition system event)
    (taken : program.step system event = some next) :
    Holds shared own next := by
  obtain ⟨store, tasks⟩ := holds
  cases event with
  | spawn index task =>
    rw [step] at taken
    split at taken
    · next allowed =>
        cases taken
        refine ⟨store, fun other waiting found => ?_⟩
        obtain started | before := update_eq_some found
        · cases started
          exact keeps.start system task allowed.2 store
        · exact tasks other waiting before
    · cases taken
  | resume index reply =>
    obtain ⟨task, waiting, resumed⟩ := Option.bind_eq_some_iff.mp taken
    obtain ⟨⟨changed, after⟩, result, rfl⟩ :=
      Option.map_eq_some_iff.mp resumed
    have allowed := meets task waiting
    obtain ⟨kept, mine⟩ := keeps.resume system.store task reply changed
      after store (tasks index task waiting) allowed result
    refine ⟨kept, fun other later found => ?_⟩
    obtain went | before := update_eq_some found
    · exact mine later went
    · exact keeps.others system.store task reply changed after later store
        allowed result (tasks other later before)
  | kill dead =>
    cases taken
    refine ⟨store, fun other later found => ?_⟩
    exact tasks other later (Option.filter_eq_some_iff.mp found).1
  | change change =>
    obtain ⟨changed, result, rfl⟩ := Option.map_eq_some_iff.mp taken
    obtain ⟨kept, others⟩ :=
      keeps.change system.store change changed store meets result
    exact ⟨kept, fun other later found =>
      others later (tasks other later found)⟩

/-- The invariant rule for whole runs of tasks. -/
theorem run_holds {shared : Store → Prop} {own : Store → Task → Prop}
    (keeps : Keeps program condition shared own)
    {system final : System Store Task}
    {events : List (TaskEvent Task Reply Change)}
    (start : Holds shared own system)
    (along : Along program.step (Meets condition) system events)
    (taken : run program.step system events = some final) :
    Holds shared own final :=
  run_invariant (step_holds keeps) start along taken

/-! ## Checking a run -/

section

variable (condition)
  [∀ store task reply, Decidable (condition.resume store task reply)]
  [∀ store change, Decidable (condition.change store change)]

/-- Whether a step that kills no task meets the condition. -/
def checks (system : System Store Task) :
    TaskEvent Task Reply Change → Bool
  | .spawn _ _ => true
  | .resume index reply =>
    (system.tasks index).all fun task =>
      decide (condition.resume system.store task reply)
  | .kill _ => false
  | .change change => decide (condition.change system.store change)

theorem along_of_checks {system : System Store Task}
    {events : List (TaskEvent Task Reply Change)}
    (checked : Along program.step
      (fun before event => checks condition before event = true) system
        events) :
    Along program.step (Meets condition) system events := by
  refine along_of_invariant (fun _ _ _ _ _ _ => trivial)
    (fun before event _ passed => ?_) trivial checked
  cases event with
  | spawn index task => exact trivial
  | resume index reply =>
    intro task waiting
    rw [checks, waiting, Option.all_some, decide_eq_true_eq] at passed
    exact passed
  | kill dead => cases passed
  | change change =>
    rw [checks, decide_eq_true_eq] at passed
    exact passed

end

/-! ## Keys that are served -/

/-- Every key that is open in the store is served by a task. -/
def Covered {Key : Type y} (opened : Store → Key → Prop)
    (serves : Task → Key → Prop) (system : System Store Task) : Prop :=
  ∀ key, opened system.store key →
    ∃ index task, system.tasks index = some task ∧ serves task key

/-- What a task that goes on keeps for the keys it serves. -/
structure Serves {Key : Type y} (program : Program Store Task Reply Change)
    (condition : Condition Store Task Reply Change)
    (opened : Store → Key → Prop) (serves : Task → Key → Prop) : Prop where
  resume : ∀ store task reply next after key,
    condition.resume store task reply →
      program.resume store task reply = some (next, after) →
        opened next key →
          (∃ later, after = some later ∧ serves later key) ∨
            (opened store key ∧ ¬ serves task key)
  kill : ∀ task key, condition.kill task → ¬ serves task key
  change : ∀ store change next key, condition.change store change →
    program.change store change = some next → opened next key →
      opened store key

theorem step_covered {Key : Type y} {opened : Store → Key → Prop}
    {serves : Task → Key → Prop}
    (keeps : Serves program condition opened serves)
    (system : System Store Task) (event : TaskEvent Task Reply Change)
    (next : System Store Task) (covered : Covered opened serves system)
    (meets : Meets condition system event)
    (taken : program.step system event = some next) :
    Covered opened serves next := by
  intro key isOpen
  cases event with
  | spawn index task =>
    rw [step] at taken
    split at taken
    · next allowed =>
        cases taken
        obtain ⟨other, waiting, found, serving⟩ := covered key isOpen
        refine ⟨other, waiting, ?_, serving⟩
        have apart : other ≠ index := by
          rintro rfl
          rw [found] at allowed
          exact absurd allowed.1 (by simp)
        exact update_of_apart _ apart found
    · cases taken
  | resume index reply =>
    obtain ⟨task, waiting, resumed⟩ := Option.bind_eq_some_iff.mp taken
    obtain ⟨⟨changed, after⟩, result, rfl⟩ :=
      Option.map_eq_some_iff.mp resumed
    obtain ⟨later, went, serving⟩ | ⟨before, idle⟩ := keeps.resume
      system.store task reply changed after key (meets task waiting) result
      isOpen
    · refine ⟨index, later, ?_, serving⟩
      exact (Function.update_self index after system.tasks).trans went
    · obtain ⟨other, helper, found, serving⟩ := covered key before
      refine ⟨other, helper, ?_, serving⟩
      have apart : other ≠ index := by
        rintro rfl
        cases waiting.symm.trans found
        exact idle serving
      exact update_of_apart after apart found
  | kill dead =>
    cases taken
    obtain ⟨other, waiting, found, serving⟩ := covered key isOpen
    refine ⟨other, waiting, ?_, serving⟩
    refine Option.filter_eq_some_iff.mpr ⟨found, ?_⟩
    cases killed : dead waiting with
    | false => rfl
    | true =>
      exact absurd serving
        (keeps.kill waiting key (meets other waiting found killed))
  | change change =>
    obtain ⟨changed, result, rfl⟩ := Option.map_eq_some_iff.mp taken
    exact covered key
      (keeps.change system.store change changed key meets result isOpen)

/-- In every run whose steps meet the condition the open keys are served. -/
theorem run_covered {Key : Type y} {opened : Store → Key → Prop}
    {serves : Task → Key → Prop}
    (keeps : Serves program condition opened serves)
    {system final : System Store Task}
    {events : List (TaskEvent Task Reply Change)}
    (start : Covered opened serves system)
    (along : Along program.step (Meets condition) system events)
    (taken : run program.step system events = some final) :
    Covered opened serves final :=
  run_invariant (step_covered keeps) start along taken

end Program

end B3Chain.Machine
