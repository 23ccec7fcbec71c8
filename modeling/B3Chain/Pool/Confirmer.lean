import B3Chain.Machine.Tasks
import B3Chain.Pool.Ledger

/-!
# Recording, confirming and crediting blocks

`recordFoundBlock`, `BlockConfirmer.tick` with `creditPplns`, and the command
`recompute-pplns`, each as a task that waits before every statement and every
call of the node.  A statement runs, fails without effect, or runs while an
error is reported; the transaction of `creditPplns` is one statement.
-/

namespace B3Chain.Pool

open Words Machine

/-- What a statement or a call of the node comes back with. -/
inductive Reply
  | done
  | nothing
  | failed
  | lost
  | block (confirmations : Int)
  deriving DecidableEq

/-- A statement that writes: the tables and whether it returned. -/
def statement (db next : Database) : Reply → Option (Database × Bool)
  | .done => some (next, true)
  | .failed => some (db, false)
  | .lost => some (next, false)
  | _ => none

/-! ## `creditPplns` -/

/-- Where `creditPplns` waits. -/
inductive Crediting
  | select (id : Nat)
  | shares (id : Nat) (reward foundAt : Int)
  | commit (id : Nat) (reward : Int) (window : List ShareRow)

/-- The block that is credited. -/
def Crediting.id : Crediting → Nat
  | .select id => id
  | .shares id _ _ => id
  | .commit id _ _ => id

/-- How a part of `creditPplns` ends. -/
inductive CreditResult
  | waits (next : Crediting)
  | returned
  | threw

/-- `creditPplns` from one wait to the next. -/
def creditResume (config : PoolConfig) (db : Database) :
    Crediting → Reply → Option (Database × CreditResult)
  | .select id, .done =>
    match db.selectConfirmed id with
    | none => some (db, .returned)
    | some row =>
      if row.pplnsCredited then some (db, .returned)
      else some (db, .waits (.shares id row.rewardB3c row.foundAt))
  | .shares id reward foundAt, .done =>
    some (db, .waits
      (.commit id reward (lastShares config db.shares foundAt)))
  | .select _, .failed => some (db, .threw)
  | .shares _ _ _, .failed => some (db, .threw)
  | .commit id reward window, reply =>
    (statement db (db.credit config id reward window) reply).map
      fun (next, returned) =>
        (next, if returned then .returned else .threw)
  | _, _ => none

/-! ## `BlockConfirmer.tick` -/

/-- What a tick keeps of a row it selected. -/
structure Picked where
  id : Nat
  hash : JsString

/-- Where a tick waits. -/
inductive TickStage
  | select
  | getBlock (block : Picked) (rest : List Picked)
  | orphan (id : Nat) (confirmations : Int) (rest : List Picked)
  | count (id : Nat) (confirmations : Int) (rest : List Picked)
  | confirm (id : Nat) (rest : List Picked)
  | credit (crediting : Crediting) (rest : List Picked)

/-- The next row of a tick. -/
def tickNext : List Picked → Option TickStage
  | [] => none
  | block :: rest => some (.getBlock block rest)

/-- The tick after a part of `creditPplns`; what it throws is caught. -/
def tickAfter (rest : List Picked) : CreditResult → Option TickStage
  | .waits next => some (.credit next rest)
  | .returned => tickNext rest
  | .threw => tickNext rest

/-- `tick` and `checkOne` from one wait to the next. -/
def tickResume (config : PoolConfig) (db : Database) :
    TickStage → Reply → Option (Database × Option TickStage)
  | .select, .done =>
    some (db, tickNext (db.selectUnconfirmed.map fun row =>
      { id := row.id, hash := row.hash }))
  | .select, .failed => some (db, none)
  | .getBlock block rest, .nothing => some (db, some (.orphan block.id 0 rest))
  | .getBlock block rest, .block confirmations =>
    if confirmations < 0 then
      some (db, some (.orphan block.id confirmations rest))
    else some (db, some (.count block.id confirmations rest))
  | .getBlock _ rest, .failed => some (db, tickNext rest)
  | .orphan id confirmations rest, reply =>
    (statement db (db.updateBlock id (.orphan confirmations)) reply).map
      fun (next, _) => (next, tickNext rest)
  | .count id confirmations rest, reply =>
    (statement db (db.updateBlock id (.count confirmations)) reply).map
      fun (next, returned) =>
        (next,
          if returned ∧ config.blockConfirmations ≤ confirmations then
            some (.confirm id rest)
          else tickNext rest)
  | .confirm id rest, reply =>
    (statement db (db.updateBlock id .confirm) reply).map
      fun (next, returned) =>
        (next,
          if returned then some (.credit (.select id) rest)
          else tickNext rest)
  | .credit crediting rest, reply =>
    (creditResume config db crediting reply).map fun (next, result) =>
      (next, tickAfter rest result)
  | _, _ => none

/-! ## `recompute-pplns` -/

/-- Where the command waits. -/
inductive RecomputeStage
  | delete (id : Nat) (rest : List Nat)
  | unmark (id : Nat) (rest : List Nat)
  | credit (crediting : Crediting) (rest : List Nat)

/-- The next block of the command. -/
def recomputeNext : List Nat → Option RecomputeStage
  | [] => none
  | id :: rest => some (.delete id rest)

/-- The command after a part of `creditPplns`; what it throws ends it. -/
def recomputeAfter (rest : List Nat) : CreditResult → Option RecomputeStage
  | .waits next => some (.credit next rest)
  | .returned => recomputeNext rest
  | .threw => none

/-- The command from one wait to the next. -/
def recomputeResume (config : PoolConfig) (db : Database) :
    RecomputeStage → Reply → Option (Database × Option RecomputeStage)
  | .delete id rest, reply =>
    (statement db (db.deleteEntries id) reply).map fun (next, returned) =>
      (next, if returned then some (.unmark id rest) else none)
  | .unmark id rest, reply =>
    (statement db (db.updateBlock id .uncredit) reply).map
      fun (next, returned) =>
        (next, if returned then some (.credit (.select id) rest) else none)
  | .credit crediting rest, reply =>
    (creditResume config db crediting reply).map fun (next, result) =>
      (next, recomputeAfter rest result)

/-! ## `recordFoundBlock` -/

/-- What the recorder reads of a `ShareEvent` that is a block. -/
structure Found where
  hash : JsString
  blockHeight : Option Int
  timestampMs : Int

/-- A block as the node has it. -/
structure NodeBlock where
  height : Int
  outputs : List Int

/-- Where the recorder waits. -/
inductive RecordStage
  | existing (found : Found)
  | getBlock (found : Found)
  | coinbase (found : Found) (height : Int)
  | finder (found : Found) (height reward : Int)
  | worker (found : Found) (height reward : Int)
  | insert (found : Found) (height reward : Int)

/-- `recordFoundBlock` from one wait to the next. -/
def recordResume (node : JsString → NodeBlock) (db : Database) :
    RecordStage → Reply → Option (Database × Option RecordStage)
  | .existing found, .done =>
    if db.blocks.any fun row => row.hash = found.hash then some (db, none)
    else some (db, some (.getBlock found))
  | .existing _, .failed => some (db, none)
  | .getBlock found, .block _ =>
    some (db, some (.coinbase found (node found.hash).height))
  -- Without an answer the reward stays zero and the row is still inserted.
  | .getBlock found, .nothing =>
    some (db, some (.finder found (found.blockHeight.getD 0) 0))
  | .getBlock found, .failed =>
    some (db, some (.finder found (found.blockHeight.getD 0) 0))
  | .coinbase found height, .done =>
    some (db, some (.finder found height (node found.hash).outputs.sum))
  | .coinbase found height, .failed =>
    some (db, some (.finder found height 0))
  | .finder found height reward, .done =>
    some (db, some (.worker found height reward))
  | .finder found height reward, .nothing =>
    some (db, some (.insert found height reward))
  | .finder _ _ _, .failed => some (db, none)
  | .worker found height reward, .done =>
    some (db, some (.insert found height reward))
  | .worker found height reward, .nothing =>
    some (db, some (.insert found height reward))
  | .worker _ _ _, .failed => some (db, none)
  | .insert found height reward, reply =>
    match db.insertBlock height found.hash reward found.timestampMs with
    | none => some (db, none)
    | some inserted =>
      (statement db inserted reply).map fun (next, _) => (next, none)
  | _, _ => none

/-! ## The tasks together -/

/-- A run of one of the three. -/
inductive Task
  | tick (stage : TickStage)
  | recompute (stage : RecomputeStage)
  | record (stage : RecordStage)

/-- What other parts of the pool write. -/
inductive Change
  | share (row : ShareRow)
  | entry (entry : BalanceEntry)

/-- How a task starts. -/
def Task.starts : Task → Bool
  | .tick .select => true
  | .recompute (.delete _ _) => true
  | .record (.existing _) => true
  | _ => false

/-- A task from one wait to the next. -/
def Task.resume (config : PoolConfig) (node : JsString → NodeBlock)
    (db : Database) : Task → Reply → Option (Database × Option Task)
  | .tick stage, reply =>
    (tickResume config db stage reply).map fun (next, after) =>
      (next, after.map .tick)
  | .recompute stage, reply =>
    (recomputeResume config db stage reply).map fun (next, after) =>
      (next, after.map .recompute)
  | .record stage, reply =>
    (recordResume node db stage reply).map fun (next, after) =>
      (next, after.map .record)

/-- A share, or an entry that is not a credit. -/
def Database.change (db : Database) : Change → Option Database
  | .share row => some { db with shares := db.shares ++ [row] }
  | .entry entry =>
    if entry.kind = .credit then none
    else some (db.insertEntries [entry])

/-- The pool daemon and the operator's commands. -/
def crediting (config : PoolConfig) (node : JsString → NodeBlock) :
    Program Database Task Reply Change where
  start := fun _ task => task.starts
  resume := Task.resume config node
  change := Database.change

/-! ## What a step writes -/

/-- The part of `creditPplns` a task is in. -/
def Task.crediting : Task → Option Crediting
  | .tick (.credit crediting _) => some crediting
  | .recompute (.credit crediting _) => some crediting
  | _ => none

/-- What a task writes when it is resumed. -/
inductive Task.Writes (config : PoolConfig) (db : Database) :
    Task → Database → Prop
  | nothing (task : Task) : Writes config db task db
  | orphan (id : Nat) (confirmations : Int) (rest : List Picked) :
      Writes config db (.tick (.orphan id confirmations rest))
        (db.updateBlock id (.orphan confirmations))
  | count (id : Nat) (confirmations : Int) (rest : List Picked) :
      Writes config db (.tick (.count id confirmations rest))
        (db.updateBlock id (.count confirmations))
  | confirm (id : Nat) (rest : List Picked) :
      Writes config db (.tick (.confirm id rest))
        (db.updateBlock id .confirm)
  | commit (task : Task) (id : Nat) (reward : Int) (window : List ShareRow)
      (waiting : task.crediting = some (.commit id reward window)) :
      Writes config db task (db.credit config id reward window)
  | delete (id : Nat) (rest : List Nat) :
      Writes config db (.recompute (.delete id rest)) (db.deleteEntries id)
  | unmark (id : Nat) (rest : List Nat) :
      Writes config db (.recompute (.unmark id rest))
        (db.updateBlock id .uncredit)
  | insert (found : Found) (height reward : Int) (next : Database)
      (inserted : db.insertBlock height found.hash reward
        found.timestampMs = some next) :
      Writes config db (.record (.insert found height reward)) next

/-- A statement writes or leaves the tables as they were. -/
theorem statement_eq_some {db next changed : Database} {reply : Reply}
    {returned : Bool} (ran : statement db next reply = some (changed, returned)) :
    changed = db ∨ changed = next := by
  unfold statement at ran
  split at ran
  · cases ran
    exact .inr rfl
  · cases ran
    exact .inl rfl
  · cases ran
    exact .inr rfl
  · cases ran

section

variable {config : PoolConfig} {node : JsString → NodeBlock}
  {db next : Database} {reply : Reply}

theorem creditResume_eq_some {waiting : Crediting} {result : CreditResult}
    (ran : creditResume config db waiting reply = some (next, result)) :
    next = db ∨ ∃ id reward window, waiting = .commit id reward window ∧
      next = db.credit config id reward window := by
  unfold creditResume at ran
  split at ran
  · split at ran
    · cases ran
      exact .inl rfl
    · split at ran
      · cases ran
        exact .inl rfl
      · cases ran
        exact .inl rfl
  · cases ran
    exact .inl rfl
  · cases ran
    exact .inl rfl
  · cases ran
    exact .inl rfl
  · next _ id reward window =>
      obtain ⟨⟨changed, returned⟩, wrote, same⟩ :=
        Option.map_eq_some_iff.mp ran
      cases same
      obtain same | same := statement_eq_some wrote
      · exact .inl same
      · exact .inr ⟨id, reward, window, rfl, same⟩
  · cases ran

/-- A task that waits at a statement writes it or nothing. -/
theorem writes_of_statement {task : Task} {written : Database}
    {α : Type} {after : Database × Bool → Database × α} {later : α}
    (writes : task.Writes config db written)
    (ran : (statement db written reply).map after = some (next, later))
    (kept : ∀ result, (after result).1 = result.1) :
    task.Writes config db next := by
  obtain ⟨⟨changed, returned⟩, wrote, same⟩ := Option.map_eq_some_iff.mp ran
  have database : changed = next :=
    (kept (changed, returned)).symm.trans (congrArg Prod.fst same)
  subst database
  obtain rfl | rfl := statement_eq_some wrote
  · exact .nothing task
  · exact writes

theorem writes_of_creditResume {task : Task} {waiting : Crediting}
    {α : Type} {after : Database × CreditResult → Database × α} {later : α}
    (crediting : task.crediting = some waiting)
    (ran : (creditResume config db waiting reply).map after =
      some (next, later))
    (kept : ∀ result, (after result).1 = result.1) :
    task.Writes config db next := by
  obtain ⟨⟨changed, result⟩, wrote, same⟩ := Option.map_eq_some_iff.mp ran
  have database : changed = next :=
    (kept (changed, result)).symm.trans (congrArg Prod.fst same)
  subst database
  obtain rfl | ⟨id, reward, window, rfl, rfl⟩ := creditResume_eq_some wrote
  · exact .nothing task
  · exact .commit task id reward window crediting

theorem tickResume_writes {stage : TickStage} {after : Option TickStage}
    (ran : tickResume config db stage reply = some (next, after)) :
    (Task.tick stage).Writes config db next := by
  unfold tickResume at ran
  split at ran
  · cases ran
    exact .nothing _
  · cases ran
    exact .nothing _
  · cases ran
    exact .nothing _
  · split at ran
    · cases ran
      exact .nothing _
    · cases ran
      exact .nothing _
  · cases ran
    exact .nothing _
  · next _ id confirmations rest =>
      exact writes_of_statement (.orphan id confirmations rest) ran
        fun _ => rfl
  · next _ id confirmations rest =>
      exact writes_of_statement (.count id confirmations rest) ran
        fun _ => rfl
  · next _ id rest =>
      exact writes_of_statement (.confirm id rest) ran fun _ => rfl
  · exact writes_of_creditResume rfl ran fun _ => rfl
  · cases ran

theorem recomputeResume_writes {stage : RecomputeStage}
    {after : Option RecomputeStage}
    (ran : recomputeResume config db stage reply = some (next, after)) :
    (Task.recompute stage).Writes config db next := by
  cases stage with
  | delete id rest =>
    exact writes_of_statement (.delete id rest) ran fun _ => rfl
  | unmark id rest =>
    exact writes_of_statement (.unmark id rest) ran fun _ => rfl
  | credit waiting rest =>
    exact writes_of_creditResume rfl ran fun _ => rfl

theorem recordResume_writes {stage : RecordStage} {after : Option RecordStage}
    (ran : recordResume node db stage reply = some (next, after)) :
    (Task.record stage).Writes config db next := by
  cases stage with
  | insert found height reward =>
    simp only [recordResume] at ran
    split at ran
    · cases ran
      exact .nothing _
    · next inserted made =>
        exact writes_of_statement
          (.insert found height reward inserted made) ran fun _ => rfl
  | existing found =>
    cases reply with
    | done =>
      rw [recordResume] at ran
      split at ran
      · cases ran
        exact .nothing _
      · cases ran
        exact .nothing _
    | failed =>
      cases ran
      exact .nothing _
    | _ => cases ran
  | _ => cases reply <;> cases ran <;> exact .nothing _

/-- Everything a task writes when it is resumed. -/
theorem Task.resume_writes {task : Task} {after : Option Task}
    (ran : task.resume config node db reply = some (next, after)) :
    task.Writes config db next := by
  cases task with
  | tick stage =>
    obtain ⟨⟨changed, later⟩, went, same⟩ := Option.map_eq_some_iff.mp ran
    cases same
    exact tickResume_writes went
  | recompute stage =>
    obtain ⟨⟨changed, later⟩, went, same⟩ := Option.map_eq_some_iff.mp ran
    cases same
    exact recomputeResume_writes went
  | record stage =>
    obtain ⟨⟨changed, later⟩, went, same⟩ := Option.map_eq_some_iff.mp ran
    cases same
    exact recordResume_writes went

/-! ## Where a task credits next -/

/-- The next block of a tick is not credited at once. -/
theorem crediting_tickNext {rest : List Picked} {stage : TickStage}
    {waiting : Crediting} (went : tickNext rest = some stage) :
    (Task.tick stage).crediting ≠ some waiting := by
  cases rest with
  | nil => cases went
  | cons block rest =>
    cases went
    exact nofun

/-- A tick credits next where it just marked a block or goes on crediting. -/
theorem tickResume_crediting {stage later : TickStage} {waiting : Crediting}
    (ran : tickResume config db stage reply = some (next, some later))
    (crediting : (Task.tick later).crediting = some waiting) :
    (∃ id rest, stage = .confirm id rest ∧ waiting = .select id) ∨
      ∃ before rest, stage = .credit before rest ∧
        creditResume config db before reply = some (next, .waits waiting) := by
  unfold tickResume at ran
  split at ran
  · rw [Option.some_inj, Prod.mk.injEq] at ran
    exact absurd crediting (crediting_tickNext ran.2)
  · cases ran
  · cases ran
    cases crediting
  · split at ran
    · cases ran
      cases crediting
    · cases ran
      cases crediting
  · rw [Option.some_inj, Prod.mk.injEq] at ran
    exact absurd crediting (crediting_tickNext ran.2)
  · obtain ⟨⟨changed, returned⟩, -, same⟩ := Option.map_eq_some_iff.mp ran
    rw [Prod.mk.injEq] at same
    exact absurd crediting (crediting_tickNext same.2)
  · obtain ⟨⟨changed, returned⟩, -, same⟩ := Option.map_eq_some_iff.mp ran
    simp only [Prod.mk.injEq] at same
    split at same
    · cases same.2
      cases crediting
    · exact absurd crediting (crediting_tickNext same.2)
  · next _ id rest =>
      obtain ⟨⟨changed, returned⟩, -, same⟩ := Option.map_eq_some_iff.mp ran
      simp only [Prod.mk.injEq] at same
      split at same
      · cases same.2
        cases crediting
        exact .inl ⟨id, rest, rfl, rfl⟩
      · exact absurd crediting (crediting_tickNext same.2)
  · next _ before rest =>
      obtain ⟨⟨changed, result⟩, went, same⟩ := Option.map_eq_some_iff.mp ran
      cases result with
      | waits waits =>
        cases same
        cases crediting
        exact .inr ⟨before, rest, rfl, went⟩
      | returned | threw =>
        rw [Prod.mk.injEq] at same
        exact absurd crediting (crediting_tickNext same.2)
  · cases ran

theorem recomputeResume_crediting {stage later : RecomputeStage}
    {waiting : Crediting}
    (ran : recomputeResume config db stage reply = some (next, some later))
    (crediting : (Task.recompute later).crediting = some waiting) :
    (∃ id rest, stage = .unmark id rest ∧ waiting = .select id) ∨
      ∃ before rest, stage = .credit before rest ∧
        creditResume config db before reply = some (next, .waits waiting) := by
  cases stage with
  | delete id rest =>
    obtain ⟨⟨changed, returned⟩, -, same⟩ := Option.map_eq_some_iff.mp ran
    simp only [Prod.mk.injEq] at same
    split at same
    · cases same.2
      cases crediting
    · cases same.2
  | unmark id rest =>
    obtain ⟨⟨changed, returned⟩, -, same⟩ := Option.map_eq_some_iff.mp ran
    simp only [Prod.mk.injEq] at same
    split at same
    · cases same.2
      cases crediting
      exact .inl ⟨id, rest, rfl, rfl⟩
    · cases same.2
  | credit before rest =>
    obtain ⟨⟨changed, result⟩, went, same⟩ := Option.map_eq_some_iff.mp ran
    cases result with
    | waits waits =>
      cases same
      cases crediting
      exact .inr ⟨before, rest, rfl, went⟩
    | returned =>
      cases rest with
      | nil => cases same
      | cons id rest =>
        cases same
        cases crediting
    | threw => cases same

/-- A task credits next where it starts to or goes on crediting. -/
theorem Task.resume_crediting {task later : Task} {waiting : Crediting}
    (ran : task.resume config node db reply = some (next, some later))
    (crediting : later.crediting = some waiting) :
    (∃ id, waiting = .select id) ∨
      ∃ before, task.crediting = some before ∧
        creditResume config db before reply = some (next, .waits waiting) := by
  cases task with
  | tick stage =>
    obtain ⟨⟨changed, after⟩, went, same⟩ := Option.map_eq_some_iff.mp ran
    rw [Prod.mk.injEq] at same
    obtain ⟨rfl, mapped⟩ := same
    obtain ⟨stage, rfl, rfl⟩ := Option.map_eq_some_iff.mp mapped
    obtain ⟨id, rest, -, selects⟩ | ⟨before, rest, rfl, waits⟩ :=
      tickResume_crediting went crediting
    · exact .inl ⟨id, selects⟩
    · exact .inr ⟨before, rfl, waits⟩
  | recompute stage =>
    obtain ⟨⟨changed, after⟩, went, same⟩ := Option.map_eq_some_iff.mp ran
    rw [Prod.mk.injEq] at same
    obtain ⟨rfl, mapped⟩ := same
    obtain ⟨stage, rfl, rfl⟩ := Option.map_eq_some_iff.mp mapped
    obtain ⟨id, rest, -, selects⟩ | ⟨before, rest, rfl, waits⟩ :=
      recomputeResume_crediting went crediting
    · exact .inl ⟨id, selects⟩
    · exact .inr ⟨before, rfl, waits⟩
  | record stage =>
    obtain ⟨⟨changed, after⟩, went, same⟩ := Option.map_eq_some_iff.mp ran
    rw [Prod.mk.injEq] at same
    obtain ⟨stage, rfl, rfl⟩ := Option.map_eq_some_iff.mp same.2
    cases crediting

end

/-! ### A small pool -/

/-- A pool that takes one percent and confirms at once. -/
def smallPool : PoolConfig where
  feePercent := 1
  pplnsNShares := 10
  blockConfirmations := 1

/-- A node whose blocks pay fifty coins. -/
def smallNode (_ : JsString) : NodeBlock where
  height := 1
  outputs := [5000000000]

/-- The share of one miner. -/
def minerShare : ShareRow where
  id := 1
  userId := 7
  diff := 1
  submittedAt := 0

/-- One share, and one block that is recorded. -/
def recorded : List (TaskEvent Task Reply Change) :=
  [.change (.share minerShare),
    .spawn 0 (.record (.existing ⟨[], none, 0⟩)), .resume 0 .done,
    .resume 0 (.block 1), .resume 0 .done, .resume 0 .nothing,
    .resume 0 .done]

/-- A tick up to the wait after it marked the block. -/
def untilConfirmed (index : Nat) : List (TaskEvent Task Reply Change) :=
  [.spawn index (.tick .select), .resume index .done,
    .resume index (.block 1), .resume index .done, .resume index .done]

end B3Chain.Pool
