import B3Chain.Pool.Confirmer

/-!
# What a failure leaves behind

A tick marks a block confirmed and credits it afterwards; a later tick selects
unconfirmed blocks only.  A confirmed block that is not credited is therefore
in the hands of a running task or of nobody, and it is in the hands of a task
as long as no task is interrupted between marking and crediting it.  The
recorder inserts a row with reward zero when the node does not answer, and
nothing fills it in later: the rewards are right as long as both calls of
every recorder are answered.
-/

namespace B3Chain.Pool

open Words Machine

/-! ## Blocks that wait for their credits -/

/-- The block is confirmed, not orphaned and not credited. -/
def Pending (db : Database) (id : Nat) : Prop :=
  ∃ row ∈ db.blocks, row.id = id ∧ row.isConfirmed = true ∧
    row.isOrphan = false ∧ row.pplnsCredited = false

/-- The task is in `creditPplns` for the block. -/
def Task.Serves (task : Task) (id : Nat) : Prop :=
  ∃ waiting, task.crediting = some waiting ∧ waiting.id = id

/--
The next tick selects the row, or a task that runs is about to credit it.
-/
def Attended (system : System Database Task) (row : BlockRow) : Prop :=
  row ∈ system.store.selectUnconfirmed ∨
    ∃ index task, system.tasks index = some task ∧ task.Serves row.id

/--
The reply does not interrupt the task: the mark of a block is reported as it
was made, and `creditPplns` does not fail.
-/
def Task.goesOn (reply : Reply) : Task → Bool
  | .tick (.confirm _ _) => reply ≠ .lost
  | .recompute (.unmark _ _) => reply ≠ .lost
  | .tick (.credit _ _) => reply ≠ .failed
  | .recompute (.credit _ _) => reply ≠ .failed
  | _ => true

/-- No task is interrupted between marking a block and crediting it. -/
def uninterrupted : Program.Condition Database Task Reply Change where
  resume := fun _ task reply => task.goesOn reply
  kill := fun task => task.crediting = none
  change := fun _ _ => True

instance (db : Database) (task : Task) (reply : Reply) :
    Decidable (uninterrupted.resume db task reply) :=
  inferInstanceAs (Decidable (task.goesOn reply = true))

instance (db : Database) (change : Change) :
    Decidable (uninterrupted.change db change) :=
  isTrue trivial

section

variable {config : PoolConfig} {node : JsString → NodeBlock}
  {db next : Database} {reply : Reply} {id : Nat}

/-- A block that waits after an update was there before. -/
theorem exists_row_of_pending {other : Nat} {update : BlockUpdate}
    (updated : next.blocks = db.blocks.map (updateRow other update))
    (pending : Pending next id) :
    ∃ old ∈ db.blocks, old.id = id ∧
      (updateRow other update old).isConfirmed = true ∧
      (updateRow other update old).isOrphan = false ∧
      (updateRow other update old).pplnsCredited = false := by
  obtain ⟨row, member, same, waits⟩ := pending
  rw [updated] at member
  obtain ⟨old, found, rfl⟩ := List.mem_map.mp member
  exact ⟨old, found, (updateRow_id ..).symm.trans same, waits⟩

/-- An update makes no other block wait. -/
theorem pending_of_updateBlock {other : Nat} {update : BlockUpdate}
    (pending : Pending (db.updateBlock other update) id) :
    id = other ∨ Pending db id := by
  obtain ⟨old, found, same, waits⟩ := exists_row_of_pending rfl pending
  by_cases match_ : old.id = other
  · exact .inl (same.symm.trans match_)
  · rw [updateRow, if_neg match_] at waits
    exact .inr ⟨old, found, same, waits⟩

theorem pending_of_orphan {other : Nat} {confirmations : Int}
    (pending : Pending (db.updateBlock other (.orphan confirmations)) id) :
    Pending db id := by
  obtain ⟨old, found, same, waits⟩ := exists_row_of_pending rfl pending
  unfold updateRow at waits
  split at waits
  · cases waits.2.1
  · exact ⟨old, found, same, waits⟩

theorem pending_of_count {other : Nat} {confirmations : Int}
    (pending : Pending (db.updateBlock other (.count confirmations)) id) :
    Pending db id := by
  obtain ⟨old, found, same, waits⟩ := exists_row_of_pending rfl pending
  unfold updateRow at waits
  split at waits
  · exact ⟨old, found, same, waits⟩
  · exact ⟨old, found, same, waits⟩

theorem pending_of_credit {other : Nat} {reward : Int}
    {window : List ShareRow}
    (pending : Pending (db.credit config other reward window) id) :
    Pending db id ∧ other ≠ id := by
  obtain ⟨fee, blocks⟩ := credit_blocks db config other reward window
  obtain ⟨old, found, same, waits⟩ := exists_row_of_pending blocks pending
  unfold updateRow at waits
  split at waits
  · cases waits.2.2
  · next apart =>
      exact ⟨⟨old, found, same, waits⟩,
        fun match_ => apart (same.trans match_.symm)⟩

/-- A mark that is reported as it was made. -/
theorem pending_of_mark {other : Nat} {update : BlockUpdate}
    {returned : Bool}
    (wrote : statement db (db.updateBlock other update) reply =
      some (next, returned))
    (reported : reply ≠ .lost) (pending : Pending next id) :
    id = other ∧ returned = true ∨ Pending db id := by
  cases reply with
  | done =>
    cases wrote
    obtain mine | before := pending_of_updateBlock pending
    · exact .inl ⟨mine, rfl⟩
    · exact .inr before
  | failed =>
    cases wrote
    exact .inr pending
  | lost => exact absurd rfl reported
  | _ => cases wrote

theorem pending_of_insertBlock {height reward foundAt : Int}
    {hash : JsString}
    (inserted : db.insertBlock height hash reward foundAt = some next)
    (pending : Pending next id) : Pending db id := by
  obtain ⟨row, member, same, confirmed, rest⟩ := pending
  rw [(insertBlock_eq_some inserted).1] at member
  obtain old | new := List.mem_append.mp member
  · exact ⟨row, old, same, confirmed, rest⟩
  · rw [List.mem_singleton.mp new] at confirmed
    cases confirmed

/-- The task marks the block as one to credit. -/
def Task.Marks (id : Nat) : Task → Prop
  | .tick (.confirm other _) => id = other
  | .recompute (.unmark other _) => id = other
  | _ => False

/-- Only a mark makes a block wait. -/
theorem pending_of_writes {task : Task} (writes : task.Writes config db next)
    (pending : Pending next id) : Pending db id ∨ task.Marks id := by
  cases writes with
  | nothing | delete => exact .inl pending
  | orphan => exact .inl (pending_of_orphan pending)
  | count => exact .inl (pending_of_count pending)
  | confirm | unmark => exact (pending_of_updateBlock pending).symm
  | commit => exact .inl (pending_of_credit pending).1
  | insert _ _ _ _ inserted =>
    exact .inl (pending_of_insertBlock inserted pending)

/-- `creditPplns` reads a block that waits as such. -/
theorem selectConfirmed_of_pending (pending : Pending db id) :
    ∃ row, db.selectConfirmed id = some row ∧ row.pplnsCredited = false := by
  obtain ⟨row, member, same, confirmed, orphan, credited⟩ := pending
  have chosen : (decide (row.id = id) && row.isConfirmed && !row.isOrphan) =
      true := by
    simp [same, confirmed, orphan]
  have some : (db.selectConfirmed id).isSome := by
    rw [Database.selectConfirmed, List.find?_isSome]
    exact ⟨row, member, chosen⟩
  obtain ⟨found, selected⟩ := Option.isSome_iff_exists.mp some
  have holds := List.find?_some selected
  simp only [Bool.and_eq_true, decide_eq_true_eq] at holds
  have one : found = row := eq_of_mem_blocks
    (List.mem_of_find?_eq_some selected) member (holds.1.1.trans same.symm)
  exact ⟨found, selected, one ▸ credited⟩

/-- `creditPplns` goes on until its block no longer waits. -/
theorem creditResume_pending {waiting : Crediting} {result : CreditResult}
    (ran : creditResume config db waiting reply = some (next, result))
    (answered : reply ≠ .failed) (pending : Pending next id) :
    (∃ later, result = .waits later ∧ later.id = id) ∨
      (Pending db id ∧ waiting.id ≠ id) := by
  by_cases mine : waiting.id = id
  · cases waiting with
    | select block =>
      cases reply with
      | done =>
        change block = id at mine
        subst mine
        obtain rfl | ⟨_, _, _, other, -⟩ := creditResume_eq_some ran
        · obtain ⟨row, found, credited⟩ :=
            selectConfirmed_of_pending pending
          simp only [creditResume, found, credited] at ran
          cases ran
          exact .inl ⟨_, rfl, rfl⟩
        · cases other
      | failed => exact absurd rfl answered
      | _ => cases ran
    | shares block reward foundAt =>
      cases reply with
      | done =>
        cases ran
        exact .inl ⟨_, rfl, mine⟩
      | failed => exact absurd rfl answered
      | _ => cases ran
    | commit block reward window =>
      obtain ⟨⟨changed, returned⟩, wrote, same⟩ :=
        Option.map_eq_some_iff.mp ran
      cases same
      cases reply with
      | done | lost =>
        cases wrote
        exact absurd mine (pending_of_credit pending).2
      | failed => exact absurd rfl answered
      | _ => cases wrote
  · refine .inr ⟨?_, mine⟩
    obtain rfl | ⟨block, reward, window, rfl, rfl⟩ :=
      creditResume_eq_some ran
    · exact pending
    · exact (pending_of_credit pending).1

/-- A tick that is not interrupted hands on the blocks it marks. -/
theorem tickResume_pending {stage : TickStage} {after : Option TickStage}
    (ran : tickResume config db stage reply = some (next, after))
    (goesOn : (Task.tick stage).goesOn reply) (pending : Pending next id) :
    (∃ later, after = some later ∧ (Task.tick later).Serves id) ∨
      (Pending db id ∧ ¬ (Task.tick stage).Serves id) := by
  cases stage with
  | credit waiting rest =>
    obtain ⟨⟨changed, result⟩, went, same⟩ := Option.map_eq_some_iff.mp ran
    cases same
    obtain ⟨later, rfl, mine⟩ | ⟨before, apart⟩ :=
      creditResume_pending went (of_decide_eq_true goesOn) pending
    · exact .inl ⟨_, rfl, later, rfl, mine⟩
    · refine .inr ⟨before, ?_⟩
      rintro ⟨_, found, mine⟩
      cases found
      exact apart mine
  | confirm block rest =>
    obtain ⟨⟨changed, returned⟩, wrote, same⟩ :=
      Option.map_eq_some_iff.mp ran
    cases same
    obtain ⟨rfl, rfl⟩ | before :=
      pending_of_mark wrote (of_decide_eq_true goesOn) pending
    · exact .inl ⟨_, rfl, _, rfl, rfl⟩
    · exact .inr ⟨before, fun ⟨_, found, _⟩ => nomatch found⟩
  | orphan | count | select | getBlock =>
    exact .inr ⟨(pending_of_writes (tickResume_writes ran)
      pending).resolve_right not_false, fun ⟨_, found, _⟩ => nomatch found⟩

/-- So does the command that recomputes. -/
theorem recomputeResume_pending {stage : RecomputeStage}
    {after : Option RecomputeStage}
    (ran : recomputeResume config db stage reply = some (next, after))
    (goesOn : (Task.recompute stage).goesOn reply)
    (pending : Pending next id) :
    (∃ later, after = some later ∧ (Task.recompute later).Serves id) ∨
      (Pending db id ∧ ¬ (Task.recompute stage).Serves id) := by
  cases stage with
  | credit waiting rest =>
    obtain ⟨⟨changed, result⟩, went, same⟩ := Option.map_eq_some_iff.mp ran
    cases same
    obtain ⟨later, rfl, mine⟩ | ⟨before, apart⟩ :=
      creditResume_pending went (of_decide_eq_true goesOn) pending
    · exact .inl ⟨_, rfl, later, rfl, mine⟩
    · refine .inr ⟨before, ?_⟩
      rintro ⟨_, found, mine⟩
      cases found
      exact apart mine
  | unmark block rest =>
    obtain ⟨⟨changed, returned⟩, wrote, same⟩ :=
      Option.map_eq_some_iff.mp ran
    cases same
    obtain ⟨rfl, rfl⟩ | before :=
      pending_of_mark wrote (of_decide_eq_true goesOn) pending
    · exact .inl ⟨_, rfl, _, rfl, rfl⟩
    · exact .inr ⟨before, fun ⟨_, found, _⟩ => nomatch found⟩
  | delete =>
    exact .inr ⟨(pending_of_writes (recomputeResume_writes ran)
      pending).resolve_right not_false, fun ⟨_, found, _⟩ => nomatch found⟩

/-- Tasks that are not interrupted serve the blocks that wait. -/
theorem serves_pending (config : PoolConfig) (node : JsString → NodeBlock) :
    Program.Serves (crediting config node) uninterrupted Pending
      Task.Serves where
  resume := by
    intro db task reply next after id goesOn ran pending
    cases task with
    | tick stage =>
      obtain ⟨⟨changed, later⟩, went, same⟩ :=
        Option.map_eq_some_iff.mp ran
      cases same
      obtain ⟨stage, rfl, serving⟩ | kept :=
        tickResume_pending went goesOn pending
      · exact .inl ⟨_, rfl, serving⟩
      · exact .inr kept
    | recompute stage =>
      obtain ⟨⟨changed, later⟩, went, same⟩ :=
        Option.map_eq_some_iff.mp ran
      cases same
      obtain ⟨stage, rfl, serving⟩ | kept :=
        recomputeResume_pending went goesOn pending
      · exact .inl ⟨_, rfl, serving⟩
      · exact .inr kept
    | record stage =>
      have writes : (Task.record stage).Writes config db next :=
        Task.resume_writes ran
      exact .inr ⟨(pending_of_writes writes pending).resolve_right not_false,
        fun ⟨_, found, _⟩ => nomatch found⟩
  kill := by
    rintro task id idle ⟨waiting, found, -⟩
    rw [show task.crediting = none from idle] at found
    cases found
  change := by
    intro db change next id _ changed pending
    cases change with
    | share row =>
      cases changed
      exact pending
    | entry entry =>
      simp only [crediting, Database.change] at changed
      split at changed
      · cases changed
      · cases changed
        exact pending

/--
In every run in which no task is interrupted between marking a block and
crediting it, every confirmed block that is neither orphaned nor credited is
selected by the next tick or about to be credited.
-/
theorem pending_attended {events : List (TaskEvent Task Reply Change)}
    {final : System Database Task}
    (goesOn : Along (crediting config node).step
      (Program.Meets uninterrupted) (System.idle Database.empty) events)
    (taken : run (crediting config node).step (System.idle Database.empty)
      events = some final) :
    ∀ row ∈ final.store.blocks, row.isConfirmed = true →
      row.isOrphan = false → row.pplnsCredited = false →
        Attended final row := by
  intro row member confirmed orphan credited
  have start : Program.Covered Pending Task.Serves
      (System.idle Database.empty) := by
    rintro id ⟨row, found, -⟩
    exact absurd found List.not_mem_nil
  exact .inr (Program.run_covered (serves_pending config node) start goesOn
    taken row.id ⟨row, member, rfl, confirmed, orphan, credited⟩)

end

/-- The row of the block once it is marked. -/
def confirmedRow : BlockRow where
  id := 1
  height := 1
  hash := []
  rewardB3c := 5000000000
  poolFeeB3c := 0
  confirmations := 1
  isConfirmed := true
  isOrphan := false
  pplnsCredited := false
  foundAt := 0

/-- The rows after some events, and those the next tick selects. -/
def blocksAfter (events : List (TaskEvent Task Reply Change)) :
    Option (List BlockRow × List BlockRow) :=
  (run (crediting smallPool smallNode).step (System.idle Database.empty)
    events).map fun final =>
      (final.store.blocks, final.store.selectUnconfirmed)

/-- A crash after the mark leaves a block that nobody will credit. -/
theorem crash_strands_confirmed_block :
    ∃ final row,
      run (crediting smallPool smallNode).step (System.idle Database.empty)
          (recorded ++ untilConfirmed 1 ++ [.kill fun _ => true]) =
            some final ∧
        row ∈ final.store.blocks ∧ row.isConfirmed = true ∧
          row.isOrphan = false ∧ row.pplnsCredited = false ∧
            ¬ Attended final row := by
  have after : blocksAfter (recorded ++ untilConfirmed 1) =
      some ([confirmedRow], []) := by
    decide +kernel
  obtain ⟨before, taken, found⟩ := Option.map_eq_some_iff.mp after
  rw [Prod.mk.injEq] at found
  refine ⟨{ before with
    tasks := fun index => (before.tasks index).filter fun _ => !true },
    confirmedRow, ?_, ?_, rfl, rfl, rfl, ?_⟩
  · rw [run_append, taken]
    rfl
  · rw [found.1]
    exact List.mem_singleton_self _
  · rintro (selected | ⟨index, task, waiting, -⟩)
    · rw [found.2] at selected
      exact absurd selected List.not_mem_nil
    · rw [Option.filter_eq_some_iff] at waiting
      cases waiting.2

/-- A tick that is not interrupted attends to the block it confirmed. -/
theorem confirming_tick_attends :
    ∃ final,
      run (crediting smallPool smallNode).step (System.idle Database.empty)
          (recorded ++ untilConfirmed 1) = some final ∧
        confirmedRow ∈ final.store.blocks ∧ Attended final confirmedRow := by
  have after : blocksAfter (recorded ++ untilConfirmed 1) =
      some ([confirmedRow], []) := by
    decide +kernel
  obtain ⟨final, taken, found⟩ := Option.map_eq_some_iff.mp after
  rw [Prod.mk.injEq] at found
  have member : confirmedRow ∈ final.store.blocks := by
    rw [found.1]
    exact List.mem_singleton_self _
  refine ⟨final, taken, member,
    pending_attended ?_ taken confirmedRow member rfl rfl rfl⟩
  apply Program.along_of_checks
  decide +kernel

/-! ## Rewards -/

/-- The reward of each row is what the coinbase of its block pays. -/
def Rewarded (node : JsString → NodeBlock) (db : Database) : Prop :=
  ∀ row ∈ db.blocks, row.rewardB3c = (node row.hash).outputs.sum

/-- The recorder has read the reward once it has asked the node. -/
def RecordStage.Sound (node : JsString → NodeBlock) : RecordStage → Prop
  | .finder found _ reward => reward = (node found.hash).outputs.sum
  | .worker found _ reward => reward = (node found.hash).outputs.sum
  | .insert found _ reward => reward = (node found.hash).outputs.sum
  | _ => True

/-- The node answers the two calls of the recorder. -/
def Task.answered : Task → Reply → Bool
  | .record (.getBlock _), .block _ => true
  | .record (.getBlock _), _ => false
  | .record (.coinbase _ _), reply => reply = .done
  | _, _ => true

/-- Every call a recorder makes to the node is answered. -/
def nodeAnswers : Program.Condition Database Task Reply Change where
  resume := fun _ task reply => task.answered reply
  kill := fun _ => True
  change := fun _ _ => True

instance (db : Database) (task : Task) (reply : Reply) :
    Decidable (nodeAnswers.resume db task reply) :=
  inferInstanceAs (Decidable (task.answered reply = true))

instance (db : Database) (change : Change) :
    Decidable (nodeAnswers.change db change) :=
  isTrue trivial

section

variable {config : PoolConfig} {node : JsString → NodeBlock}
  {db next : Database} {reply : Reply}

theorem rewarded_of_updated {id : Nat} {update : BlockUpdate}
    (rewarded : Rewarded node db)
    (updated : next.blocks = db.blocks.map (updateRow id update)) :
    Rewarded node next := by
  intro row member
  rw [updated] at member
  obtain ⟨old, found, rfl⟩ := List.mem_map.mp member
  rw [updateRow_rewardB3c, updateRow_hash]
  exact rewarded old found

theorem Task.Writes.rewarded {task : Task}
    (writes : task.Writes config db next) (rewarded : Rewarded node db)
    (sound : ∀ stage, task = .record stage → stage.Sound node) :
    Rewarded node next := by
  cases writes with
  | nothing => exact rewarded
  | delete id rest => exact rewarded
  | commit _ id reward window waiting =>
    obtain ⟨fee, blocks⟩ := credit_blocks db config id reward window
    exact rewarded_of_updated rewarded blocks
  | insert found height reward next inserted =>
    intro row member
    rw [(insertBlock_eq_some inserted).1] at member
    obtain old | new := List.mem_append.mp member
    · exact rewarded row old
    · rw [List.mem_singleton.mp new]
      exact sound _ rfl
  | _ => exact rewarded_of_updated rewarded rfl

/-- A recorder whose calls are answered keeps the reward it read. -/
theorem recordResume_sound {stage later : RecordStage}
    (ran : recordResume node db stage reply = some (next, some later))
    (answered : (Task.record stage).answered reply)
    (sound : stage.Sound node) : later.Sound node := by
  cases stage with
  | existing found =>
    cases reply with
    | done =>
      rw [recordResume] at ran
      split at ran
      · cases ran
      · cases ran
        exact trivial
    | _ => cases ran
  | getBlock found =>
    cases reply with
    | block confirmations =>
      cases ran
      exact trivial
    | _ => cases answered
  | coinbase found height =>
    cases reply with
    | done =>
      cases ran
      rfl
    | _ => cases answered
  | finder | worker =>
    cases reply <;> cases ran <;> exact sound
  | insert found height reward =>
    simp only [recordResume] at ran
    split at ran
    · cases ran
    · obtain ⟨⟨changed, returned⟩, -, same⟩ :=
        Option.map_eq_some_iff.mp ran
      cases same

/-- Recorders whose calls are answered keep the rewards right. -/
theorem keeps_rewarded (config : PoolConfig) (node : JsString → NodeBlock) :
    Program.Keeps (crediting config node) nodeAnswers (Rewarded node)
      (fun _ task => ∀ stage, task = .record stage → stage.Sound node) where
  start := by
    rintro system task starts _ stage rfl
    match stage, starts with
    | .existing _, _ => exact trivial
  resume := by
    intro db task reply next after rewarded sound answered ran
    refine ⟨(Task.resume_writes ran).rewarded rewarded sound, ?_⟩
    rintro later rfl stage rfl
    cases task with
    | tick | recompute =>
      obtain ⟨⟨changed, later⟩, -, same⟩ := Option.map_eq_some_iff.mp ran
      obtain ⟨_, -, other⟩ :=
        Option.map_eq_some_iff.mp (congrArg Prod.snd same)
      cases other
    | record before =>
      obtain ⟨⟨changed, later⟩, went, same⟩ := Option.map_eq_some_iff.mp ran
      rw [Prod.mk.injEq] at same
      obtain ⟨rfl, mapped⟩ := same
      obtain ⟨_, rfl, one⟩ := Option.map_eq_some_iff.mp mapped
      cases one
      exact recordResume_sound went answered (sound before rfl)
  others := by
    intro db task reply next after other _ _ _ sound
    exact sound
  change := by
    intro db change next rewarded _ changed
    cases change with
    | share row =>
      cases changed
      exact ⟨rewarded, fun _ sound => sound⟩
    | entry entry =>
      simp only [crediting, Database.change] at changed
      split at changed
      · cases changed
      · cases changed
        exact ⟨rewarded, fun _ sound => sound⟩

/--
In every run in which the node answers the recorders, a credited block was
credited from what its coinbase pays.
-/
theorem credited_from_coinbase {events : List (TaskEvent Task Reply Change)}
    {final : System Database Task}
    (answered : Along (crediting config node).step
      (Program.Meets nodeAnswers) (System.idle Database.empty) events)
    (taken : run (crediting config node).step (System.idle Database.empty)
      events = some final) :
    ∀ row ∈ final.store.blocks, row.pplnsCredited = true →
      row.rewardB3c = (node row.hash).outputs.sum := by
  intro row member _
  have start : Rewarded node Database.empty :=
    fun row found => absurd found List.not_mem_nil
  exact (Program.run_holds (keeps_rewarded config node)
    (Program.holds_idle start) answered taken).1 row member

end

/-- The recorder while the node does not answer. -/
def recordedUnanswered : List (TaskEvent Task Reply Change) :=
  [.spawn 0 (.record (.existing ⟨[], none, 0⟩)), .resume 0 .done,
    .resume 0 .failed, .resume 0 .nothing, .resume 0 .done]

/-- Crediting the block that a tick marked. -/
def creditedBy (index : Nat) : List (TaskEvent Task Reply Change) :=
  untilConfirmed index ++
    [.resume index .done, .resume index .done, .resume index .done]

/-- The row of a block that was recorded without an answer. -/
def unpaidRow : BlockRow where
  id := 1
  height := 0
  hash := []
  rewardB3c := 0
  poolFeeB3c := 0
  confirmations := 1
  isConfirmed := true
  isOrphan := false
  pplnsCredited := true
  foundAt := 0

/-- A block that was recorded without an answer is settled with nothing. -/
theorem unanswered_block_credited_zero :
    ∃ final row,
      run (crediting smallPool smallNode).step (System.idle Database.empty)
          (recordedUnanswered ++ creditedBy 1) = some final ∧
        row ∈ final.store.blocks ∧ row.pplnsCredited = true ∧
          row.rewardB3c < (smallNode row.hash).outputs.sum := by
  have after : (run (crediting smallPool smallNode).step
      (System.idle Database.empty) (recordedUnanswered ++ creditedBy 1)).map
        (fun final => final.store.blocks) = some [unpaidRow] := by
    decide +kernel
  obtain ⟨final, taken, found⟩ := Option.map_eq_some_iff.mp after
  refine ⟨final, unpaidRow, taken, ?_, rfl, by decide⟩
  rw [found]
  exact List.mem_singleton_self _

/-- A block that was recorded with both answers. -/
theorem answered_block_credited_from_coinbase :
    ∃ final,
      run (crediting smallPool smallNode).step (System.idle Database.empty)
          (recorded ++ creditedBy 1) = some final ∧
        final.store.blocks.map BlockRow.pplnsCredited = [true] ∧
          ∀ row ∈ final.store.blocks, row.pplnsCredited = true →
            row.rewardB3c = (smallNode row.hash).outputs.sum := by
  have after : (run (crediting smallPool smallNode).step
      (System.idle Database.empty) (recorded ++ creditedBy 1)).map
        (fun final => final.store.blocks.map BlockRow.pplnsCredited) =
          some [true] := by
    decide +kernel
  obtain ⟨final, taken, found⟩ := Option.map_eq_some_iff.mp after
  refine ⟨final, taken, found, credited_from_coinbase ?_ taken⟩
  apply Program.along_of_checks
  decide +kernel

end B3Chain.Pool
