import B3Chain.Pool.Confirmer

/-!
# What a block is credited

The credits of a block are one distribution of its reward as long as every
transaction finds the block uncredited and every reset finds it without
credits.  `creditPplns` reads the flag before the transaction and does not
look again, and nothing keeps two ticks apart.
-/

namespace B3Chain.Pool

open Words Machine

section

variable {config : PoolConfig} {node : JsString → NodeBlock}
  {db next : Database}

/-! ## Credits after a statement -/

@[simp]
theorem credits_updateBlock (db : Database) (id other : Nat)
    (update : BlockUpdate) :
    (db.updateBlock id update).credits other = db.credits other :=
  rfl

theorem credits_insertEntries (db : Database) (entries : List BalanceEntry)
    (id : Nat) :
    (db.insertEntries entries).credits id =
      db.credits id ++ (entries.filter fun entry =>
        entry.blockId = some id && entry.kind = .credit).map fun entry =>
          (entry.userId, entry.deltaB3c) := by
  simp only [Database.credits, Database.insertEntries, List.filter_append,
    List.map_append]

theorem credits_of_creditEntries (id other : Nat) (lines : List (Nat × Int)) :
    ((lines.map (Database.creditEntry id)).filter fun entry =>
        entry.blockId = some other && entry.kind = .credit).map (fun entry =>
          (entry.userId, entry.deltaB3c)) =
      if other = id then lines else [] := by
  split
  · next same =>
      subst same
      rw [List.filter_eq_self.mpr]
      · rw [List.map_map]
        exact List.map_id lines
      · intro entry member
        obtain ⟨line, -, rfl⟩ := List.mem_map.mp member
        simp [Database.creditEntry]
  · next apart =>
      rw [List.filter_eq_nil_iff.mpr, List.map_nil]
      intro entry member
      obtain ⟨line, -, rfl⟩ := List.mem_map.mp member
      simp [Database.creditEntry, Ne.symm apart]

/-- The transaction adds the distribution to the credits of its block. -/
theorem credits_credit (db : Database) (id other : Nat) (reward : Int)
    (window : List ShareRow) :
    (db.credit config id reward window).credits other =
      db.credits other ++
        if other = id then distribution config reward window else [] := by
  unfold Database.credit
  split
  · next empty =>
      subst empty
      rw [credits_updateBlock]
      simp [distribution, totals]
  · rw [credits_updateBlock, credits_insertEntries,
      credits_of_creditEntries]

/-- A block has no credits left once they were deleted. -/
theorem credits_deleteEntries_self {id : Nat}
    (unpaid : ∀ entry ∈ db.entries, entry.kind = .credit →
      entry.payoutId = none) :
    (db.deleteEntries id).credits id = [] := by
  rw [Database.credits, Database.deleteEntries, List.filter_filter,
    List.filter_eq_nil_iff.mpr, List.map_nil]
  intro entry member
  simp only [Bool.and_eq_true, decide_eq_true_eq, Bool.not_eq_true',
    Bool.and_eq_false_imp, not_and, and_imp]
  intro block kind deleted
  rw [unpaid entry member kind] at deleted
  exact absurd (deleted block) (by simp)

theorem credits_deleteEntries_of_ne {id other : Nat} (apart : other ≠ id) :
    (db.deleteEntries id).credits other = db.credits other := by
  rw [Database.credits, Database.deleteEntries, List.filter_filter,
    Database.credits]
  congr 1
  apply List.filter_congr
  intro entry member
  by_cases block : entry.blockId = some other
  · simp [block, apart]
  · simp [block]

/-! ## Rows after a statement -/

/-- What no statement changes of a row. -/
def BlockRow.identity (row : BlockRow) : Nat × JsString × Int × Int :=
  (row.id, row.hash, row.rewardB3c, row.foundAt)

@[simp]
theorem updateRow_identity (id : Nat) (update : BlockUpdate)
    (row : BlockRow) :
    (updateRow id update row).identity = row.identity := by
  simp [BlockRow.identity]

/-- A row keeps its identity whatever is written. -/
theorem Task.Writes.kept {task : Task} (writes : task.Writes config db next)
    {row : BlockRow} (member : row ∈ db.blocks) :
    ∃ later ∈ next.blocks, later.identity = row.identity := by
  have updated (id : Nat) (update : BlockUpdate) :
      ∃ later ∈ db.blocks.map (updateRow id update),
        later.identity = row.identity :=
    ⟨updateRow id update row, List.mem_map_of_mem member,
      updateRow_identity id update row⟩
  cases writes with
  | nothing | delete => exact ⟨row, member, rfl⟩
  | orphan id confirmations rest | count id confirmations rest
  | confirm id rest | unmark id rest => exact updated id _
  | commit _ id reward window waiting =>
    obtain ⟨fee, blocks⟩ := credit_blocks db config id reward window
    rw [blocks]
    exact updated id _
  | insert found height reward inserted made =>
    rw [(insertBlock_eq_some made).1]
    exact ⟨row, List.mem_append_left _ member, rfl⟩

theorem Task.Writes.shares_eq {task : Task}
    (writes : task.Writes config db next) : next.shares = db.shares := by
  cases writes with
  | commit _ id reward window waiting => exact credit_shares ..
  | insert found height reward inserted made =>
    exact (insertBlock_eq_some made).2.2.2
  | _ => rfl

/-! ## One distribution -/

/-- The credits of a row are none or one distribution of its reward. -/
def DistributedOnce (config : PoolConfig) (db : Database) (row : BlockRow) :
    Prop :=
  db.credits row.id = [] ∨
    (row.pplnsCredited = true ∧ ∃ seen, seen <+: db.shares ∧
      db.credits row.id =
        distribution config row.rewardB3c (lastShares config seen row.foundAt))

/-- The tables while no block is credited twice. -/
structure CreditedOnce (config : PoolConfig) (db : Database) : Prop where
  rows : ∀ row ∈ db.blocks, DistributedOnce config db row
  unpaid : ∀ entry ∈ db.entries, entry.kind = .credit → entry.payoutId = none
  known : ∀ id, db.nextBlockId ≤ id → db.credits id = []

/-- What `creditPplns` has read belongs to a row. -/
def Crediting.Sound (config : PoolConfig) (db : Database) : Crediting → Prop
  | .select _ => True
  | .shares id reward foundAt =>
    ∃ row ∈ db.blocks, row.id = id ∧ row.rewardB3c = reward ∧
      row.foundAt = foundAt
  | .commit id reward window =>
    ∃ row ∈ db.blocks, row.id = id ∧ row.rewardB3c = reward ∧
      ∃ seen, seen <+: db.shares ∧
        window = lastShares config seen row.foundAt

/-- What a task has read belongs to a row. -/
def Task.Sound (config : PoolConfig) (db : Database) (task : Task) : Prop :=
  ∀ waiting, task.crediting = some waiting → waiting.Sound config db

/--
The transaction finds the block uncredited, and the reset of the flag finds it
without credits.
-/
def Task.findsUncredited (db : Database) (task : Task) : Bool :=
  match task.crediting, task with
  | some (.commit id _ _), _ =>
    db.blocks.all fun row => row.id ≠ id || !row.pplnsCredited
  | _, .recompute (.unmark id _) => db.credits id = []
  | _, _ => true

/-- Every statement that credits or resets a block finds it uncredited. -/
def uncreditedStill : Program.Condition Database Task Reply Change where
  resume := fun db task _ => task.findsUncredited db
  kill := fun _ => True
  change := fun _ _ => True

instance (db : Database) (task : Task) (reply : Reply) :
    Decidable (uncreditedStill.resume db task reply) :=
  inferInstanceAs (Decidable (task.findsUncredited db = true))

instance (db : Database) (change : Change) :
    Decidable (uncreditedStill.change db change) :=
  isTrue trivial

theorem uncredited_of_finds {task : Task} {id : Nat} {reward : Int}
    {window : List ShareRow} (finds : task.findsUncredited db)
    (waiting : task.crediting = some (.commit id reward window)) :
    ∀ row ∈ db.blocks, row.id = id → row.pplnsCredited = false := by
  intro row member same
  unfold Task.findsUncredited at finds
  rw [waiting] at finds
  have found := List.all_eq_true.mp finds row member
  simpa [same] using found

theorem credits_of_finds {id : Nat} {rest : List Nat}
    (finds : (Task.recompute (.unmark id rest)).findsUncredited db) :
    db.credits id = [] :=
  of_decide_eq_true finds

/-- What was read stays true while rows keep their identity. -/
theorem Crediting.Sound.mono {waiting : Crediting}
    (sound : waiting.Sound config db)
    (kept : ∀ row ∈ db.blocks, ∃ later ∈ next.blocks,
      later.identity = row.identity)
    (shares : db.shares <+: next.shares) : waiting.Sound config next := by
  cases waiting with
  | select id => exact trivial
  | shares id reward foundAt =>
    obtain ⟨row, member, same, amount, time⟩ := sound
    obtain ⟨later, found, identity⟩ := kept row member
    simp only [BlockRow.identity, Prod.mk.injEq] at identity
    exact ⟨later, found, identity.1.trans same, identity.2.2.1.trans amount,
      identity.2.2.2.trans time⟩
  | commit id reward window =>
    obtain ⟨row, member, same, amount, seen, earlier, read⟩ := sound
    obtain ⟨later, found, identity⟩ := kept row member
    simp only [BlockRow.identity, Prod.mk.injEq] at identity
    refine ⟨later, found, identity.1.trans same,
      identity.2.2.1.trans amount, seen, earlier.trans shares, ?_⟩
    rw [read, identity.2.2.2]

/-- Rows that keep their flag and their credits stay distributed once. -/
theorem DistributedOnce.of_updated {id : Nat} {update : BlockUpdate}
    {row : BlockRow} (once : DistributedOnce config db row)
    (flag : (updateRow id update row).pplnsCredited = row.pplnsCredited)
    (same : next.credits row.id = db.credits row.id)
    (shares : next.shares = db.shares) :
    DistributedOnce config next (updateRow id update row) := by
  rw [DistributedOnce, updateRow_id, updateRow_rewardB3c, updateRow_foundAt,
    flag, same, shares]
  exact once

theorem creditedOnce_of_marked {id : Nat} {update : BlockUpdate}
    (once : CreditedOnce config db)
    (flag : ∀ row, (update.apply row).pplnsCredited = row.pplnsCredited) :
    CreditedOnce config (db.updateBlock id update) := by
  refine ⟨fun row member => ?_, once.unpaid, once.known⟩
  obtain ⟨old, found, rfl⟩ := List.mem_map.mp member
  refine (once.rows old found).of_updated ?_ rfl rfl
  unfold updateRow
  split
  · exact flag old
  · rfl

theorem creditedOnce_of_unmarked {id : Nat}
    (once : CreditedOnce config db) (none : db.credits id = []) :
    CreditedOnce config (db.updateBlock id .uncredit) := by
  refine ⟨fun row member => ?_, once.unpaid, once.known⟩
  obtain ⟨old, found, rfl⟩ := List.mem_map.mp member
  by_cases same : old.id = id
  · refine .inl ?_
    rw [updateRow_id, same]
    exact none
  · refine (once.rows old found).of_updated ?_ rfl rfl
    rw [updateRow, if_neg same]

theorem creditedOnce_of_deleted {id : Nat} (once : CreditedOnce config db) :
    CreditedOnce config (db.deleteEntries id) := by
  refine ⟨fun row member => ?_, fun entry member kind => ?_,
    fun other unused => ?_⟩
  · by_cases same : row.id = id
    · refine .inl ?_
      rw [same]
      exact credits_deleteEntries_self once.unpaid
    · rw [DistributedOnce, credits_deleteEntries_of_ne same]
      exact once.rows row member
  · exact once.unpaid entry (List.mem_of_mem_filter member) kind
  · by_cases same : other = id
    · rw [same]
      exact credits_deleteEntries_self once.unpaid
    · rw [credits_deleteEntries_of_ne same]
      exact once.known other unused

theorem creditedOnce_of_inserted {height reward foundAt : Int}
    {hash : JsString} (once : CreditedOnce config db)
    (inserted : db.insertBlock height hash reward foundAt = some next) :
    CreditedOnce config next := by
  obtain ⟨blocks, counter, entries, shares⟩ := insertBlock_eq_some inserted
  have credits (id : Nat) : next.credits id = db.credits id := by
    rw [Database.credits, Database.credits, entries]
  refine ⟨fun row member => ?_, ?_, fun id unused => ?_⟩
  · rw [blocks] at member
    rw [DistributedOnce, credits, shares]
    obtain old | new := List.mem_append.mp member
    · exact once.rows row old
    · rw [List.mem_singleton.mp new]
      exact .inl (once.known _ le_rfl)
  · rw [entries]
    exact once.unpaid
  · rw [credits]
    exact once.known id (by omega)

/-- The transaction on a block that is not credited yet. -/
theorem creditedOnce_of_committed {id : Nat} {reward : Int}
    {window : List ShareRow} (once : CreditedOnce config db)
    (sound : (Crediting.commit id reward window).Sound config db)
    (still : ∀ row ∈ db.blocks, row.id = id → row.pplnsCredited = false) :
    CreditedOnce config (db.credit config id reward window) := by
  obtain ⟨row, member, same, amount, seen, earlier, read⟩ := sound
  obtain ⟨fee, blocks⟩ := credit_blocks db config id reward window
  have clear : db.credits id = [] := by
    obtain none | ⟨credited, -⟩ := once.rows row member
    · exact same ▸ none
    · exact absurd credited (by simp [still row member same])
  refine ⟨fun later found => ?_, fun entry found kind => ?_,
    fun other unused => ?_⟩
  · rw [blocks] at found
    obtain ⟨old, before, rfl⟩ := List.mem_map.mp found
    by_cases match_ : old.id = id
    · have one : old = row := eq_of_mem_blocks before member
        (match_.trans same.symm)
      refine .inr ⟨?_, seen, ?_, ?_⟩
      · rw [updateRow, if_pos match_]
        rfl
      · rw [credit_shares]
        exact earlier
      · rw [updateRow_id, updateRow_rewardB3c, updateRow_foundAt, match_,
          credits_credit, clear, List.nil_append, if_pos rfl, one, amount,
          read]
    · refine (once.rows old before).of_updated ?_ ?_ (credit_shares ..)
      · rw [updateRow, if_neg match_]
      · rw [credits_credit, if_neg match_, List.append_nil]
  · unfold Database.credit at found
    split at found
    · exact once.unpaid entry found kind
    · obtain old | new := List.mem_append.mp found
      · exact once.unpaid entry old kind
      · obtain ⟨line, -, rfl⟩ := List.mem_map.mp new
        rfl
  · have counter : (db.credit config id reward window).nextBlockId =
        db.nextBlockId := by
      unfold Database.credit
      split
      · rfl
      · rfl
    rw [counter] at unused
    have apart : other ≠ id := by
      have := db.fresh row member
      omega
    rw [credits_credit, if_neg apart, List.append_nil]
    exact once.known other unused

/-- What a task writes keeps the credits of each block one distribution. -/
theorem Task.Writes.creditedOnce {task : Task}
    (writes : task.Writes config db next) (once : CreditedOnce config db)
    (sound : task.Sound config db) (still : task.findsUncredited db) :
    CreditedOnce config next := by
  cases writes with
  | nothing => exact once
  | orphan | count =>
    exact creditedOnce_of_marked once fun _ => rfl
  | confirm id rest => exact creditedOnce_of_marked once fun _ => rfl
  | commit _ id reward window waiting =>
    exact creditedOnce_of_committed once (sound _ waiting)
      (uncredited_of_finds still waiting)
  | delete id rest => exact creditedOnce_of_deleted once
  | unmark id rest =>
    exact creditedOnce_of_unmarked once (credits_of_finds still)
  | insert found height reward inserted made =>
    exact creditedOnce_of_inserted once made

/-- `creditPplns` goes on with what it read. -/
theorem creditResume_sound {waiting later : Crediting} {reply : Reply}
    (ran : creditResume config db waiting reply = some (next, .waits later))
    (sound : waiting.Sound config db) : later.Sound config db := by
  unfold creditResume at ran
  split at ran
  · next id =>
      split at ran
      · cases ran
      · next row found =>
          split at ran
          · cases ran
          · cases ran
            have chosen := List.find?_some found
            simp only [Bool.and_eq_true, decide_eq_true_eq] at chosen
            exact ⟨row, List.mem_of_find?_eq_some found, chosen.1.1, rfl, rfl⟩
  · cases ran
    obtain ⟨row, member, same, amount, time⟩ := sound
    exact ⟨row, member, same, amount, db.shares, List.prefix_rfl, time ▸ rfl⟩
  · cases ran
  · cases ran
  · obtain ⟨⟨changed, returned⟩, -, same⟩ := Option.map_eq_some_iff.mp ran
    cases returned with
    | false => cases same
    | true => cases same
  · cases ran

/-- Each task keeps the credits of every block one distribution. -/
theorem keeps_creditedOnce (config : PoolConfig)
    (node : JsString → NodeBlock) :
    Program.Keeps (crediting config node) uncreditedStill
      (CreditedOnce config) (fun db task => task.Sound config db) where
  start := by
    intro system task starts _ waiting credits
    match task, starts, credits with
    | .tick .select, _, credits => cases credits
    | .recompute (.delete _ _), _, credits => cases credits
    | .record (.existing _), _, credits => cases credits
  resume := by
    intro db task reply next after once sound still ran
    have writes := Task.resume_writes ran
    refine ⟨writes.creditedOnce once sound still, ?_⟩
    rintro later rfl waiting credits
    obtain ⟨id, rfl⟩ | ⟨before, waited, went⟩ :=
      Task.resume_crediting ran credits
    · exact trivial
    · refine (creditResume_sound went (sound before waited)).mono
        (fun row member => writes.kept member) ?_
      rw [writes.shares_eq]
  others := by
    intro db task reply next after other _ _ ran sound waiting credits
    have writes := Task.resume_writes ran
    refine (sound waiting credits).mono
      (fun row member => writes.kept member) ?_
    rw [writes.shares_eq]
  change := by
    intro db change next once _ changed
    cases change with
    | share row =>
      cases changed
      refine ⟨⟨fun row member => ?_, once.unpaid, once.known⟩, ?_⟩
      · obtain none | ⟨credited, seen, earlier, same⟩ :=
          once.rows row member
        · exact .inl none
        · exact .inr ⟨credited, seen,
            earlier.trans (List.prefix_append ..), same⟩
      · intro other sound waiting credits
        exact (sound waiting credits).mono
          (fun row member => ⟨row, member, rfl⟩) (List.prefix_append ..)
    | entry entry =>
      simp only [crediting, Database.change] at changed
      split at changed
      · cases changed
      · next other =>
          cases changed
          have credits (id : Nat) :
              (db.insertEntries [entry]).credits id = db.credits id := by
            rw [credits_insertEntries]
            simp [other]
          refine ⟨⟨fun row member => ?_, ?_, fun id unused => ?_⟩, ?_⟩
          · rw [DistributedOnce, credits]
            exact once.rows row member
          · intro added member kind
            obtain old | new := List.mem_append.mp member
            · exact once.unpaid added old kind
            · exact absurd (List.mem_singleton.mp new ▸ kind) other
          · rw [credits]
            exact once.known id unused
          · exact fun _ sound => sound

theorem creditedOnce_empty (config : PoolConfig) :
    CreditedOnce config Database.empty :=
  ⟨fun _ member => absurd member List.not_mem_nil,
    fun _ member => absurd member List.not_mem_nil, fun _ _ => rfl⟩

/--
In every run in which the transactions find their blocks uncredited and the
resets find them without credits, the credits of a block amount to at most one
distribution of its reward, over shares that were in the table at one time.
-/
theorem block_credited_once
    {events : List (TaskEvent Task Reply Change)}
    {final : System Database Task}
    (still : Along (crediting config node).step
      (Program.Meets uncreditedStill) (System.idle Database.empty) events)
    (taken : run (crediting config node).step (System.idle Database.empty)
      events = some final) :
    ∀ row ∈ final.store.blocks, ∃ seen, seen <+: final.store.shares ∧
      ∀ user, amountOf user (final.store.credits row.id) ≤
        amountOf user (distribution config row.rewardB3c
          (lastShares config seen row.foundAt)) := by
  intro row member
  obtain ⟨once, -⟩ := Program.run_holds (keeps_creditedOnce config node)
    (Program.holds_idle (creditedOnce_empty config)) still taken
  obtain none | ⟨-, seen, earlier, same⟩ := once.rows row member
  · refine ⟨[], List.nil_prefix, fun user => ?_⟩
    rw [none]
    exact amountOf_nonneg fun line => pos_of_mem_distribution
  · exact ⟨seen, earlier, fun user => same ▸ le_rfl⟩

end

/-! ### One block -/

/-- A tick up to the wait before the transaction. -/
def untilCommit (index : Nat) : List (TaskEvent Task Reply Change) :=
  untilConfirmed index ++ [.resume index .done, .resume index .done]

/-- Rows, shares and credits of the first block after some events. -/
def ledgerAfter (events : List (TaskEvent Task Reply Change)) :
    Option (List BlockRow × List ShareRow × List (Nat × Int)) :=
  (run (crediting smallPool smallNode).step (System.idle Database.empty)
    events).map fun final =>
      (final.store.blocks, final.store.shares, final.store.credits 1)

/-- Two ticks step by step in turn. -/
def bothUntilCommit : List (TaskEvent Task Reply Change) :=
  ((untilCommit 1).zip (untilCommit 2)).flatMap fun (first, second) =>
    [first, second]

/-- The row of the block once it is credited. -/
def creditedRow : BlockRow where
  id := 1
  height := 1
  hash := []
  rewardB3c := 5000000000
  poolFeeB3c := 50000000
  confirmations := 1
  isConfirmed := true
  isOrphan := false
  pplnsCredited := true
  foundAt := 0

/-- Two ticks that read the flag before either commits both credit. -/
theorem overlapping_ticks_credit_twice :
    ∃ final row,
      run (crediting smallPool smallNode).step (System.idle Database.empty)
          (recorded ++ bothUntilCommit ++
            [.resume 1 .done, .resume 2 .done]) = some final ∧
        row ∈ final.store.blocks ∧
          ∀ seen, seen <+: final.store.shares → ∃ user,
            amountOf user (distribution smallPool row.rewardB3c
                (lastShares smallPool seen row.foundAt)) <
              amountOf user (final.store.credits row.id) := by
  have after : ledgerAfter (recorded ++ bothUntilCommit ++
      [.resume 1 .done, .resume 2 .done]) =
        some ([creditedRow], [minerShare],
          [(7, 4950000000), (7, 4950000000)]) := by
    decide +kernel
  obtain ⟨final, taken, found⟩ := Option.map_eq_some_iff.mp after
  simp only [Prod.mk.injEq] at found
  obtain ⟨blocks, shares, credits⟩ := found
  refine ⟨final, creditedRow, taken, ?_, fun seen earlier => ⟨7, ?_⟩⟩
  · rw [blocks]
    exact List.mem_singleton_self _
  · rw [show creditedRow.id = 1 from rfl, credits]
    rw [shares] at earlier
    obtain rfl | ⟨rest, rfl, none⟩ := List.prefix_cons_iff.mp earlier
    · decide +kernel
    · rw [List.prefix_nil.mp none]
      decide +kernel

/-- One tick finds the block uncredited. -/
theorem single_tick_credits_once :
    ∃ final,
      run (crediting smallPool smallNode).step (System.idle Database.empty)
          (recorded ++ untilCommit 1 ++ [.resume 1 .done]) = some final ∧
        final.store.credits 1 = [(7, 4950000000)] ∧
          ∀ row ∈ final.store.blocks, ∃ seen, seen <+: final.store.shares ∧
            ∀ user, amountOf user (final.store.credits row.id) ≤
              amountOf user (distribution smallPool row.rewardB3c
                (lastShares smallPool seen row.foundAt)) := by
  have after : ledgerAfter (recorded ++ untilCommit 1 ++
      [.resume 1 .done]) =
        some ([creditedRow], [minerShare], [(7, 4950000000)]) := by
    decide +kernel
  obtain ⟨final, taken, found⟩ := Option.map_eq_some_iff.mp after
  simp only [Prod.mk.injEq] at found
  refine ⟨final, taken, found.2.2, block_credited_once ?_ taken⟩
  apply Program.along_of_checks
  decide +kernel

end B3Chain.Pool
