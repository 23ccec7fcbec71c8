import B3Chain.Words.JsString

/-!
# The pool's ledger and the distribution of a reward

The rows of the tables `blocks`, `balance_entries` and `shares` that crediting
reads and writes, and the statements that do it.  Amounts are integers in
units of `10 ^ -8` coins, the scale of the `NUMERIC(20,8)` columns; between
two roundings the arithmetic is that of the rationals.
-/

namespace B3Chain.Pool

open Words

/-- A row of `blocks`. -/
structure BlockRow where
  id : Nat
  height : Int
  hash : JsString
  rewardB3c : Int
  poolFeeB3c : Int
  confirmations : Int
  isConfirmed : Bool
  isOrphan : Bool
  pplnsCredited : Bool
  foundAt : Int
  deriving DecidableEq

/-- The column `kind` of `balance_entries`. -/
inductive EntryKind
  | credit
  | debit
  | fee
  | adjustment
  deriving DecidableEq, Repr

/-- A row of `balance_entries`. -/
structure BalanceEntry where
  userId : Nat
  blockId : Option Nat
  payoutId : Option Nat
  deltaB3c : Int
  kind : EntryKind
  deriving DecidableEq

/-- A row of `shares`. -/
structure ShareRow where
  id : Nat
  userId : Nat
  diff : ℚ
  submittedAt : Int
  deriving DecidableEq

/-- The tables; `id` is the primary key of `blocks`. -/
structure Database where
  blocks : List BlockRow
  nextBlockId : Nat
  entries : List BalanceEntry
  shares : List ShareRow
  unique : (blocks.map BlockRow.id).Nodup
  fresh : ∀ row ∈ blocks, row.id < nextBlockId

/-- A pool that has just been set up. -/
def Database.empty : Database where
  blocks := []
  nextBlockId := 1
  entries := []
  shares := []
  unique := List.nodup_nil
  fresh := fun _ member => absurd member List.not_mem_nil

/-- What crediting reads of `config.pool`. -/
structure PoolConfig where
  feePercent : ℚ
  pplnsNShares : Nat
  blockConfirmations : Int

/-! ## The distribution -/

/-- `toFixed(8)`, in units of `10 ^ -8`: halves are rounded away from zero. -/
def toFixed (amount : ℚ) : Int :=
  if amount < 0 then -⌊-amount + 1 / 2⌋ else ⌊amount + 1 / 2⌋

/-- `ORDER BY submitted_at DESC, id DESC`. -/
def newerFirst (left right : ShareRow) : Bool :=
  right.submittedAt < left.submittedAt ∨
    (right.submittedAt = left.submittedAt ∧ right.id ≤ left.id)

/-- The last shares submitted at or before a time. -/
def lastShares (config : PoolConfig) (shares : List ShareRow)
    (foundAt : Int) : List ShareRow :=
  ((shares.filter fun share => share.submittedAt ≤ foundAt).mergeSort
    newerFirst).take config.pplnsNShares

/-- `totals.set(uid, (totals.get(uid) ?? 0) + d)`. -/
def addTotal (uid : Nat) (d : ℚ) : List (Nat × ℚ) → List (Nat × ℚ)
  | [] => [(uid, d)]
  | (user, total) :: rest =>
    if user = uid then (user, total + d) :: rest
    else (user, total) :: addTotal uid d rest

/-- The difficulty of each user's shares, in the order of first appearance. -/
def totals (shares : List ShareRow) : List (Nat × ℚ) :=
  shares.foldl (fun sums share => addTotal share.userId share.diff sums) []

/-- `sumDiff`. -/
def sumDiff (shares : List ShareRow) : ℚ :=
  (shares.map ShareRow.diff).sum

/-- `grossFee`. -/
def grossFee (config : PoolConfig) (reward : Int) : ℚ :=
  reward * (config.feePercent / 100)

/-- `distributable`. -/
def distributable (config : PoolConfig) (reward : Int) : ℚ :=
  reward - grossFee config reward

/-- The amounts credited to the users of a window of shares. -/
def distribution (config : PoolConfig) (reward : Int)
    (shares : List ShareRow) : List (Nat × Int) :=
  (totals shares).filterMap fun (uid, diff) =>
    let rounded :=
      toFixed (diff / sumDiff shares * distributable config reward)
    if rounded ≤ 0 then none else some (uid, rounded)

theorem pos_of_mem_distribution {config : PoolConfig} {reward : Int}
    {shares : List ShareRow} {line : Nat × Int}
    (member : line ∈ distribution config reward shares) : 0 < line.2 := by
  obtain ⟨⟨uid, diff⟩, -, made⟩ := List.mem_filterMap.mp member
  simp only at made
  split at made
  · cases made
  · next positive =>
      cases made
      exact not_le.mp positive

/-! ## Statements -/

/-- The assignments of the `UPDATE blocks` statements. -/
inductive BlockUpdate
  | orphan (confirmations : Int)
  | count (confirmations : Int)
  | confirm
  | credit (poolFee : Int)
  | uncredit
  deriving DecidableEq

/-- The row after the assignment. -/
def BlockUpdate.apply : BlockUpdate → BlockRow → BlockRow
  | .orphan confirmations, row => { row with isOrphan := true, confirmations }
  | .count confirmations, row => { row with confirmations }
  | .confirm, row => { row with isConfirmed := true }
  | .credit poolFee, row =>
    { row with pplnsCredited := true, poolFeeB3c := poolFee }
  | .uncredit, row => { row with pplnsCredited := false }

/-- The columns that no statement assigns. -/
@[simp]
theorem BlockUpdate.apply_id (update : BlockUpdate) (row : BlockRow) :
    (update.apply row).id = row.id := by
  cases update <;> rfl

@[simp]
theorem BlockUpdate.apply_hash (update : BlockUpdate) (row : BlockRow) :
    (update.apply row).hash = row.hash := by
  cases update <;> rfl

@[simp]
theorem BlockUpdate.apply_rewardB3c (update : BlockUpdate) (row : BlockRow) :
    (update.apply row).rewardB3c = row.rewardB3c := by
  cases update <;> rfl

@[simp]
theorem BlockUpdate.apply_foundAt (update : BlockUpdate) (row : BlockRow) :
    (update.apply row).foundAt = row.foundAt := by
  cases update <;> rfl

/-- The row after `UPDATE blocks SET … WHERE id = $1`. -/
def updateRow (id : Nat) (update : BlockUpdate) (row : BlockRow) : BlockRow :=
  if row.id = id then update.apply row else row

@[simp]
theorem updateRow_id (id : Nat) (update : BlockUpdate) (row : BlockRow) :
    (updateRow id update row).id = row.id := by
  unfold updateRow
  split
  · exact update.apply_id row
  · rfl

@[simp]
theorem updateRow_hash (id : Nat) (update : BlockUpdate) (row : BlockRow) :
    (updateRow id update row).hash = row.hash := by
  unfold updateRow
  split
  · exact update.apply_hash row
  · rfl

@[simp]
theorem updateRow_rewardB3c (id : Nat) (update : BlockUpdate)
    (row : BlockRow) :
    (updateRow id update row).rewardB3c = row.rewardB3c := by
  unfold updateRow
  split
  · exact update.apply_rewardB3c row
  · rfl

@[simp]
theorem updateRow_foundAt (id : Nat) (update : BlockUpdate) (row : BlockRow) :
    (updateRow id update row).foundAt = row.foundAt := by
  unfold updateRow
  split
  · exact update.apply_foundAt row
  · rfl

namespace Database

variable (db : Database)

/-- The rows a tick of the confirmer takes up. -/
def selectUnconfirmed : List BlockRow :=
  ((db.blocks.filter fun row => !row.isConfirmed && !row.isOrphan).mergeSort
    fun left right => left.id ≤ right.id).take 200

/-- The confirmed row that `creditPplns` reads. -/
def selectConfirmed (id : Nat) : Option BlockRow :=
  db.blocks.find? fun row =>
    row.id = id && row.isConfirmed && !row.isOrphan

/-- `UPDATE blocks SET … WHERE id = $1`. -/
def updateBlock (id : Nat) (update : BlockUpdate) : Database :=
  { db with
    blocks := db.blocks.map (updateRow id update)
    unique := by
      rw [List.map_map, show BlockRow.id ∘ updateRow id update = BlockRow.id
        from funext (updateRow_id id update)]
      exact db.unique
    fresh := by
      intro row member
      obtain ⟨old, found, rfl⟩ := List.mem_map.mp member
      exact (updateRow_id id update old).symm ▸ db.fresh old found }

/-- The credit of one line of a distribution. -/
def creditEntry (id : Nat) (line : Nat × Int) : BalanceEntry where
  userId := line.1
  blockId := some id
  payoutId := none
  deltaB3c := line.2
  kind := .credit

/-- `INSERT INTO balance_entries`. -/
def insertEntries (entries : List BalanceEntry) : Database :=
  { db with entries := db.entries ++ entries }

/-- The transaction of `creditPplns`. -/
def credit (config : PoolConfig) (id : Nat) (reward : Int)
    (shares : List ShareRow) : Database :=
  if shares = [] then db.updateBlock id (.credit reward)
  else
    (db.insertEntries ((distribution config reward shares).map
      (creditEntry id))).updateBlock id
        (.credit (toFixed (grossFee config reward)))

/-- `DELETE FROM balance_entries WHERE block_id = $1 AND payout_id IS NULL`. -/
def deleteEntries (id : Nat) : Database :=
  { db with
    entries := db.entries.filter fun entry =>
      !(entry.blockId = some id && entry.payoutId.isNone) }

/-- `INSERT INTO blocks`; the column `hash` is unique. -/
def insertBlock (height : Int) (hash : JsString) (reward : Int)
    (foundAt : Int) : Option Database :=
  if db.blocks.any fun row => row.hash = hash then none
  else
    some { db with
      blocks := db.blocks ++
        [{ id := db.nextBlockId
           height := height
           hash := hash
           rewardB3c := reward
           poolFeeB3c := 0
           confirmations := 0
           isConfirmed := false
           isOrphan := false
           pplnsCredited := false
           foundAt := foundAt }]
      nextBlockId := db.nextBlockId + 1
      unique := by
        rw [List.map_append, List.map_singleton, List.nodup_append_comm,
          List.singleton_append, List.nodup_cons]
        refine ⟨fun repeated => ?_, db.unique⟩
        obtain ⟨row, member, same⟩ := List.mem_map.mp repeated
        exact absurd same (db.fresh row member).ne
      fresh := by
        intro row member
        obtain old | new := List.mem_append.mp member
        · exact Nat.lt_succ_of_lt (db.fresh row old)
        · rw [List.mem_singleton.mp new]
          exact Nat.lt_succ_self _ }

/-- What the users are credited for a block. -/
def credits (id : Nat) : List (Nat × Int) :=
  (db.entries.filter fun entry =>
    entry.blockId = some id && entry.kind = .credit).map fun entry =>
      (entry.userId, entry.deltaB3c)

end Database

/-! ## What the statements change -/

section

variable {config : PoolConfig} {db next : Database}

theorem eq_of_mem_blocks {left right : BlockRow} (first : left ∈ db.blocks)
    (second : right ∈ db.blocks) (same : left.id = right.id) : left = right :=
  List.inj_on_of_nodup_map db.unique first second same

theorem credit_blocks (db : Database) (config : PoolConfig) (id : Nat)
    (reward : Int) (window : List ShareRow) :
    ∃ fee, (db.credit config id reward window).blocks =
      db.blocks.map (updateRow id (.credit fee)) := by
  unfold Database.credit
  split
  · exact ⟨reward, rfl⟩
  · exact ⟨toFixed (grossFee config reward), rfl⟩

theorem credit_shares (db : Database) (config : PoolConfig) (id : Nat)
    (reward : Int) (window : List ShareRow) :
    (db.credit config id reward window).shares = db.shares := by
  unfold Database.credit
  split
  · rfl
  · rfl

theorem insertBlock_eq_some {height reward foundAt : Int} {hash : JsString}
    (inserted : db.insertBlock height hash reward foundAt = some next) :
    next.blocks = db.blocks ++
        [⟨db.nextBlockId, height, hash, reward, 0, 0, false, false, false,
          foundAt⟩] ∧
      next.nextBlockId = db.nextBlockId + 1 ∧ next.entries = db.entries ∧
        next.shares = db.shares := by
  unfold Database.insertBlock at inserted
  split at inserted
  · cases inserted
  · cases inserted
    exact ⟨rfl, rfl, rfl, rfl⟩

end

/-- The sum of the amounts on a user's lines. -/
def amountOf (user : Nat) (lines : List (Nat × Int)) : Int :=
  ((lines.filter fun line => line.1 = user).map Prod.snd).sum

theorem amountOf_nonneg {user : Nat} {lines : List (Nat × Int)}
    (positive : ∀ line ∈ lines, 0 < line.2) : 0 ≤ amountOf user lines := by
  apply List.sum_nonneg
  intro amount member
  obtain ⟨line, kept, rfl⟩ := List.mem_map.mp member
  exact (positive line (List.mem_of_mem_filter kept)).le

end B3Chain.Pool
