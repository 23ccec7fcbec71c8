import B3Chain.Chain.BlockIndex
import B3Chain.Consensus.ChainParams

/-!
# The block index of a node

The mutable part of `BlockManager` and `Chainstate`: the status of each block
index entry, the active chain, the candidate set and the operator's pin.  What
never changes about an entry (its ancestors, height and work) is the
`CBlockIndex` branch itself.

Left out are the fields that only reach logs and notifications
(`m_best_invalid`, `m_best_header`), the dirty set, the mempool, and pruning.
-/

namespace B3Chain.Node

open B3Chain.Chain
open B3Chain.Consensus
open B3Chain.Tree

/-! ## Status -/

/-- `nStatus`: the validity level and the flags the model reads. -/
structure BlockStatus where
  validity : Nat
  haveData : Bool
  failedValid : Bool
  failedChild : Bool
  parked : Bool
deriving DecidableEq, Repr

def blockValidTree : Nat := 2

def blockValidTransactions : Nat := 3

def blockValidScripts : Nat := 5

/-- `nStatus & BLOCK_FAILED_MASK`. -/
def BlockStatus.failed (status : BlockStatus) : Bool :=
  status.failedValid || status.failedChild

/-- `IsValid`. -/
def BlockStatus.isValid (status : BlockStatus) (nUpTo : Nat) : Bool :=
  !status.failed && decide (nUpTo ≤ status.validity)

/-- `RaiseValidity`. -/
def BlockStatus.raiseValidity (status : BlockStatus) (nUpTo : Nat) :
    BlockStatus :=
  if status.failed then status
  else if status.validity < nUpTo then { status with validity := nUpTo }
  else status

/-- `nStatus |= BLOCK_FAILED_VALID`. -/
def BlockStatus.markFailedValid (status : BlockStatus) : BlockStatus :=
  { status with failedValid := true }

/-- `(nStatus & ~BLOCK_FAILED_VALID) | BLOCK_FAILED_CHILD`. -/
def BlockStatus.markFailedChild (status : BlockStatus) : BlockStatus :=
  { status with failedValid := false, failedChild := true }

/-- `nStatus &= ~BLOCK_FAILED_MASK`. -/
def BlockStatus.clearFailed (status : BlockStatus) : BlockStatus :=
  { status with failedValid := false, failedChild := false }

/-- The mutable fields of a block index entry. -/
structure Entry where
  status : BlockStatus
  nTx : Nat
  chainTxCount : Nat
  nSequenceId : Int
deriving DecidableEq, Repr

/-- An entry as `AddToBlockIndex` creates it. -/
def Entry.fresh : Entry where
  status := ⟨blockValidTree, false, false, false, false⟩
  nTx := 0
  chainTxCount := 0
  nSequenceId := 0

/-- `HaveNumChainTxs`. -/
def Entry.haveNumChainTxs (entry : Entry) : Bool :=
  decide (entry.chainTxCount ≠ 0)

/-- The entry may enter the candidate set as far as its own data go. -/
def Entry.eligible (entry : Entry) : Bool :=
  entry.status.isValid blockValidTransactions && entry.haveNumChainTxs

/-! ## The chain state -/

/-- The shared state that `cs_main` protects. -/
structure ChainState where
  /-- The keys of `m_block_index`. -/
  index : List CBlockIndex
  entry : CBlockIndex → Entry
  /-- The tip of `m_chain`; genesis is always connected. -/
  tip : CBlockIndex
  setBlockIndexCandidates : List CBlockIndex
  blocksUnlinked : List (CBlockIndex × CBlockIndex)
  nBlockSequenceId : Int
  finalizedBlock : Option CBlockIndex
  /-- The pin stored in the block tree database. -/
  persistedPin : Option CBlockIndex

/-- What stays fixed while a node runs. -/
structure Config where
  params : Params
  /-- Where each entry lives in memory, the last tie breaker of the order. -/
  address : CBlockIndex → Nat
  minimumChainWork : Nat
  isInitialBlockDownload : Bool

namespace ChainState

/-- The status of an entry. -/
def status (state : ChainState) (block : CBlockIndex) : BlockStatus :=
  (state.entry block).status

/-- Change the status of one entry. -/
def setStatus (state : ChainState) (block : CBlockIndex)
    (change : BlockStatus → BlockStatus) : ChainState :=
  { state with
    entry := Function.update state.entry block
      { state.entry block with status := change (state.status block) } }

/-- Change the status of every indexed entry that meets a condition: a loop
over `m_block_index` whose body reads and writes its own entry only. -/
def setStatusWhere (state : ChainState) (condition : CBlockIndex → Bool)
    (change : BlockStatus → BlockStatus) : ChainState :=
  { state with
    entry := fun block =>
      if block ∈ state.index ∧ condition block then
        { state.entry block with status := change (state.status block) }
      else state.entry block }

/-- `m_chain.Contains`. -/
def contains (state : ChainState) (block : CBlockIndex) : Bool :=
  decide (block ≤ state.tip)

/-- `setBlockIndexCandidates.insert`. -/
def insertCandidate (state : ChainState) (block : CBlockIndex) :
    ChainState :=
  { state with
    setBlockIndexCandidates := state.setBlockIndexCandidates.insert block }

/-- `setBlockIndexCandidates.erase`. -/
def eraseCandidate (state : ChainState) (block : CBlockIndex) : ChainState :=
  { state with
    setBlockIndexCandidates :=
      state.setBlockIndexCandidates.filter fun other => other ≠ block }

/-- `m_chain.SetTip`. -/
def setTip (state : ChainState) (block : CBlockIndex) : ChainState :=
  { state with tip := block }

end ChainState

/-! ## Order and forks -/

/-- `CBlockIndexWorkComparator`: `left` sorts before (is worse than)
`right`. -/
def sortsBefore (config : Config) (state : ChainState)
    (left right : CBlockIndex) : Bool :=
  if CBlockIndex.nChainWork left > CBlockIndex.nChainWork right then false
  else if CBlockIndex.nChainWork left < CBlockIndex.nChainWork right then
    true
  else if (state.entry left).nSequenceId < (state.entry right).nSequenceId
    then false
  else if (state.entry left).nSequenceId > (state.entry right).nSequenceId
    then true
  else if config.address left < config.address right then false
  else decide (config.address left > config.address right)

/-- `CChain::FindFork` on the chain with the given tip. -/
def findFork (tip block : CBlockIndex) : Option CBlockIndex :=
  let start :=
    if CBlockIndex.nHeight block > CBlockIndex.nHeight tip then
      CBlockIndex.getAncestor block (CBlockIndex.nHeight tip)
    else some block
  start.bind fun walk => Branch.lastCommon walk tip

/-- Starting at the tip's height skips no block of the chain. -/
theorem findFork_eq (tip block : CBlockIndex) :
    findFork tip block = Branch.lastCommon block tip := by
  rw [findFork]
  split_ifs with above
  · obtain ⟨ancestor, found⟩ :=
      Branch.exists_ancestorAt (Nat.le_of_lt above)
    obtain ⟨below, height⟩ :=
      (Branch.ancestorAt_eq_some_iff _ _ _).mp found
    have start :
        CBlockIndex.getAncestor block (CBlockIndex.nHeight tip) =
          some ancestor :=
      found
    have same :
        {node : CBlockIndex | node ≤ ancestor ∧ node ≤ tip} =
          {node | node ≤ block ∧ node ≤ tip} := by
      ext node
      constructor
      · rintro ⟨onAncestor, onTip⟩
        exact ⟨le_trans onAncestor below, onTip⟩
      · rintro ⟨onBlock, onTip⟩
        refine ⟨Branch.le_of_height_le onBlock below ?_, onTip⟩
        rw [height]
        exact Branch.height_le_of_le onTip
    rw [start, Option.bind_some]
    apply Option.ext
    intro common
    rw [Branch.lastCommon_eq_some_iff,
      Branch.lastCommon_eq_some_iff, same]
  · rfl

/-- The fork point is the highest common block. -/
theorem findFork_eq_some_iff (tip block fork : CBlockIndex) :
    findFork tip block = some fork ↔
      IsGreatest {node : CBlockIndex | node ≤ block ∧ node ≤ tip} fork := by
  rw [findFork_eq, Branch.lastCommon_eq_some_iff]

theorem exists_findFork
    {base tip block : CBlockIndex} (onTip : base ≤ tip)
    (onBlock : base ≤ block) :
    ∃ fork, findFork tip block = some fork ∧ base ≤ fork := by
  rw [findFork_eq]
  exact Branch.exists_lastCommon onBlock onTip

/-- `PruneBlockIndexCandidates`: the sorted set loses all that is worse than
the tip. -/
def pruneBlockIndexCandidates (config : Config) (state : ChainState) :
    ChainState :=
  { state with
    setBlockIndexCandidates :=
      state.setBlockIndexCandidates.filter fun block =>
        !sortsBefore config state block state.tip }

/-- `TryAddBlockIndexCandidate` of the active chainstate. -/
def tryAddBlockIndexCandidate (config : Config) (state : ChainState)
    (block : CBlockIndex) : ChainState :=
  if sortsBefore config state block state.tip then state
  else state.insertCandidate block

end B3Chain.Node
