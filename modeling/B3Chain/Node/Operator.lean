import B3Chain.Node.Acceptance

/-!
# Operator commands and restart

`InvalidateBlock`, `ResetBlockFailureFlags`, `FinalizeBlock`,
`UnfinalizeBlock`, `ParkBlock`, `UnparkBlock`, and the loading of the block
index at a restart.  Each call is one step here; the activation of the best
chain that follows some of them is a sequence of passes of its own.
-/

namespace B3Chain.Node

open B3Chain.Chain
open B3Chain.Tree

/-- `setBlockIndexCandidates.insert` in a loop. -/
def ChainState.insertCandidates (state : ChainState)
    (blocks : List CBlockIndex) : ChainState :=
  blocks.foldl ChainState.insertCandidate state

/-! ## InvalidateBlock -/

/-- The outside of the disconnecting walk: whether the disk lets
`DisconnectTip` succeed, and whether a shutdown is noticed at a tip. -/
structure WalkInput where
  disconnect : CBlockIndex → Bool
  interrupt : CBlockIndex → Bool

/-- The local variables of `InvalidateBlock` next to the shared state. -/
structure Walk where
  state : ChainState
  toMarkFailed : CBlockIndex
  pindexWasInChain : Bool
  highpowOutofchainHeaders : List CBlockIndex

/-- The headers that may become candidates, or failed, during the walk. -/
def highpowOutofchainHeaders (config : Config) (state : ChainState)
    (pprev : CBlockIndex) : List CBlockIndex :=
  state.index.filter fun candidate =>
    !state.contains candidate && !sortsBefore config state candidate pprev &&
      !(state.status candidate).failed

/-- The tip is disconnected down to its parent and marked. -/
def disconnectInvalid (state : ChainState)
    (invalidWalkTip pprev : CBlockIndex) : ChainState :=
  (((state.setTip pprev).setStatus invalidWalkTip
    BlockStatus.markFailedValid).eraseCandidate
      invalidWalkTip).insertCandidate pprev

/-- Only the last disconnected block is to stay `BLOCK_FAILED_VALID`; the one
before becomes a failed child. -/
def relabelPrevious (state : ChainState)
    (toMarkFailed invalidWalkTip : CBlockIndex) : ChainState :=
  if CBlockIndex.pprev toMarkFailed = some invalidWalkTip ∧
      (state.status toMarkFailed).failedValid then
    state.setStatus toMarkFailed BlockStatus.markFailedChild
  else state

/-- The headers from `lower_bound` on that descend from the disconnected
block. -/
def headersBelow (headers : List CBlockIndex)
    (invalidWalkTip pprev : CBlockIndex) : List CBlockIndex :=
  headers.filter fun candidate =>
    decide (CBlockIndex.nChainWork pprev ≤
      CBlockIndex.nChainWork candidate) &&
      decide (invalidWalkTip ≤ candidate)

/-- The other headers from `lower_bound` on that become candidates. -/
def headersOffered (config : Config) (state : ChainState)
    (headers : List CBlockIndex) (invalidWalkTip pprev : CBlockIndex) :
    List CBlockIndex :=
  headers.filter fun candidate =>
    decide (CBlockIndex.nChainWork pprev ≤
      CBlockIndex.nChainWork candidate) &&
      !decide (invalidWalkTip ≤ candidate) &&
      !sortsBefore config state candidate pprev &&
      (state.entry candidate).eligible

/-- The body of the walk: the tip `invalidWalkTip` is disconnected down to its
parent `pprev` and marked, then the headers outside the chain are looked at. -/
def walkStep (config : Config) (walk : Walk)
    (invalidWalkTip pprev : CBlockIndex) : Walk :=
  let relabelled :=
    relabelPrevious (disconnectInvalid walk.state invalidWalkTip pprev)
      walk.toMarkFailed invalidWalkTip
  let below :=
    headersBelow walk.highpowOutofchainHeaders invalidWalkTip pprev
  { state :=
      (relabelled.setStatusWhere (fun block => decide (block ∈ below))
        BlockStatus.markFailedChild).insertCandidates
          (headersOffered config relabelled walk.highpowOutofchainHeaders
            invalidWalkTip pprev)
    toMarkFailed := invalidWalkTip
    pindexWasInChain := true
    highpowOutofchainHeaders :=
      walk.highpowOutofchainHeaders.filter fun candidate =>
        candidate ∉ below }

/-- The disconnecting walk from the tip; `false` after a failed disconnect. -/
def invalidateWalk (config : Config) (input : WalkInput)
    (pindex : CBlockIndex) : CBlockIndex → Walk → Walk × Bool
  | .root _, walk => (walk, true)
  | .child parent header, walk =>
    if input.interrupt (.child parent header) then (walk, true)
    else if ¬pindex ≤ .child parent header then (walk, true)
    else if input.disconnect (.child parent header) then
      invalidateWalk config input pindex parent
        (walkStep config walk (.child parent header) parent)
    else (walk, false)

/-- The indexed blocks that belong into the candidate set. -/
def missingCandidates (config : Config) (state : ChainState) :
    List CBlockIndex :=
  state.index.filter fun block =>
    (state.entry block).eligible && !sortsBefore config state block state.tip

/-- A block that never was in the chain is marked after the walk. -/
def markOutside (walk : Walk) (pindex : CBlockIndex) : ChainState :=
  if !walk.pindexWasInChain && !(walk.state.status pindex).failed then
    (walk.state.setStatus pindex
      BlockStatus.markFailedValid).eraseCandidate pindex
  else walk.state

/-- The last critical section of `InvalidateBlock`. -/
def finishInvalidate (config : Config) (walk : Walk)
    (pindex : CBlockIndex) : ChainState × Bool :=
  if walk.state.contains walk.toMarkFailed then (walk.state, false)
  else
    (invalidChainFound
      ((markOutside walk pindex).insertCandidates
        (missingCandidates config (markOutside walk pindex)))
      walk.toMarkFailed, true)

/-- `InvalidateBlock`. -/
def invalidateBlock (config : Config) (input : WalkInput)
    (state : ChainState) (pindex : CBlockIndex) : ChainState × Bool :=
  match CBlockIndex.pprev pindex with
  | none => (state, false)
  | some pprev =>
    let start : Walk :=
      ⟨state, pindex, false, highpowOutofchainHeaders config state pprev⟩
    match invalidateWalk config input pindex state.tip start with
    | (walk, false) => (walk.state, false)
    | (walk, true) => finishInvalidate config walk pindex

/-! ## Clearing flags -/

/-- Two blocks of which one is an ancestor of the other, or the same. -/
def comparable (left right : CBlockIndex) : Bool :=
  decide (left ≤ right) || decide (right ≤ left)

/-- A loop that clears flags of selected blocks and makes those candidates
that have become eligible and are better than the tip. -/
def clearWhere (config : Config) (state : ChainState)
    (selected : CBlockIndex → Bool) (change : BlockStatus → BlockStatus) :
    ChainState :=
  let cleared := state.setStatusWhere selected change
  cleared.insertCandidates <| state.index.filter fun block =>
    selected block && (cleared.entry block).eligible &&
      sortsBefore config cleared cleared.tip block

/-- `ResetBlockFailureFlags`. -/
def resetBlockFailureFlags (config : Config) (state : ChainState)
    (pindex : CBlockIndex) : ChainState :=
  clearWhere config state
    (fun block => (state.status block).failed && comparable pindex block)
    BlockStatus.clearFailed

/-! ## Parking -/

/-- `nStatus |= BLOCK_PARKED`. -/
def BlockStatus.markParked (status : BlockStatus) : BlockStatus :=
  { status with parked := true }

/-- `nStatus &= ~(BLOCK_PARKED | BLOCK_FAILED_MASK)`. -/
def BlockStatus.clearParked (status : BlockStatus) : BlockStatus :=
  { status with failedValid := false, failedChild := false, parked := false }

/-- `ParkBlock`. -/
def parkBlock (config : Config) (input : WalkInput) (state : ChainState)
    (pindex : CBlockIndex) : ChainState × Bool :=
  match invalidateBlock config input state pindex with
  | (invalidated, false) => (invalidated, false)
  | (invalidated, true) =>
    ((invalidated.setStatus pindex
      BlockStatus.markParked).setStatusWhere
        (fun block => decide (pindex ≤ block)) BlockStatus.markParked, true)

/-- `UnparkBlock` up to its call of `ActivateBestChain`. -/
def unparkBlock (config : Config) (state : ChainState)
    (pindex : CBlockIndex) : ChainState :=
  if (state.status pindex).parked then
    clearWhere config state
      (fun block => (state.status block).parked && comparable pindex block)
      BlockStatus.clearParked
  else state

/-! ## The pin -/

/-- `FinalizeBlock`: `checkpointConflict` says that an emergency checkpoint at
this height names another block, `persisted` that the database took the new
pin. -/
def finalizeBlock (state : ChainState) (pindex : CBlockIndex)
    (checkpointConflict persisted : Bool) :
    ChainState × Option Rejection :=
  if CBlockIndex.nHeight pindex = 0 then
    (state, some ⟨.blockResultUnset, "finalize-genesis"⟩)
  else if !state.contains pindex then
    (state, some ⟨.blockResultUnset, "finalize-not-on-active-chain"⟩)
  else if (state.finalizedBlock.any fun finalized =>
      decide (CBlockIndex.nHeight pindex < CBlockIndex.nHeight finalized)) then
    (state, some ⟨.blockResultUnset, "finalize-lower-than-current"⟩)
  else if checkpointConflict then
    (state, some ⟨.blockResultUnset,
      "finalize-conflicts-with-emergency-checkpoint"⟩)
  else
    ({ state with
        finalizedBlock := some pindex
        persistedPin := if persisted then some pindex
          else state.persistedPin }, none)

/-- `UnfinalizeBlock`. -/
def unfinalizeBlock (state : ChainState) (persisted : Bool) : ChainState :=
  match state.finalizedBlock with
  | none => state
  | some _ =>
    { state with
      finalizedBlock := none
      persistedPin := if persisted then none else state.persistedPin }

/-! ## Restart -/

/-- The failure flags after `BlockManager::LoadBlockIndex`: a child of a failed
block is failed. -/
def loadedStatus (state : ChainState) : CBlockIndex → BlockStatus
  | .root header => state.status (.root header)
  | .child parent header =>
    if !(state.status (.child parent header)).failed &&
        (loadedStatus state parent).failed then
      { state.status (.child parent header) with failedChild := true }
    else state.status (.child parent header)

/-- `m_chain_tx_count`, which is not stored, as loading computes it. -/
def loadedTxCount (state : ChainState) : CBlockIndex → Nat
  | .root header => (state.entry (.root header)).nTx
  | .child parent header =>
    if (state.entry (.child parent header)).nTx > 0 ∧
        loadedTxCount state parent > 0 then
      loadedTxCount state parent + (state.entry (.child parent header)).nTx
    else 0

/-- The unlinked pairs found while loading. -/
def loadedUnlinked (state : ChainState) : List (CBlockIndex × CBlockIndex) :=
  state.index.filterMap fun block =>
    match CBlockIndex.pprev block with
    | none => none
    | some parent =>
      if (state.entry block).nTx > 0 ∧ loadedTxCount state parent = 0 then
        some (parent, block)
      else none

/-- `LoadBlockIndex` and `LoadChainTip` after a clean shutdown, which has
flushed every entry of the index and its flags; `coinsTip` is the best block of
the coins database. -/
def restart (config : Config) (state : ChainState) (coinsTip : CBlockIndex) :
    ChainState :=
  let loaded :=
    { state with
      entry := fun block =>
        { state.entry block with
          status := loadedStatus state block
          chainTxCount := loadedTxCount state block
          nSequenceId := 0 }
      blocksUnlinked := loadedUnlinked state
      nBlockSequenceId := 1
      tip := coinsTip
      finalizedBlock := state.persistedPin.filter fun pin =>
        decide (pin ∈ state.index) }
  let candidates := loaded.index.filter fun block =>
    (loaded.status block).isValid blockValidTransactions &&
      ((loaded.entry block).haveNumChainTxs ||
        (CBlockIndex.pprev block).isNone)
  pruneBlockIndexCandidates config
    { loaded with setBlockIndexCandidates := candidates }

end B3Chain.Node
