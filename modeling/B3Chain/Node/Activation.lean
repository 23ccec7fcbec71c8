import B3Chain.Node.State

/-!
# Activating the best chain

`FindMostWorkChain`, `ActivateBestChainStep` and one pass of the inner loop of
`ActivateBestChain`, with the marking of failed blocks they use.  The verdicts
of `ConnectBlock` and the success of `DisconnectTip` come from outside and may
differ from one pass to the next.

`ActivateBestChain` releases `cs_main` between the iterations of its outer
loop and keeps `pindexMostWork` across them.  `AbcPhase` is where its single
running instance stands; a pass of the inner loop never gives up the lock.
-/

namespace B3Chain.Node

open B3Chain.Chain
open B3Chain.Tree

/-! ## Marking failed blocks -/

/-- `BlockValidationResult`. -/
inductive BlockValidationResult where
  | blockResultUnset
  | blockConsensus
  | blockCachedInvalid
  | blockInvalidHeader
  | blockMutated
  | blockMissingPrev
  | blockInvalidPrev
  | blockTimeFuture
  | blockHeaderLowWork
  | blockPowBudget
  | blockDeepReorg
  | blockCheckpoint
deriving DecidableEq, Repr

/-- `SetBlockFailureFlags`: every strict descendant becomes a failed child. -/
def setBlockFailureFlags (state : ChainState) (invalidBlock : CBlockIndex) :
    ChainState :=
  state.setStatusWhere
    (fun block => decide (block ≠ invalidBlock ∧ invalidBlock ≤ block))
    BlockStatus.markFailedChild

/-- `InvalidChainFound`, apart from its warnings and the best header. -/
def invalidChainFound (state : ChainState) (pindexNew : CBlockIndex) :
    ChainState :=
  setBlockFailureFlags state pindexNew

/-- `InvalidBlockFound`. -/
def invalidBlockFound (state : ChainState) (pindex : CBlockIndex)
    (result : BlockValidationResult) : ChainState :=
  if result ≠ .blockMutated then
    invalidChainFound
      ((state.setStatus pindex BlockStatus.markFailedValid).eraseCandidate
        pindex) pindex
  else state

/-! ## The best candidate -/

/-- The last element of the sorted candidate set. -/
def bestCandidate (config : Config) (state : ChainState) :
    List CBlockIndex → Option CBlockIndex
  | [] => none
  | first :: rest =>
    match bestCandidate config state rest with
    | none => some first
    | some best =>
      if sortsBefore config state best first then some first
      else some best

/-- The walk from a candidate down to the active chain: the first block that
is failed or lacks its data. -/
def firstUnusable (state : ChainState) : CBlockIndex → Option CBlockIndex
  | .root header =>
    if state.contains (.root header) then none
    else if (state.status (.root header)).failed ||
        !(state.status (.root header)).haveData then
      some (.root header)
    else none
  | .child parent header =>
    if state.contains (.child parent header) then none
    else if (state.status (.child parent header)).failed ||
        !(state.status (.child parent header)).haveData then
      some (.child parent header)
    else firstUnusable state parent

/-- The blocks from `block` down to `stop`, without `stop`. -/
def branchAbove (stop : Option CBlockIndex) :
    CBlockIndex → List CBlockIndex
  | .root header =>
    if some (.root header) = stop then [] else [.root header]
  | .child parent header =>
    if some (.child parent header) = stop then []
    else .child parent header :: branchAbove stop parent

/-- One block of an unusable candidate chain is taken out of the set. -/
def dropCandidate (failedChain : Bool) (state : ChainState)
    (pindexFailed : CBlockIndex) : ChainState :=
  let marked :=
    if failedChain then
      state.setStatus pindexFailed fun status =>
        { status with failedChild := true }
    else
      match CBlockIndex.pprev pindexFailed with
      | none => state
      | some parent =>
        { state with
          blocksUnlinked := state.blocksUnlinked ++
            [(parent, pindexFailed)] }
  marked.eraseCandidate pindexFailed

/-- The chain from an unusable candidate to the block found unusable is
removed from the candidate set. -/
def removeUnusable (state : ChainState) (pindexNew pindexTest : CBlockIndex) :
    ChainState :=
  let failedChain := (state.status pindexTest).failed
  ((branchAbove (some pindexTest) pindexNew).foldl
    (dropCandidate failedChain) state).eraseCandidate pindexTest

/-- `FindMostWorkChain`.  Each failed attempt removes a candidate, so as many
attempts as there are candidates are enough. -/
def findMostWorkChain (config : Config) :
    Nat → ChainState → ChainState × Option CBlockIndex
  | 0, state => (state, none)
  | attempts + 1, state =>
    match bestCandidate config state state.setBlockIndexCandidates with
    | none => (state, none)
    | some pindexNew =>
      match firstUnusable state pindexNew with
      | none => (state, some pindexNew)
      | some pindexTest =>
        findMostWorkChain config attempts
          (removeUnusable state pindexNew pindexTest)

/-! ## One step towards the best chain -/

/-- What `ConnectBlock` says about a block. -/
inductive ConnectVerdict where
  | connected
  | invalid (result : BlockValidationResult)
  | systemError
deriving DecidableEq, Repr

/-- The outside of one pass: verdicts of `ConnectBlock`, and whether the disk
lets `DisconnectTip` succeed. -/
structure PassInput where
  connect : CBlockIndex → ConnectVerdict
  disconnect : CBlockIndex → Bool

/-- The disconnect loop: the tip it ends at, whether it reached the fork, and
how many blocks it disconnected. -/
def disconnectTips (input : PassInput) (pindexFork : Option CBlockIndex) :
    CBlockIndex → CBlockIndex × Bool × Nat
  | .root header =>
    (.root header, decide (some (.root header) = pindexFork), 0)
  | .child parent header =>
    if some (.child parent header) = pindexFork then
      (.child parent header, true, 0)
    else if input.disconnect (.child parent header) then
      let rest := disconnectTips input pindexFork parent
      (rest.1, rest.2.1, rest.2.2 + 1)
    else (.child parent header, false, 0)

/-- How the connect loop goes on after a batch. -/
inductive Progress where
  | goOn
  | stop
  | invalidFound
  | systemError
deriving DecidableEq, Repr

/-- The connect loop over one batch, lowest block first; `front` is the
highest block of the batch. -/
def connectBatch (config : Config) (input : PassInput)
    (pindexOldTip front : CBlockIndex) :
    List CBlockIndex → ChainState → ChainState × Progress
  | [], state => (state, .goOn)
  | pindexConnect :: rest, state =>
    match input.connect pindexConnect with
    | .connected =>
      let connected :=
        pruneBlockIndexCandidates config
          ((state.setStatus pindexConnect fun status =>
            status.raiseValidity blockValidScripts).setTip pindexConnect)
      if CBlockIndex.nChainWork pindexConnect >
          CBlockIndex.nChainWork pindexOldTip then
        (connected, .stop)
      else connectBatch config input pindexOldTip front rest connected
    | .invalid result =>
      let marked := invalidBlockFound state pindexConnect result
      (if result ≠ .blockMutated then invalidChainFound marked front
        else marked, .invalidFound)
    | .systemError => (state, .systemError)

/-- The blocks to connect, in batches of thirty-two. -/
def connectLoop (config : Config) (input : PassInput)
    (pindexOldTip : CBlockIndex) :
    Nat → List CBlockIndex → ChainState → ChainState × Progress
  | 0, _, state => (state, .goOn)
  | batches + 1, path, state =>
    match (path.take 32).getLast? with
    | none => (state, .goOn)
    | some front =>
      match connectBatch config input pindexOldTip front (path.take 32)
          state with
      | (next, .goOn) =>
        connectLoop config input pindexOldTip batches (path.drop 32)
          next
      | done => done

/-- The result of `ActivateBestChainStep`. -/
structure StepResult where
  state : ChainState
  /-- `false` after a system error. -/
  ok : Bool
  fInvalidFound : Bool
  /-- The number of blocks the step has disconnected. -/
  disconnected : Nat

/-- `ActivateBestChainStep`. -/
def activateBestChainStep (config : Config) (input : PassInput)
    (state : ChainState) (pindexMostWork : CBlockIndex) : StepResult :=
  let pindexOldTip := state.tip
  let pindexFork := findFork state.tip pindexMostWork
  let walked := disconnectTips input pindexFork state.tip
  let atFork := state.setTip walked.1
  if walked.2.1 then
    let path := (branchAbove pindexFork pindexMostWork).reverse
    let connected :=
      connectLoop config input pindexOldTip path.length path atFork
    { state := connected.1
      ok := decide (connected.2 ≠ .systemError)
      fInvalidFound := decide (connected.2 = .invalidFound)
      disconnected := walked.2.2 }
  else ⟨atFork, false, false, walked.2.2⟩

/-! ## The loop of `ActivateBestChain` -/

/-- Where the running `ActivateBestChain` stands. -/
inductive AbcPhase where
  /-- No instance is running. -/
  | idle
  /-- Between two iterations, with `cs_main` released. -/
  | unlocked (pindexMostWork : Option CBlockIndex)
  /-- Inside an iteration, before a pass of the inner loop. -/
  | locked (startingTip : CBlockIndex) (pindexMostWork : Option CBlockIndex)
      (blocksConnected : Bool)
deriving DecidableEq, Repr

/-- The end of an iteration, after the inner loop. -/
def leaveIteration (state : ChainState)
    (pindexMostWork : Option CBlockIndex) (blocksConnected : Bool) :
    AbcPhase :=
  if !blocksConnected then .idle
  else if some state.tip = pindexMostWork then .idle
  else .unlocked pindexMostWork

/-- The candidate a pass works on: the cached one, or a new search. -/
def chooseMostWork (config : Config) (state : ChainState)
    (pindexMostWork : Option CBlockIndex) :
    ChainState × Option CBlockIndex :=
  match pindexMostWork with
  | none =>
    findMostWorkChain config state.setBlockIndexCandidates.length state
  | some best => (state, some best)

/-- One pass of the inner loop of `ActivateBestChain`. -/
def abcPass (config : Config) (input : PassInput) (state : ChainState)
    (startingTip : CBlockIndex) (pindexMostWork : Option CBlockIndex)
    (blocksConnected : Bool) : ChainState × AbcPhase :=
  match chooseMostWork config state pindexMostWork with
  | (searched, none) =>
    (searched, leaveIteration searched none blocksConnected)
  | (searched, some best) =>
    if best = searched.tip then
      (searched, leaveIteration searched (some best) blocksConnected)
    else
      let result := activateBestChainStep config input searched best
      if result.ok then
        let kept := if result.fInvalidFound then none else some best
        if sortsBefore config result.state result.state.tip startingTip then
          (result.state, .locked startingTip kept true)
        else (result.state, leaveIteration result.state kept true)
      else (result.state, .idle)

end B3Chain.Node
