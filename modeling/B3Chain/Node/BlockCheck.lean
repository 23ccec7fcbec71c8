import B3Chain.Node.Acceptance
import B3Chain.Pow.HeaderCheck

/-!
# Checking a block

`CheckBlockHeader`, `CheckBlock` and the verdict of `ConnectTip`, down to the
clock that the verifier reads, and the calls that use them: `AcceptBlock`, which
is given a block as a file or a peer delivers it, and `ProcessNewBlock`, which
checks the same block object once before.

What transaction checks, scripts and disk say about a block comes with the
block or with the call.
-/

namespace B3Chain.Node

open B3Chain.Chain
open B3Chain.Consensus
open B3Chain.Crypto
open B3Chain.Pow
open B3Chain.Tree

/-! ## Blocks -/

/-- What `CheckBlock` reads of a transaction. -/
structure CTransaction where
  isCoinBase : Bool
  /-- The reject reason of `CheckTransaction`. -/
  checkTransaction : Option String
  getLegacySigOpCount : Nat
deriving DecidableEq, Repr

/-- A block besides its header. -/
structure CBlock where
  vtx : List CTransaction
  /-- `GetSerializeSize` without witness data. -/
  serializeSize : Nat
  /-- `BlockMerkleRoot` and its out-parameter. -/
  blockMerkleRoot : Nat
  mutated : Bool
  checkSignetBlockSolution : Bool
  contextualCheckBlock : Option Rejection
  /-- What the rules of `ConnectBlock` after its `CheckBlock` say. -/
  connectRules : Option BlockValidationResult
  /-- This object has passed `CheckBlock` before. -/
  fChecked : Bool
deriving DecidableEq, Repr

def maxBlockWeight : Nat := 4000000

def maxBlockSigopsCost : Nat := 80000

def witnessScaleFactor : Nat := 4

/-- `CheckMerkleRoot`. -/
def checkMerkleRoot (header : CBlockHeader) (block : CBlock) :
    Option Rejection :=
  if header.hashMerkleRoot ≠ block.blockMerkleRoot then
    some ⟨.blockMutated, "bad-txnmrklroot"⟩
  else if block.mutated then some ⟨.blockMutated, "bad-txns-duplicate"⟩
  else none

/-- `nSigOps`, a 32-bit number. -/
def nSigOps (block : CBlock) : Nat :=
  (block.vtx.map CTransaction.getLegacySigOpCount).sum % 2 ^ 32

/-- The checks of `CheckBlock` on the transactions. -/
def checkTransactions (block : CBlock) : Option Rejection :=
  if block.vtx.isEmpty ∨
      block.vtx.length * witnessScaleFactor > maxBlockWeight ∨
      block.serializeSize * witnessScaleFactor > maxBlockWeight then
    some ⟨.blockConsensus, "bad-blk-length"⟩
  else if !(block.vtx.take 1).all CTransaction.isCoinBase then
    some ⟨.blockConsensus, "bad-cb-missing"⟩
  else if (block.vtx.drop 1).any CTransaction.isCoinBase then
    some ⟨.blockConsensus, "bad-cb-multiple"⟩
  else
    match block.vtx.findSome? CTransaction.checkTransaction with
    | some reason => some ⟨.blockConsensus, reason⟩
    | none =>
      if nSigOps block * witnessScaleFactor % 2 ^ 32 >
          maxBlockSigopsCost then
        some ⟨.blockConsensus, "bad-blk-sigops"⟩
      else none

/-- The part of `CheckBlock` after the header. -/
def checkContents (params : Params) (header : CBlockHeader)
    (block : CBlock) (fCheckPOW fCheckMerkleRoot : Bool) :
    Option Rejection :=
  if params.signetBlocks && fCheckPOW && !block.checkSignetBlockSolution then
    some ⟨.blockConsensus, "bad-signet-blksig"⟩
  else
    match if fCheckMerkleRoot then checkMerkleRoot header block
      else none with
    | some rejection => some rejection
    | none => checkTransactions block

/-! ## The checks -/

/-- The rejection of a header whose verification ran out of time. -/
def powBudgetExceeded : Rejection :=
  ⟨.blockPowBudget, "b3pow-budget-exceeded"⟩

/-- `CheckBlockHeader`. -/
def checkBlockHeader (hashes : HashFunctions) (params : Params)
    (pindex : CBlockIndex) (fCheckPOW : Bool) (depth : HeaderDepth)
    (elapsed : Nat → Int) : Option Rejection :=
  if !fCheckPOW then none
  else
    match checkBlockHeaderPoW hashes params pindex depth elapsed with
    | .pass => none
    | .budgetExceeded => some powBudgetExceeded
    | .fail => some ⟨.blockInvalidHeader, "high-hash"⟩

/-- `CheckBlock`; the header is always given the full budget. -/
def checkBlock (hashes : HashFunctions) (params : Params)
    (pindex : CBlockIndex) (block : CBlock)
    (fCheckPOW fCheckMerkleRoot : Bool) (elapsed : Nat → Int) :
    Option Rejection :=
  if block.fChecked then none
  else
    match checkBlockHeader hashes params pindex fCheckPOW .tip elapsed with
    | some rejection => some rejection
    | none =>
      checkContents params (Branch.label pindex) block fCheckPOW
        fCheckMerkleRoot

/-- The outside of `ConnectTip` besides the block and the clock. -/
structure ConnectCall where
  /-- The block could be read, or was in memory. -/
  readBlock : Bool
  /-- The undo data could be written and the coins flushed. -/
  flushed : Bool
deriving DecidableEq, Repr

/-- `ConnectBlock` within `ConnectTip`: `fJustCheck` is false, and the proof
of work of genesis is not checked. -/
def connectVerdict (hashes : HashFunctions) (params : Params)
    (pindex : CBlockIndex) (block : CBlock) (call : ConnectCall)
    (elapsed : Nat → Int) : ConnectVerdict :=
  if !call.readBlock then .systemError
  else
    match checkBlock hashes params pindex block
        (CBlockIndex.pprev pindex).isSome true elapsed with
    | some rejection =>
      if rejection.result = .blockMutated then .systemError
      else .invalid rejection.result
    | none =>
      match block.connectRules with
      | some result => .invalid result
      | none => if call.flushed then .connected else .systemError

/-- `ConnectTip`: the new state and whether it succeeds. -/
def connectTip (state : ChainState) (pindexNew : CBlockIndex) :
    ConnectVerdict → ChainState × Bool
  | .connected =>
    ((state.setStatus pindexNew fun status =>
      status.raiseValidity blockValidScripts).setTip pindexNew, true)
  | .invalid result => (invalidBlockFound state pindexNew result, false)
  | .systemError => (state, false)

/-! ## Deliveries -/

/-- The outside of one `AcceptBlock` call besides the block and the clock. -/
structure Delivery where
  contextualCheckBlockHeader : Option Rejection
  matchesCheckpoints : Bool
  minPowChecked : Bool
  fRequested : Bool
  diskOk : Bool

/-- The clocks of the two verifications in `AcceptBlock`. -/
structure Clocks where
  header : Nat → Int
  block : Nat → Int

/-- The depth at which `AcceptBlockHeader` verifies a header. -/
def depthOf (config : Config) (state : ChainState) (pindex : CBlockIndex) :
    HeaderDepth :=
  match CBlockIndex.pprev pindex with
  | none => .tip
  | some parent =>
    headerDepth config.isInitialBlockDownload state.tip parent

/-- The verdicts `AcceptBlock` works with. -/
def acceptInput (hashes : HashFunctions) (config : Config)
    (state : ChainState) (pindex : CBlockIndex) (block : CBlock)
    (delivery : Delivery) (clocks : Clocks) : AcceptInput where
  checkBlockHeader :=
    checkBlockHeader hashes config.params pindex true
      (depthOf config state pindex) clocks.header
  contextualCheckBlockHeader := delivery.contextualCheckBlockHeader
  matchesCheckpoints := delivery.matchesCheckpoints
  minPowChecked := delivery.minPowChecked
  fRequested := delivery.fRequested
  checkBlock :=
    checkBlock hashes config.params pindex block true true clocks.block
  contextualCheckBlock := block.contextualCheckBlock
  diskOk := delivery.diskOk
  vtxSize := block.vtx.length

/-- `AcceptBlock` on a block that some clock is running for. -/
def acceptTimed (hashes : HashFunctions) (config : Config)
    (state : ChainState) (pindex : CBlockIndex) (block : CBlock)
    (delivery : Delivery) (clocks : Clocks) :
    ChainState × AcceptOutcome :=
  acceptBlock config state pindex
    (acceptInput hashes config state pindex block delivery clocks)

/-- The critical section of `ProcessNewBlock`: `CheckBlock` runs first, on its
own clock, and leaves its mark on the block object. -/
def processNewBlock (hashes : HashFunctions) (config : Config)
    (state : ChainState) (pindex : CBlockIndex) (block : CBlock)
    (delivery : Delivery) (first : Nat → Int) (clocks : Clocks) :
    ChainState × AcceptOutcome :=
  match checkBlock hashes config.params pindex block true true first with
  | some rejection => (state, .rejected rejection)
  | none =>
    acceptTimed hashes config state pindex { block with fChecked := true }
      delivery clocks

end B3Chain.Node
