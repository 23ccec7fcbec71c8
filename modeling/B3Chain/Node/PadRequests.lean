import B3Chain.Cache.TipPins
import B3Chain.Node.IndexedRuns
import B3Chain.Node.WallClock

/-!
# The pads that verification asks for

`CheckBlockHeaderPoW` asks the pad cache for the pad of the parent, and
`UpdateTip` pins the pads of the new tip.  A node is taken together with its
cache, and each critical section with the keys it asks for, one after the
other, next to the index of that moment.

Headers are verified after their parent has been looked up, and connected
blocks are entries of the index.  `ProcessNewBlock` verifies a block before
anything is looked up: a block with an unknown parent costs a pad.
-/

namespace B3Chain.Node

open B3Chain.Arith
open B3Chain.Cache
open B3Chain.Chain
open B3Chain.Consensus
open B3Chain.Crypto
open B3Chain.Linked
open B3Chain.Machine
open B3Chain.Pow
open B3Chain.Tree

/-! ## Keys -/

/-- One call of the cache, and the index at that moment. -/
structure PadUse where
  index : List CBlockIndex
  key : Lane
  /-- It is `Pin` and not `GetOrBuild`. -/
  pins : Bool

def PadUse.call (use : PadUse) : Call Lane :=
  if use.pins then .pin use.key else .getOrBuild use.key

section Uses

variable (hashes : HashFunctions) (config : Config)

/-- The pad `CheckBlockHeaderPoW` asks for once the target is valid. -/
def powUses (index : List CBlockIndex) (prevBlockHash : Lane)
    (nBits : Nat) : List PadUse :=
  if (deriveTarget nBits config.params.powLimit).isSome then
    [⟨index, prevBlockHash, false⟩]
  else []

/-- `CheckBlock`. -/
def checkBlockUses (index : List CBlockIndex) (prevBlockHash : Lane)
    (nBits : Nat) (block : CBlock) (fCheckPOW : Bool) : List PadUse :=
  if block.fChecked || !fCheckPOW then []
  else powUses config index prevBlockHash nBits

/-- `AcceptBlockHeader`: the parent is looked up first. -/
def headerUses (state : ChainState) : CBlockIndex → List PadUse
  | .root _ => []
  | .child parent header =>
    if .child parent header ∈ state.index then []
    else if parent ∉ state.index then []
    else if (state.status parent).failed then []
    else powUses config state.index (getBlockHash hashes parent) header.nBits

/-- `ProcessNewBlockHeaders`. -/
def headersUses :
    List (CBlockIndex × AcceptInput) → ChainState → List PadUse
  | [], _ => []
  | (pindex, input) :: rest, state =>
    headerUses hashes config state pindex ++
      match acceptBlockHeader state pindex input with
      | (_, some _) => []
      | (headed, none) => headersUses rest headed

/-- `AcceptBlock`. -/
def acceptUses (state : ChainState) (pindex : CBlockIndex) (block : CBlock)
    (input : AcceptInput) : List PadUse :=
  headerUses hashes config state pindex ++
    if reachesCheckBlock config state pindex input then
      checkBlockUses config (acceptBlockHeader state pindex input).1.index
        (prevBlockHash hashes pindex) (CBlockIndex.nBits pindex) block true
    else []

/-- `ProcessNewBlock`. -/
def processUses (state : ChainState) (pindex : CBlockIndex)
    (block : CBlock) (delivery : Delivery) (first : Nat → Int)
    (clocks : Clocks) : List PadUse :=
  checkBlockUses config state.index (prevBlockHash hashes pindex)
      (CBlockIndex.nBits pindex) block true ++
    match checkBlock hashes config.params pindex block true true first with
    | some _ => []
    | none =>
      acceptUses hashes config state pindex { block with fChecked := true }
        (acceptInput hashes config state pindex
          { block with fChecked := true } delivery clocks)

/-- The hashes that `UpdateTip` pins. -/
def tipKeys : Nat → CBlockIndex → List Lane
  | 0, _ => []
  | count + 1, w =>
    match CBlockIndex.pprev w with
    | none => []
    | some parent => getBlockHash hashes parent :: tipKeys count parent

/-- `UpdateTip`. -/
def tipUses (index : List CBlockIndex) (pindexNew : CBlockIndex) :
    List PadUse :=
  (tipKeys hashes 3 pindexNew).map fun key => ⟨index, key, true⟩

/-- The walk down from a tip, with an `UpdateTip` for each parent. -/
def retreatUses (index : List CBlockIndex) (stop : CBlockIndex) :
    CBlockIndex → List PadUse
  | .root _ => []
  | .child parent header =>
    if .child parent header = stop then []
    else tipUses hashes index parent ++ retreatUses index stop parent

/-- The connect loop: `ConnectBlock` and, if it succeeds, `UpdateTip`. -/
def connectUses (index : List CBlockIndex) (blocks : CBlockIndex → CBlock)
    (calls : CBlockIndex → ConnectCall) (input : PassInput)
    (pindexOldTip : CBlockIndex) : List CBlockIndex → List PadUse
  | [] => []
  | pindexConnect :: rest =>
    (if (calls pindexConnect).readBlock then
      checkBlockUses config index (prevBlockHash hashes pindexConnect)
        (CBlockIndex.nBits pindexConnect) (blocks pindexConnect)
        (CBlockIndex.pprev pindexConnect).isSome
    else []) ++
      match input.connect pindexConnect with
      | .connected =>
        tipUses hashes index pindexConnect ++
          if CBlockIndex.nChainWork pindexConnect >
              CBlockIndex.nChainWork pindexOldTip then []
          else connectUses index blocks calls input pindexOldTip rest
      | _ => []

/-- A pass of `ActivateBestChain`. -/
def passUses (node : NodeState) (blocks : CBlockIndex → CBlock)
    (calls : CBlockIndex → ConnectCall) (input : PassInput) :
    List PadUse :=
  match passTarget config node with
  | none => []
  | some best =>
    let index := node.chain.index
    let tip := node.chain.tip
    let pindexFork := findFork tip best
    let walked := disconnectTips input pindexFork tip
    retreatUses hashes index walked.1 tip ++
      if walked.2.1 then
        connectUses hashes config index blocks calls input tip
          (branchAbove pindexFork best).reverse
      else []

end Uses

/-! ## The node and its cache -/

/-- A node and `m_b3pow_cache`. -/
structure PadNode where
  node : NodeState
  cache : PadCache Lane Pad

/-- The header of a delivery and the clock of its verification. -/
structure HeaderDelivery where
  pindex : CBlockIndex
  delivery : Delivery
  elapsed : Nat → Int

/-- The critical sections of a node. -/
inductive PadEvent where
  | processNewBlockHeaders (headers : List HeaderDelivery)
  | timed (event : TimedEvent)
  /-- `ProcessNewBlock` on a block whose `hashPrevBlock` is the hash of no
  block at all. -/
  | processUnlinked (hashPrevBlock : Lane) (header : CBlockHeader)
      (block : CBlock)
  /-- An operator command or a restart. -/
  | command (event : Event)

section Steps

variable (hashes : HashFunctions) (config : Config)

/-- The verdicts `AcceptBlockHeader` works with; the others are not read. -/
def headerInput (state : ChainState) (header : HeaderDelivery) :
    AcceptInput where
  checkBlockHeader :=
    checkBlockHeader hashes config.params header.pindex true
      (depthOf config state header.pindex) header.elapsed
  contextualCheckBlockHeader := header.delivery.contextualCheckBlockHeader
  matchesCheckpoints := header.delivery.matchesCheckpoints
  minPowChecked := header.delivery.minPowChecked
  fRequested := header.delivery.fRequested
  checkBlock := none
  contextualCheckBlock := none
  diskOk := header.delivery.diskOk
  vtxSize := 0

/-- The headers of a message with their verdicts. -/
def headerInputs (state : ChainState) (headers : List HeaderDelivery) :
    List (CBlockIndex × AcceptInput) :=
  headers.map fun header =>
    (header.pindex, headerInput hashes config state header)

/-- What a section does to the node.  The header of an unlinked block is
rejected, as its parent is not found. -/
def padNodeStep (node : NodeState) : PadEvent → Option NodeState
  | .processNewBlockHeaders headers =>
    nodeStep config node (.processNewBlockHeaders
      (headerInputs hashes config node.chain headers))
  | .timed event => timedStep hashes config node event
  | .processUnlinked _ _ _ => underMain node id
  | .command event =>
    if event.isArrival then none else step config node event

/-- The keys a section asks for. -/
def padUses (node : NodeState) : PadEvent → List PadUse
  | .processNewBlockHeaders headers =>
    headersUses hashes config
      (headerInputs hashes config node.chain headers) node.chain
  | .timed (.acceptBlock pindex block delivery clocks) =>
    acceptUses hashes config node.chain pindex block
      (acceptInput hashes config node.chain pindex block delivery clocks)
  | .timed (.processNewBlock pindex block delivery first clocks) =>
    processUses hashes config node.chain pindex block delivery first clocks
  | .timed (.pass blocks calls disconnect clock) =>
    passUses hashes config node blocks calls
      (passInput hashes config blocks calls disconnect clock)
  | .processUnlinked hashPrevBlock header block =>
    checkBlockUses config node.chain.index hashPrevBlock header.nBits block
      true
  | .command (.invalidateBlock block input) =>
    retreatUses hashes node.chain.index
      (invalidateBlock config input node.chain block).1.tip node.chain.tip
  | .command (.parkBlock block input) =>
    retreatUses hashes node.chain.index
      (parkBlock config input node.chain block).1.tip node.chain.tip
  | _ => []

/-- The cache a section starts with. -/
def cacheBefore (depth : Nat) (state : PadNode) :
    PadEvent → PadCache Lane Pad
  | .command (.restart _) => PadCache.new depth kDefaultPinnedCapacity
  | _ => state.cache

/-- One call of the cache. -/
def useStep (cache : PadCache Lane Pad) (use : PadUse) :
    Option (PadCache Lane Pad) :=
  Cache.call (initScratchpad hashes.blake3) cache use.call

/-- One critical section; it has no result if a call of the cache runs into
undefined behaviour. -/
def padStep (depth : Nat) (state : PadNode) (event : PadEvent) :
    Option PadNode :=
  (padNodeStep hashes config state.node event).bind fun node =>
    (run (useStep hashes) (cacheBefore depth state event)
      (padUses hashes config state.node event)).map fun cache =>
        ⟨node, cache⟩

/-! ## Known parents -/

/-- `LookupBlockIndex` finds a block. -/
def KnownHash (index : List CBlockIndex) (key : Lane) : Prop :=
  ∃ block ∈ index, getBlockHash hashes block = key

/-- Every pad that a section builds is the pad of a block that is in the index
at that moment. -/
def BuildsKnown (depth : Nat) (state : PadNode) (event : PadEvent) : Prop :=
  Along (useStep hashes)
    (fun cache use => use.key ∉ cache.map →
      KnownHash hashes use.index use.key)
    (cacheBefore depth state event) (padUses hashes config state.node event)

/-- A block object is not hashed again, its target is invalid, or its parent
is found in the index. -/
def Resolved (index : List CBlockIndex) (prevBlockHash : Lane) (nBits : Nat)
    (block : CBlock) : Prop :=
  block.fChecked = true ∨
    (deriveTarget nBits config.params.powLimit).isSome = false ∨
    KnownHash hashes index prevBlockHash

/-- The parent of a block that `CheckBlock` is called for is resolved; only
for genesis `AcceptBlock` needs it. -/
def ResolvesParents (state : PadNode) : PadEvent → Prop
  | .timed (.processNewBlock pindex block _ _ _) =>
    Resolved hashes config state.node.chain.index
      (prevBlockHash hashes pindex) (CBlockIndex.nBits pindex) block
  | .timed (.acceptBlock pindex block delivery clocks) =>
    CBlockIndex.pprev pindex = none →
      reachesCheckBlock config state.node.chain pindex
        (acceptInput hashes config state.node.chain pindex block delivery
          clocks) = true →
      Resolved hashes config state.node.chain.index
        (prevBlockHash hashes pindex) (CBlockIndex.nBits pindex) block
  | .processUnlinked hashPrevBlock header block =>
    Resolved hashes config state.node.chain.index hashPrevBlock
      header.nBits block
  | _ => True

end Steps

end B3Chain.Node
