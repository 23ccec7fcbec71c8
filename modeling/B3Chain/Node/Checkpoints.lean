import B3Chain.Node.IndexedRuns
import B3Chain.Pow.HeaderCheck

/-!
# Emergency checkpoints

`EmergencyCheckpoints` and what it says to the calls that ask it.
`AcceptBlockHeader` asks about a header that is not indexed yet, and nothing
else keeps a block off the active chain.  So the checkpoints bind the active
chain as long as no entry that the index already holds when they are loaded
conflicts with them; an entry that does conflict can be activated.

The file is read once, when the process starts; any map may come out of it.
-/

namespace B3Chain.Node

open B3Chain.Chain
open B3Chain.Crypto
open B3Chain.Machine
open B3Chain.Pow
open B3Chain.Tree

/-! ## The loaded set -/

/-- `EmergencyCheckpoints`. -/
structure EmergencyCheckpoints where
  byHeight : AList fun _ : Int => Lane

namespace EmergencyCheckpoints

/-- `Empty`. -/
def isEmpty (checkpoints : EmergencyCheckpoints) : Bool :=
  checkpoints.byHeight.entries.isEmpty

/-- `AtHeight`. -/
def atHeight (checkpoints : EmergencyCheckpoints) (height : Int) :
    Option Lane :=
  checkpoints.byHeight.lookup height

/-- `Matches`. -/
def matchesHash (checkpoints : EmergencyCheckpoints) (height : Int)
    (hash : Lane) : Bool :=
  match checkpoints.byHeight.lookup height with
  | none => true
  | some expected => decide (expected = hash)

theorem matchesHash_iff (checkpoints : EmergencyCheckpoints) (height : Int)
    (hash : Lane) :
    checkpoints.matchesHash height hash = true ↔
      ∀ expected, checkpoints.atHeight height = some expected →
        expected = hash := by
  rw [matchesHash, atHeight]
  cases checkpoints.byHeight.lookup height <;> simp

theorem matchesHash_of_isEmpty {checkpoints : EmergencyCheckpoints}
    (empty : checkpoints.isEmpty = true) (height : Int) (hash : Lane) :
    checkpoints.matchesHash height hash = true := by
  rw [matchesHash_iff]
  intro expected found
  have member : height ∈ checkpoints.byHeight :=
    AList.lookup_isSome.mp (by rw [atHeight] at found; rw [found]; rfl)
  have none : checkpoints.byHeight.entries = [] := by
    simpa [isEmpty] using empty
  rw [AList.mem_keys, AList.keys, none] at member
  cases member

end EmergencyCheckpoints

section Checks

variable (hashes : HashFunctions) (checkpoints : EmergencyCheckpoints)

/-- The check of `AcceptBlockHeader` on a new header. -/
def passesCheckpoints (block : CBlockIndex) : Bool :=
  checkpoints.isEmpty ||
    checkpoints.matchesHash (CBlockIndex.nHeight block)
      (getBlockHash hashes block)

/-- The check of `FinalizeBlock`. -/
def checkpointConflict (block : CBlockIndex) : Bool :=
  !checkpoints.isEmpty &&
    (checkpoints.atHeight (CBlockIndex.nHeight block)).any fun expected =>
      decide (expected ≠ getBlockHash hashes block)

/-- The verdicts with the answer of the checkpoints. -/
def AcceptInput.underCheckpoints (block : CBlockIndex)
    (input : AcceptInput) : AcceptInput :=
  { input with matchesCheckpoints := passesCheckpoints hashes checkpoints block }

/-- A section whose checks are answered by the checkpoints. -/
def NodeEvent.underCheckpoints : NodeEvent → NodeEvent
  | .processNewBlockHeaders headers =>
    .processNewBlockHeaders <| headers.map fun header =>
      (header.1, header.2.underCheckpoints hashes checkpoints header.1)
  | .core (.acceptBlock block input) =>
    .core (.acceptBlock block
      (input.underCheckpoints hashes checkpoints block))
  | .core (.finalizeBlock block _ persisted) =>
    .core (.finalizeBlock block
      (checkpointConflict hashes checkpoints block) persisted)
  | event => event

end Checks

/-! ## Runs -/

/-- A node with the checkpoints it has loaded. -/
structure CheckpointedNode where
  node : NodeState
  checkpoints : EmergencyCheckpoints

/-- What can happen to it. -/
inductive CheckpointEvent where
  | run (event : NodeEvent)
  /-- The process is restarted and loads another file. -/
  | load (checkpoints : EmergencyCheckpoints) (coinsTip : CBlockIndex)

/-- One critical section or a restart. -/
def checkpointStep (hashes : HashFunctions) (config : Config)
    (state : CheckpointedNode) :
    CheckpointEvent → Option CheckpointedNode
  | .run event =>
    (nodeStep config state.node
      (event.underCheckpoints hashes state.checkpoints)).map
        fun node => { state with node }
  | .load checkpoints coinsTip =>
    (step config state.node (.restart coinsTip)).map
      fun node => ⟨node, checkpoints⟩

section Binding

variable (hashes : HashFunctions)

/-- No entry of the index conflicts with the checkpoints, failed and parked
ones included: a command can bring them back. -/
def IndexAgrees (chain : ChainState)
    (checkpoints : EmergencyCheckpoints) : Prop :=
  ∀ block ∈ chain.index,
    checkpoints.matchesHash (CBlockIndex.nHeight block)
      (getBlockHash hashes block) = true

/-- A file that is loaded agrees with the entries the index then holds. -/
def LoadsAgreeing (state : CheckpointedNode) : CheckpointEvent → Prop
  | .run _ => True
  | .load checkpoints _ => IndexAgrees hashes state.node.chain checkpoints

/-- Every block of the active chain at the height of a checkpoint is the
checkpointed one. -/
def BindsActiveChain (state : CheckpointedNode) : Prop :=
  ∀ block ≤ state.node.chain.tip, ∀ expected,
    state.checkpoints.atHeight (CBlockIndex.nHeight block) =
      some expected → expected = getBlockHash hashes block

variable {hashes}

/-- A header that passes its checks agrees with the checkpoints. -/
theorem matches_of_delivers {checkpoints : EmergencyCheckpoints}
    {event : NodeEvent} {block : CBlockIndex} {input : AcceptInput}
    (delivered :
      (event.underCheckpoints hashes checkpoints).Delivers block input)
    (passed : input.matchesCheckpoints = true) :
    checkpoints.matchesHash (CBlockIndex.nHeight block)
      (getBlockHash hashes block) = true := by
  have answered :
      passesCheckpoints hashes checkpoints block = true := by
    cases event with
    | processNewBlockHeaders headers =>
      obtain ⟨header, _, same⟩ := List.mem_map.mp delivered
      cases same
      exact passed
    | core event =>
      cases event with
      | acceptBlock delivered' verdicts =>
        obtain ⟨rfl, rfl⟩ := delivered
        exact passed
      | activateBestChain | beginIteration | pass | interrupt
      | finalizeBlock | unfinalizeBlock | invalidateBlock | parkBlock
      | unparkBlock | resetBlockFailureFlags | restart => cases delivered
  rcases Bool.or_eq_true_iff.mp answered with empty | agrees
  · exact EmergencyCheckpoints.matchesHash_of_isEmpty empty _ _
  · exact agrees

/-- What every section keeps. -/
structure Checkpointed (hashes : HashFunctions) (genesis : CBlockHeader)
    (state : CheckpointedNode) : Prop where
  indexed : NodeIndexed genesis state.node
  agrees : IndexAgrees hashes state.node.chain state.checkpoints

theorem Checkpointed.step {config : Config} {genesis : CBlockHeader}
    {state next : CheckpointedNode} {event : CheckpointEvent}
    (checked : Checkpointed hashes genesis state)
    (loads : LoadsAgreeing hashes state event)
    (taken : checkpointStep hashes config state event = some next) :
    Checkpointed hashes genesis next := by
  cases event with
  | run event =>
    obtain ⟨node, stepped, rfl⟩ := Option.map_eq_some_iff.mp taken
    constructor
    · exact checked.indexed.nodeStep stepped
    · have extended := checked.indexed.extends_nodeStep
        (fun block input => matches_of_delivers) stepped
      intro block member
      rcases extended.adds block member with old | new
      · exact checked.agrees block old
      · exact new
  | load checkpoints coinsTip =>
    obtain ⟨node, stepped, rfl⟩ := Option.map_eq_some_iff.mp taken
    constructor
    · exact checked.indexed.step stepped
    · intro block member
      apply loads
      rw [← index_step_of_command rfl stepped]
      exact member

theorem Checkpointed.binds {genesis : CBlockHeader}
    {state : CheckpointedNode} (checked : Checkpointed hashes genesis state) :
    BindsActiveChain hashes state := by
  intro block below
  have known : block ∈ state.node.chain.index :=
    checked.indexed.indexed.closed _ checked.indexed.indexed.tip block below
  rw [← EmergencyCheckpoints.matchesHash_iff]
  exact checked.agrees block known

end Binding

/-- In every run from a node whose index agrees with its checkpoints, and in
which each file that is loaded later agrees with the index of its time, the
checkpoints bind the active chain. -/
theorem checkpoints_bind_while_index_agrees
    (hashes : HashFunctions) (config : Config) (genesis : CBlockHeader)
    (start final : CheckpointedNode) (events : List CheckpointEvent)
    (indexed : NodeIndexed genesis start.node)
    (agrees : IndexAgrees hashes start.node.chain start.checkpoints)
    (loads : Along (checkpointStep hashes config) (LoadsAgreeing hashes)
      start events)
    (taken : run (checkpointStep hashes config) start events = some final) :
    BindsActiveChain hashes final := by
  have kept :
      ∀ state event next, Checkpointed hashes genesis state →
        LoadsAgreeing hashes state event →
        checkpointStep hashes config state event = some next →
          Checkpointed hashes genesis next := by
    intro state event next checked condition stepped
    exact checked.step condition stepped
  exact (run_invariant kept ⟨indexed, agrees⟩ loads taken).binds

/-! ## A conflicting header and a conflicting entry -/

theorem versionByte_lt : 0 < 80 := by decide

theorem timeByte_lt : 68 < 80 := by decide

/-- A hash that shows the version and the time of a header. -/
def labelHashes : HashFunctions where
  blake3 := fun _ _ => 0
  sha256d := fun bytes index =>
    if index.val = 0 then bytes ⟨0, versionByte_lt⟩
    else if index.val = 1 then bytes ⟨68, timeByte_lt⟩
    else 0

/-- A checkpoint at the height of a block. -/
def checkpointOf (block : CBlockIndex) : EmergencyCheckpoints :=
  ⟨AList.singleton (CBlockIndex.nHeight block : Int)
    (getBlockHash labelHashes block)⟩

/-- A node with nothing but its first block, and a checkpoint above it. -/
def bareCheckpointed : CheckpointedNode :=
  ⟨storedNode [firstBlock] (fun block => decide (block = firstBlock))
    firstBlock, checkpointOf (line firstBlock 1 1)⟩

/-- The header of another block arrives at the height of the checkpoint, then
the block itself. -/
def headerThenBlock : List CheckpointEvent :=
  [.run (.processNewBlockHeaders [(line firstBlock 2 1, validBlock)]),
    .run (.core (.acceptBlock (line firstBlock 1 1) validBlock)),
    .run (.core .activateBestChain), .run (.core .beginIteration),
    .run (.core (.pass connectAll))]

theorem checkpoint_binds_new_headers :
    ∃ final,
      run (checkpointStep labelHashes mainConfig) bareCheckpointed
          headerThenBlock = some final ∧
        BindsActiveChain labelHashes final := by
  obtain ⟨final, taken⟩ :=
    Option.isSome_iff_exists.mp
      (show (run (checkpointStep labelHashes mainConfig) bareCheckpointed
        headerThenBlock).isSome = true by decide +kernel)
  have indexed : NodeIndexed (Branch.label firstBlock)
      bareCheckpointed.node :=
    nodeIndexed_storedNode _ (by decide) (by decide) (by decide)
  have agrees : ∀ block ∈ [firstBlock],
      (checkpointOf (line firstBlock 1 1)).matchesHash
        (CBlockIndex.nHeight block) (getBlockHash labelHashes block) =
          true := by
    decide +kernel
  refine ⟨final, taken,
    checkpoints_bind_while_index_agrees labelHashes mainConfig
      (Branch.label firstBlock) bareCheckpointed final headerThenBlock
      indexed agrees ?_ taken⟩
  exact ⟨trivial, fun _ _ => ⟨trivial, fun _ _ => ⟨trivial, fun _ _ =>
    ⟨trivial, fun _ _ => ⟨trivial, fun _ _ => trivial⟩⟩⟩⟩⟩

/-- A node without checkpoints that has stored a block above its tip. -/
def conflictingStart : CheckpointedNode :=
  ⟨storedNode [line firstBlock 1 1, firstBlock] (fun _ => true) firstBlock,
    ⟨∅⟩⟩

/-- A checkpoint for another block is loaded, the stored block is activated,
and the next block extends it. -/
def loadThenExtend : List CheckpointEvent :=
  [.load (checkpointOf (line firstBlock 2 1)) firstBlock,
    .run (.core .activateBestChain), .run (.core .beginIteration),
    .run (.core (.pass connectAll)),
    .run (.core (.acceptBlock (line firstBlock 1 2) validBlock)),
    .run (.core .activateBestChain), .run (.core .beginIteration),
    .run (.core (.pass connectAll))]

/-- An entry that the index already holds is activated against the loaded
checkpoint, and the chain above it is accepted. -/
theorem indexed_block_escapes_checkpoint :
    NodeIndexed (Branch.label firstBlock) conflictingStart.node ∧
      ∃ final,
        run (checkpointStep labelHashes mainConfig) conflictingStart
            loadThenExtend = some final ∧
          final.node.chain.tip = line firstBlock 1 2 ∧
          ¬ BindsActiveChain labelHashes final := by
  have ended :
      (run (checkpointStep labelHashes mainConfig) conflictingStart
        loadThenExtend).map (fun final =>
          (final.node.chain.tip, final.checkpoints.atHeight 1)) =
        some (line firstBlock 1 2,
          some (getBlockHash labelHashes (line firstBlock 2 1))) := by
    decide +kernel
  have differ :
      getBlockHash labelHashes (line firstBlock 2 1) ≠
        getBlockHash labelHashes (line firstBlock 1 1) := by
    decide +kernel
  obtain ⟨final, taken, fields⟩ := Option.map_eq_some_iff.mp ended
  rw [Prod.mk.injEq] at fields
  constructor
  · exact nodeIndexed_storedNode _ (by decide) (by decide) (by decide)
  · refine ⟨final, taken, fields.1, ?_⟩
    intro bound
    apply differ
    apply bound (line firstBlock 1 1)
    · rw [fields.1]
      decide
    · exact fields.2

end B3Chain.Node
