import B3Chain.Node.FlagDiscovery

/-!
# Failure flags under operator commands

Parking marks a block and everything above it, and unparking clears whatever is
marked on the whole line through the block.  Then the best chain is activated,
which may find a block invalid again.  The result says when a park that is undone
at once leaves the failure flags as they were.
-/

namespace B3Chain.Node

open B3Chain.Chain
open B3Chain.Machine
open B3Chain.Tree

/-! ## The indexed part of the state -/

/-- All that activation and the operator commands handle is indexed, and the
index grows from one genesis block. -/
structure WellIndexed (genesis : CBlockHeader) (chain : ChainState)
    (cached : Option CBlockIndex) : Prop where
  root : ∀ block ∈ chain.index, .root genesis ≤ block
  closed : IndexClosed chain
  tip : chain.tip ∈ chain.index
  candidates : ∀ block ∈ chain.setBlockIndexCandidates,
    block ∈ chain.index
  cached : ∀ block, cached = some block → block ∈ chain.index

namespace WellIndexed

variable {config : Config} {genesis : CBlockHeader} {chain : ChainState}
  {cached : Option CBlockIndex}

theorem above (indexed : WellIndexed genesis chain cached) :
    Above (.root genesis) chain cached :=
  ⟨indexed.root _ indexed.tip,
    fun block member => indexed.root block (indexed.candidates block member),
    fun block found => indexed.root block (indexed.cached block found)⟩

/-- The same index with a tip and candidates from it. -/
theorem of_index
    {after : ChainState} {kept : Option CBlockIndex}
    (indexed : WellIndexed genesis chain cached)
    (index : after.index = chain.index) (tip : after.tip ∈ chain.index)
    (candidates : ∀ block ∈ after.setBlockIndexCandidates,
      block ∈ chain.index)
    (inCache : ∀ block, kept = some block → block ∈ chain.index) :
    WellIndexed genesis after kept := by
  refine ⟨?_, ?_, ?_, ?_, ?_⟩
  · rw [index]
    exact indexed.root
  · intro block member ancestor below
    rw [index] at member ⊢
    exact indexed.closed block member ancestor below
  · rw [index]
    exact tip
  · rw [index]
    exact candidates
  · rw [index]
    exact inCache

/-- A pass stays in the index. -/
theorem abcPass
    (indexed : WellIndexed genesis chain cached) (config : Config)
    (input : PassInput) (startingTip : CBlockIndex) (connected : Bool) :
    WellIndexed genesis
      (abcPass config input chain startingTip cached connected).1
      (abcPass config input chain startingTip cached connected).2.cached := by
  have chosen :
      ∀ best, (chooseMostWork config chain cached).2 = some best →
        best ∈ chain.index := by
    intro best found
    rcases (chooseMostWork_spec config chain cached).2.2 best found with
      candidate | inCache
    · exact indexed.candidates best candidate
    · exact indexed.cached best inCache
  obtain ⟨weakens, _, reached, known, below⟩ :=
    indexed.above.moves config input startingTip connected
  refine indexed.of_index weakens.index ?_
    (fun block member =>
      indexed.candidates block (weakens.candidates block member))
    (fun block found => chosen block (abcPass_cached found))
  refine indexed.closed reached ?_ _ below
  rcases known with rfl | found
  · exact indexed.tip
  · exact chosen reached found

theorem invalidateBlock
    (indexed : WellIndexed genesis chain none) (config : Config)
    (input : WalkInput) (pindex : CBlockIndex) :
    WellIndexed genesis (invalidateBlock config input chain pindex).1
      none := by
  cases linked : CBlockIndex.pprev pindex with
  | none =>
    rw [Node.invalidateBlock, linked]
    exact indexed
  | some pprev =>
    have retreats := invalidateBlock_retreats config input chain linked
    refine indexed.of_index retreats.marks.index
      (indexed.closed _ indexed.tip _ retreats.tip.le)
      (fun block member => ?_) (fun block found => by cases found)
    rcases retreats.candidates block member with old | onPath | promoted
    · exact indexed.candidates block old
    · exact indexed.closed _ indexed.tip _ onPath.le
    · exact promoted.1

theorem parkBlock
    (indexed : WellIndexed genesis chain none) (config : Config)
    (input : WalkInput) (pindex : CBlockIndex) :
    WellIndexed genesis (parkBlock config input chain pindex).1 none := by
  have invalidated := indexed.invalidateBlock config input pindex
  obtain ⟨index, tip, candidates, _⟩ :=
    parkBlock_fields config input chain pindex
  refine invalidated.of_index index ?_ ?_ invalidated.cached
  · rw [tip]
    exact invalidated.tip
  · rw [candidates]
    exact invalidated.candidates

theorem clearWhere
    (indexed : WellIndexed genesis chain cached) (config : Config)
    (selected : CBlockIndex → Bool) (change : BlockStatus → BlockStatus) :
    WellIndexed genesis (clearWhere config chain selected change) cached := by
  obtain ⟨index, tip, _⟩ := clearWhere_fields config chain selected change
  refine indexed.of_index index ?_ (fun block member => ?_) indexed.cached
  · rw [tip]
    exact indexed.tip
  · rcases mem_candidates_clearWhere member with old | ⟨known, _⟩
    · exact indexed.candidates block old
    · exact known

end WellIndexed

/-! ## Parking and unparking -/

theorem status_unparkBlock
    (config : Config) (state : ChainState) (pindex block : CBlockIndex) :
    (unparkBlock config state pindex).status block =
      if (state.status pindex).parked = true ∧ block ∈ state.index ∧
          (state.status block).parked = true ∧
          comparable pindex block = true then
        (state.status block).clearParked
      else state.status block := by
  rw [unparkBlock]
  split
  · next parked =>
    rw [status_clearWhere]
    simp only [Bool.and_eq_true, parked, true_and]
  · next unparked =>
    rw [if_neg fun conditions => unparked conditions.1]

section Unparked

variable {config : Config} {input : WalkInput} {state : ChainState}
  {pindex pprev : CBlockIndex}
  (linked : CBlockIndex.pprev pindex = some pprev)
  (known : pindex ∈ state.index)
  (free : input.Unhindered pindex state.tip)

include linked known free

theorem status_parkBlock (block : CBlockIndex) :
    (parkBlock config input state pindex).1.status block =
      if block ∈ state.index ∧ pindex ≤ block then
        ((invalidateBlock config input state pindex).1.status
          block).markParked
      else (invalidateBlock config input state pindex).1.status block := by
  obtain ⟨done, invalidated⟩ :=
    invalidateBlock_completes config state linked free
  have index := invalidated.marks.index
  rw [parkBlock]
  split
  · next failed =>
    rw [failed] at done
    cases done
  · next after finished =>
    rw [finished] at index
    have sameIndex : after.index = state.index := index
    rw [finished]
    simp only [status_setStatusWhere, decide_eq_true_eq]
    change (if block ∈ after.index ∧ pindex ≤ block then _ else _) = _
    rw [sameIndex]
    split
    · rcases eq_or_ne block pindex with rfl | different
      · rw [status_setStatus_same]
        rfl
      · rw [status_setStatus_of_ne after _ different]
    · next outside =>
      have different : block ≠ pindex := by
        rintro rfl
        exact outside ⟨known, le_rfl⟩
      rw [status_setStatus_of_ne after _ different]

/-- The status of an indexed block after a park that is undone at once. -/
theorem status_unparkBlock_parkBlock {block : CBlockIndex}
    (indexed : block ∈ state.index) :
    (pindex ≤ block →
      ((unparkBlock config (parkBlock config input state pindex).1
          pindex).status block).failed = false ∧
        ((unparkBlock config (parkBlock config input state pindex).1
          pindex).status block).parked = false) ∧
    (¬pindex ≤ block →
      (unparkBlock config (parkBlock config input state pindex).1
          pindex).status block =
        if (state.status block).parked = true ∧ block ≤ pindex then
          (state.status block).clearParked
        else state.status block) := by
  have marks :=
    (invalidateBlock_completes config state linked free).2.marks
  have parkedIndex :
      (parkBlock config input state pindex).1.index = state.index :=
    (parkBlock_fields config input state pindex).1.trans marks.index
  have pindexParked :
      ((parkBlock config input state pindex).1.status pindex).parked =
        true := by
    rw [status_parkBlock linked known free, if_pos ⟨known, le_rfl⟩]
    rfl
  refine ⟨fun above => ?_, fun beyond => ?_⟩
  · have blockParked :
        ((parkBlock config input state pindex).1.status block).parked =
          true := by
      rw [status_parkBlock linked known free, if_pos ⟨indexed, above⟩]
      rfl
    have line : comparable pindex block = true := by
      simp [comparable, above]
    rw [status_unparkBlock,
      if_pos ⟨pindexParked, by rw [parkedIndex]; exact indexed, blockParked,
        line⟩]
    exact ⟨rfl, rfl⟩
  · have same :
        (parkBlock config input state pindex).1.status block =
          state.status block := by
      rw [status_parkBlock linked known free,
        if_neg fun both => beyond both.2]
      exact marks.outside block beyond
    have line : comparable pindex block = decide (block ≤ pindex) := by
      simp [comparable, beyond]
    rw [status_unparkBlock, same, parkedIndex, line]
    simp only [pindexParked, indexed, true_and, decide_eq_true_eq]

/-- What parking and unparking a block is to preserve: failed blocks stay
failed, and the others are neither failed nor parked. -/
def ParkingReversed (before after : ChainState) : Prop :=
  ∀ block ∈ before.index,
    ((before.status block).failed = true →
      (after.status block).failed = true) ∧
    ((before.status block).failed = false →
      (after.status block).failed = false ∧
        (after.status block).parked = false)

/-- Between the two states the block has been found invalid. -/
def FoundInvalid (before after : ChainState) (block : CBlockIndex) : Prop :=
  (before.status block).failedValid = false ∧
    (after.status block).failedValid = true

instance (before after : ChainState) (block : CBlockIndex) :
    Decidable (FoundInvalid before after block) :=
  inferInstanceAs (Decidable (_ ∧ _))

/-- Every failed strict descendant of the block is found invalid again, or has
an ancestor that is; no other block is; and off the line of the block no unfailed
block is parked. -/
def FoundAgain (state unparked after : ChainState) (pindex : CBlockIndex) :
    Prop :=
  ∀ block ∈ state.index,
    (pindex < block → (state.status block).failed = true →
      ∃ ancestor ∈ state.index, ancestor ≤ block ∧
        FoundInvalid unparked after ancestor) ∧
    ((state.status block).failed = false →
      (comparable pindex block = false →
        (state.status block).parked = false) ∧
      ∀ ancestor ∈ state.index, ancestor ≤ block →
        ¬ FoundInvalid unparked after ancestor)

instance (state unparked after : ChainState) (pindex : CBlockIndex) :
    Decidable (FoundAgain state unparked after pindex) :=
  haveI : ∀ block : CBlockIndex, Decidable (pindex < block) :=
    fun _ => decidable_of_iff _ lt_iff_le_not_ge.symm
  inferInstanceAs (Decidable (∀ block ∈ state.index, _))

omit linked known free in
theorem failedValid_of_failed {status : BlockStatus}
    (sound : status.failed = false) : status.failedValid = false := by
  rw [BlockStatus.failed, Bool.or_eq_false_iff] at sound
  exact sound.1

variable (config) (closed : FlagsClosed state)
  (sound : (state.status pindex).failed = false)

include closed sound

omit linked free in
/-- An ancestor of a sound block is sound. -/
theorem sound_below {block : CBlockIndex} (indexed : block ∈ state.index)
    (below : block ≤ pindex) : (state.status block).failed = false := by
  by_contra failed
  have inherited :=
    closed.inherited known indexed below (by simpa using failed)
  rw [sound] at inherited
  cases inherited

/-- Beside and below the block the failure flags are what they were. -/
theorem failed_unparked_beyond {block : CBlockIndex}
    (indexed : block ∈ state.index) (beyond : ¬ pindex ≤ block) :
    ((unparkBlock config (parkBlock config input state pindex).1
        pindex).status block).failed = (state.status block).failed ∧
      ((unparkBlock config (parkBlock config input state pindex).1
        pindex).status block).failedValid =
          (state.status block).failedValid := by
  rw [(status_unparkBlock_parkBlock linked known free indexed).2 beyond]
  split
  · next cleared =>
    have unfailed := sound_below known closed sound indexed cleared.2
    rw [unfailed, failedValid_of_failed unfailed]
    exact ⟨rfl, rfl⟩
  · exact ⟨rfl, rfl⟩

/-- Parking and unparking keeps the flags closed. -/
theorem flagsClosed_unparked
    (index : (unparkBlock config (parkBlock config input state pindex).1
      pindex).index = state.index) :
    FlagsClosed
      (unparkBlock config (parkBlock config input state pindex).1 pindex) := by
  intro block indexed
  rw [index] at indexed ⊢
  by_cases above : pindex ≤ block
  · refine iff_of_false ?_ ?_
    · rw [((status_unparkBlock_parkBlock linked known free indexed).1
        above).1]
      exact Bool.false_ne_true
    · rintro ⟨ancestor, ancestorIndexed, below, valid⟩
      refine absurd valid (Bool.not_eq_true _ ▸ ?_)
      by_cases higher : pindex ≤ ancestor
      · exact failedValid_of_failed ((status_unparkBlock_parkBlock linked
          known free ancestorIndexed).1 higher).1
      · rw [(failed_unparked_beyond config linked known free closed sound
          ancestorIndexed higher).2]
        exact failedValid_of_failed (sound_below known closed sound
          ancestorIndexed
          ((Branch.le_total_of_le above below).resolve_left higher))
  · rw [(failed_unparked_beyond config linked known free closed sound
      indexed above).1, closed block indexed]
    refine exists_congr fun ancestor => and_congr_right fun member =>
      and_congr_right fun below => ?_
    rw [(failed_unparked_beyond config linked known free closed sound
      member fun higher => above (higher.trans below)).2]

end Unparked

/-- A block that is not failed before is failed after exactly if one of its
ancestors has been found invalid. -/
theorem failed_iff_foundInvalid {before after : ChainState}
    (index : after.index = before.index)
    (closedBefore : FlagsClosed before) (closedAfter : FlagsClosed after)
    {block : CBlockIndex} (indexed : block ∈ before.index)
    (sound : (before.status block).failed = false) :
    (after.status block).failed = true ↔
      ∃ ancestor ∈ before.index, ancestor ≤ block ∧
        FoundInvalid before after ancestor := by
  rw [closedAfter block (index ▸ indexed), index]
  refine exists_congr fun ancestor => and_congr_right fun member =>
    and_congr_right fun below => ⟨fun valid => ⟨?_, valid⟩, And.right⟩
  by_contra already
  have failed := (closedBefore block indexed).mpr
    ⟨ancestor, member, below, by simpa using already⟩
  rw [sound] at failed
  cases failed

/-! ## Activation after the command -/

/-- The events of `ActivateBestChain`. -/
def Event.isActivation : Event → Bool
  | .activateBestChain => true
  | .beginIteration => true
  | .pass _ => true
  | .interrupt => true
  | _ => false

theorem Event.isArrival_of_isActivation {event : Event}
    (activation : event.isActivation = true) : event.isArrival = true := by
  cases event <;> first | rfl | cases activation

/-- Some pass of the run has found the block invalid. -/
def RejectedIn (events : List Event) (block : CBlockIndex) : Prop :=
  ∃ input, .pass input ∈ events ∧ input.Rejects block

/-- One event of activation, seen from a state before. -/
theorem activation_step
    {config : Config} {genesis : CBlockHeader} {events : List Event}
    {node next : NodeState} {event : Event}
    (indexed : WellIndexed genesis node.chain node.abc.cached)
    (member : event ∈ events) (activation : event.isActivation = true)
    (taken : step config node event = some next) :
    WellIndexed genesis next.chain next.abc.cached ∧
      Weakens node.chain next.chain ∧
      Discovers True (RejectedIn events) node.chain next.chain := by
  cases arrivalStep_of_step (Event.isArrival_of_isActivation activation) taken
    with
  | accept block input => cases activation
  | phase event abc cached =>
    exact ⟨indexed.of_index rfl indexed.tip indexed.candidates
      (fun block found => indexed.cached block (cached block found)),
      Weakens.refl _, Discovers.refl _⟩
  | pass input startingTip cached connected locked =>
    rw [locked] at indexed
    refine ⟨indexed.abcPass config input startingTip connected,
      (indexed.above.abcPass config input startingTip connected).2, ?_⟩
    exact (Discovers.abcPass config input node.chain startingTip cached
      connected).mono
        (fun _ => ⟨indexed.closed, indexed.candidates, indexed.cached⟩)
        fun block refused => ⟨input, member, refused⟩

/-- A run of activation adds failures only above failed or rejected blocks, and
parks nothing. -/
theorem activation_run
    {config : Config} {genesis : CBlockHeader} {events : List Event}
    {start final : NodeState}
    (indexed : WellIndexed genesis start.chain start.abc.cached)
    (activation : ∀ event ∈ events, event.isActivation = true)
    (taken : run (step config) start events = some final) :
    Weakens start.chain final.chain ∧
      Discovers True (RejectedIn events) start.chain final.chain := by
  have kept :
      ∀ node event next,
        WellIndexed genesis node.chain node.abc.cached ∧
          Weakens start.chain node.chain ∧
          Discovers True (RejectedIn events) start.chain node.chain →
        event ∈ events ∧ event.isActivation = true →
        step config node event = some next →
          WellIndexed genesis next.chain next.abc.cached ∧
            Weakens start.chain next.chain ∧
            Discovers True (RejectedIn events) start.chain next.chain := by
    rintro node event next ⟨nodeIndexed, weakens, discovers⟩
      ⟨member, isActivation⟩ steps
    obtain ⟨nextIndexed, nextWeakens, nextDiscovers⟩ :=
      activation_step nodeIndexed member isActivation steps
    exact ⟨nextIndexed, weakens.trans nextWeakens,
      discovers.trans nextDiscovers⟩
  have ended :=
    run_invariant kept ⟨indexed, Weakens.refl _, Discovers.refl _⟩
      (along_of_forall
        (fun event member _ => ⟨member, activation event member⟩) start) taken
  exact ended.2

/-- The other child of the first block of the line. -/
def forkBlock : CBlockIndex :=
  line (line firstBlock 1 1) 2 1

/-- The blocks of the fork. -/
def forkBlocks : List CBlockIndex :=
  [firstBlock, line firstBlock 1 1, line firstBlock 1 2, forkBlock]

/-- The chain state with a fork above the first block. -/
def forkState (tip : CBlockIndex) : ChainState :=
  storedState forkBlocks (fun block => decide (block ∈ forkBlocks)) tip

theorem wellIndexed_forkState
    {tip : CBlockIndex} (member : tip ∈ forkBlocks) :
    WellIndexed (Branch.label firstBlock) (forkState tip) none := by
  have closed : ∀ block ∈ forkBlocks, ∀ ancestor ∈ branchAbove none block,
      ancestor ∈ forkBlocks := by
    decide
  refine ⟨?_, fun block known ancestor below => ?_, member,
    fun block known => ?_, fun block found => nomatch found⟩
  · change ∀ block ∈ forkBlocks, firstBlock ≤ block
    decide
  · exact closed block known ancestor (mem_branchAbove_none below)
  · rw [List.mem_singleton.mp known]
    exact member

/-- A block of the fork was rejected for a consensus violation. -/
def rejectedState (tip rejected : CBlockIndex) : ChainState :=
  (forkState tip).setStatus rejected BlockStatus.markFailedValid

/-- An activation in which `ConnectBlock` rejects the block again. -/
def activationEvents (rejected : CBlockIndex) : List Event :=
  let input : PassInput :=
    ⟨fun block => if block = rejected then .invalid .blockConsensus
      else .connected, fun _ => true⟩
  [.activateBestChain, .beginIteration, .pass input, .beginIteration,
    .pass input]

/-- Parks and unparks the first block of the line, and activates the best
chain. -/
def parkAndUnpark (tip rejected : CBlockIndex) : Option NodeState :=
  run (step mainConfig)
    ⟨unparkBlock mainConfig
      (parkBlock mainConfig walkFreely (rejectedState tip rejected)
        (line firstBlock 1 1)).1 (line firstBlock 1 1), .idle, []⟩
    (activationEvents rejected)

end B3Chain.Node
