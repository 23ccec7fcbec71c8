import B3Chain.Node.OperatorEffect
import B3Chain.Node.Schedule

/-!
# The operator's pin

`AcceptBlock` is the only place that consults the finalised block.  A pinned
block therefore stays active exactly as far as everything that activation can
still move to already lies above it: a candidate that was accepted before the
pin, and forks below it, is activated after it.

The second part follows the pin through the operator commands and a restart.
A child of the tip is rejected once the pin is higher than the tip.
-/

namespace B3Chain.Node

open B3Chain.Chain
open B3Chain.Machine
open B3Chain.Tree

/-! ## Acceptance under a pin -/

/-- A block that passes the reorganisation rules lies above every block of the
active chain that is not higher than the pin. -/
theorem le_of_checkReorgRules
    {config : Config} {state : ChainState}
    {genesis base pin block : CBlockIndex}
    (cap : 0 < config.params.maxReorgDepth)
    (synced : config.isInitialBlockDownload = false)
    (passed : checkReorgRules config state block = none)
    (pinned : state.finalizedBlock = some pin)
    (low : CBlockIndex.nHeight base ≤ CBlockIndex.nHeight pin)
    (active : base ≤ state.tip)
    (onTip : genesis ≤ state.tip) (onBlock : genesis ≤ block) :
    base ≤ block := by
  obtain ⟨fork, forked, _⟩ := exists_findFork onTip onBlock
  obtain ⟨⟨forkBlock, forkTip⟩, _⟩ := (findFork_eq_some_iff _ _ _).mp forked
  have high : CBlockIndex.nHeight pin ≤ CBlockIndex.nHeight fork := by
    by_contra below
    rw [checkReorgRules, if_pos ⟨cap, by simp [synced]⟩, forked] at passed
    simp only [pinned] at passed
    rw [if_pos (Nat.lt_of_not_le below)] at passed
    split at passed <;> cases passed
  have baseFork : base ≤ fork :=
    Branch.le_of_height_le active forkTip (low.trans high)
  exact le_trans baseFork forkBlock

/-- `FinalizeBlock` changes nothing, or pins a block of the active chain that
is not lower than the pin before. -/
theorem finalizeBlock_cases
    (state : ChainState) (block : CBlockIndex)
    (checkpointConflict persisted : Bool) :
    ((finalizeBlock state block checkpointConflict persisted).2 ≠ none ∧
        (finalizeBlock state block checkpointConflict persisted).1 =
          state) ∨
      (finalizeBlock state block checkpointConflict persisted).1 =
          { state with
            finalizedBlock := some block
            persistedPin :=
              if persisted then some block else state.persistedPin } ∧
        block ≤ state.tip ∧
        (∀ pin, state.finalizedBlock = some pin →
          CBlockIndex.nHeight pin ≤ CBlockIndex.nHeight block) ∧
        (finalizeBlock state block checkpointConflict persisted).2 =
          none := by
  rw [finalizeBlock]
  split
  · exact Or.inl ⟨by simp, rfl⟩
  · split
    · exact Or.inl ⟨by simp, rfl⟩
    · next outside =>
      split
      · exact Or.inl ⟨by simp, rfl⟩
      · next lower =>
        split
        · exact Or.inl ⟨by simp, rfl⟩
        · refine Or.inr ⟨rfl, ?_, fun pin pinned => ?_, rfl⟩
          · simpa [ChainState.contains] using outside
          · simpa [pinned] using lower

/-! ## A pinned block under block arrival -/

/-- Everything activation can move to lies above `block`, and the pin is not
lower than `block`. -/
structure Pinned (block : CBlockIndex) (node : NodeState) : Prop where
  above : Above block node.chain node.abc.cached
  pin : ∃ pin, node.chain.finalizedBlock = some pin ∧
    CBlockIndex.nHeight block ≤ CBlockIndex.nHeight pin

theorem Pinned.arrival
    {config : Config} {genesis block : CBlockIndex} {node next : NodeState}
    {event : Event}
    (cap : 0 < config.params.maxReorgDepth)
    (synced : config.isInitialBlockDownload = false)
    (grounded : Grounded genesis node) (pinned : Pinned block node)
    (taken : ArrivalStep config node event next) :
    Pinned block next := by
  obtain ⟨pin, finalized, low⟩ := pinned.pin
  cases taken with
  | accept arriving input =>
    have facts :=
      acceptBlock_facts config node.chain arriving input grounded.unlinked
    refine ⟨pinned.above.acceptBlock config arriving input
      grounded.unlinked (fun stored => ?_), pin, ?_, low⟩
    · exact le_of_checkReorgRules cap synced (facts.rules stored) finalized
        low pinned.above.tip grounded.above.tip
        (genesis_le_of_stored grounded.index grounded.unlinked stored)
    · rw [← finalized]
      exact facts.admits.finalized
  | phase event abc cached =>
    exact ⟨⟨pinned.above.tip, pinned.above.candidates,
      fun other found => pinned.above.cached other (cached other found)⟩,
      pinned.pin⟩
  | pass input startingTip cached connected locked =>
    have above : Above block node.chain cached := by
      have known := pinned.above
      rw [locked] at known
      exact known
    obtain ⟨passed, weakens⟩ :=
      above.abcPass config input startingTip connected
    exact ⟨passed, pin, weakens.finalized.trans finalized, low⟩

theorem Pinned.finalizeBlock
    {block : CBlockIndex} {node : NodeState} (pinned : Pinned block node)
    (other : CBlockIndex) (checkpointConflict persisted : Bool) :
    Pinned block
      { node with
        chain := (finalizeBlock node.chain other checkpointConflict
          persisted).1 } := by
  rcases finalizeBlock_cases node.chain other checkpointConflict persisted
    with ⟨_, same⟩ | ⟨pins, _, higher, _⟩
  · rw [same]
    exact pinned
  · rw [pins]
    obtain ⟨pin, finalized, low⟩ := pinned.pin
    exact ⟨⟨pinned.above.tip, pinned.above.candidates, pinned.above.cached⟩,
      other, rfl, low.trans (higher pin finalized)⟩

theorem Grounded.finalizeBlock
    {genesis : CBlockIndex} {node : NodeState}
    (grounded : Grounded genesis node)
    (other : CBlockIndex) (checkpointConflict persisted : Bool) :
    Grounded genesis
      { node with
        chain := (finalizeBlock node.chain other checkpointConflict
          persisted).1 } := by
  rcases finalizeBlock_cases node.chain other checkpointConflict persisted
    with ⟨_, same⟩ | ⟨pins, _, _⟩
  · rw [same]
    exact grounded
  · rw [pins]
    exact ⟨⟨grounded.above.tip, grounded.above.candidates,
      grounded.above.cached⟩, grounded.index, grounded.unlinked⟩

/-- Block arrival, activation and further calls of `FinalizeBlock`. -/
def Event.keepsPin : Event → Bool
  | .finalizeBlock _ _ _ => true
  | event => event.isArrival

theorem Pinned.step
    {config : Config} {genesis block : CBlockIndex} {node next : NodeState}
    {event : Event}
    (cap : 0 < config.params.maxReorgDepth)
    (synced : config.isInitialBlockDownload = false)
    (grounded : Grounded genesis node) (pinned : Pinned block node)
    (allowed : event.keepsPin = true)
    (taken : step config node event = some next) :
    Grounded genesis next ∧ Pinned block next := by
  cases event with
  | finalizeBlock other checkpointConflict persisted =>
    rw [Node.step] at taken
    obtain ⟨-, rfl⟩ := underMain_eq_some taken
    exact ⟨grounded.finalizeBlock other checkpointConflict persisted,
      pinned.finalizeBlock other checkpointConflict persisted⟩
  | acceptBlock | activateBestChain | beginIteration | pass | interrupt =>
    have arrival := arrivalStep_of_step rfl taken
    exact ⟨grounded.arrival arrival,
      pinned.arrival cap synced grounded arrival⟩
  | unfinalizeBlock | invalidateBlock | parkBlock | unparkBlock
  | resetBlockFailureFlags | restart => cases allowed

/-- If at the time of `FinalizeBlock` every candidate, and the candidate cached
by a running activation, descends from the block, then the block stays on the
active chain under every interleaving of block arrival, activation and further
finalisations. -/
theorem finalized_block_stays_active
    (config : Config) (genesis block : CBlockIndex)
    (before final : NodeState) (checkpointConflict persisted : Bool)
    (events : List Event)
    (cap : 0 < config.params.maxReorgDepth)
    (synced : config.isInitialBlockDownload = false)
    (grounded : Grounded genesis before)
    (finalizes :
      (finalizeBlock before.chain block checkpointConflict persisted).2 =
        none)
    (candidates :
      ∀ candidate ∈ before.chain.setBlockIndexCandidates, block ≤ candidate)
    (cached : ∀ best, before.abc.cached = some best → block ≤ best)
    (allowed : ∀ event ∈ events, event.keepsPin = true)
    (taken :
      run (step config) before
        (.finalizeBlock block checkpointConflict persisted :: events) =
          some final) :
    block ≤ final.chain.tip := by
  obtain ⟨after, first, rest⟩ := run_cons_eq_some taken
  rw [step] at first
  obtain ⟨-, rfl⟩ := underMain_eq_some first
  rcases finalizeBlock_cases before.chain block checkpointConflict persisted
    with ⟨failed, _⟩ | ⟨pins, active, _⟩
  · exact absurd finalizes failed
  · have groundedAfter :=
      grounded.finalizeBlock block checkpointConflict persisted
    have pinnedAfter :
        Pinned block
          { before with
            chain := (finalizeBlock before.chain block checkpointConflict
              persisted).1 } := by
      rw [pins]
      exact ⟨⟨active, candidates, cached⟩, block, rfl, le_rfl⟩
    have kept :
        ∀ node event next,
          Grounded genesis node ∧ Pinned block node →
          event.keepsPin = true → step config node event = some next →
            Grounded genesis next ∧ Pinned block next :=
      fun node event next invariant allows steps =>
        invariant.2.step cap synced invariant.1 allows steps
    have ended :=
      run_invariant kept ⟨groundedAfter, pinnedAfter⟩
        (along_of_forall (fun event member _ => allowed event member) _)
        rest
    exact ended.2.above.tip

/-- A node whose tip is at height two of its line. -/
def secondBlockNode : NodeState :=
  storedNode [firstBlock, line firstBlock 1 1, line firstBlock 1 2]
    (fun block => decide (block ∈
      [firstBlock, line firstBlock 1 1, line firstBlock 1 2]))
    (line firstBlock 1 2)

/-- A longer branch from the first block arrives and is activated, if it can
be. -/
def longerBranchEvents : List Event :=
  [.acceptBlock (line firstBlock 2 1) validBlock,
    .acceptBlock (line firstBlock 2 2) validBlock,
    .acceptBlock (line firstBlock 2 3) validBlock, .activateBestChain,
    .beginIteration, .pass connectAll]

theorem grounded_secondBlockNode : Grounded firstBlock secondBlockNode := by
  refine grounded_storedNode _ (by decide) fun block member => ?_
  revert block
  decide

theorem pinned_second_block_stays_active :
    ∃ final,
      run (step mainConfig) secondBlockNode
          (.finalizeBlock (line firstBlock 1 2) false true ::
            longerBranchEvents) = some final ∧
        line firstBlock 1 2 ≤ final.chain.tip := by
  obtain ⟨final, taken⟩ :=
    Option.isSome_iff_exists.mp
      (show (run (step mainConfig) secondBlockNode
        (.finalizeBlock (line firstBlock 1 2) false true ::
          longerBranchEvents)).isSome = true by decide +kernel)
  exact ⟨final, taken,
    finalized_block_stays_active mainConfig firstBlock _ secondBlockNode final
      false true longerBranchEvents (by decide) rfl grounded_secondBlockNode
      (by decide)
      (fun candidate member => (List.mem_singleton.mp member).ge)
      (fun best found => nomatch found) (by decide) taken⟩

/-- The branch is accepted before the pin and activated after it: the pinned
block leaves the active chain. -/
theorem earlier_candidate_undoes_pin :
    (run (step mainConfig) secondBlockNode
      [.acceptBlock (line firstBlock 2 1) validBlock,
        .acceptBlock (line firstBlock 2 2) validBlock,
        .acceptBlock (line firstBlock 2 3) validBlock,
        .finalizeBlock (line firstBlock 1 1) false true, .activateBestChain,
        .beginIteration, .pass connectAll]).map
      (fun node =>
        (node.chain.finalizedBlock,
          decide (line firstBlock 1 1 ≤ node.chain.tip))) =
      some (some (line firstBlock 1 1), false) := by
  decide +kernel

end B3Chain.Node
