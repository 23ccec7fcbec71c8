import B3Chain.Node.Schedule

/-!
# The reorganisation cap

`AcceptBlock` measures the depth of a reorganisation against the tip of its own
critical section; `ActivateBestChainStep` does not measure it again.  The cap
therefore holds for a step whose target is still within it, as one that was
measured against a tip that has not grown since, and fails when another
candidate is connected in between.
-/

namespace B3Chain.Node

open B3Chain.Chain
open B3Chain.Consensus
open B3Chain.Machine
open B3Chain.Tree

/-! ## What acceptance has measured -/

/-- A block whose reorganisation from `tip` stays within the cap. -/
def WithinCap (config : Config) (block tip : CBlockIndex) : Prop :=
  ∀ fork, findFork tip block = some fork →
    CBlockIndex.nHeight tip ≤
      CBlockIndex.nHeight fork + config.params.maxReorgDepth

instance (config : Config) (block tip : CBlockIndex) :
    Decidable (WithinCap config block tip) :=
  inferInstanceAs (Decidable (∀ fork ∈ findFork tip block, _))

theorem withinCap_of_checkReorgRules
    {config : Config} {state : ChainState} {block : CBlockIndex}
    (cap : 0 < config.params.maxReorgDepth)
    (synced : config.isInitialBlockDownload = false)
    (passed : checkReorgRules config state block = none) :
    WithinCap config block state.tip := by
  intro fork forked
  by_contra deep
  rw [checkReorgRules, if_pos ⟨cap, by simp [synced]⟩, forked] at passed
  simp only [] at passed
  rw [if_pos (by omega)] at passed
  cases passed

/-- Every stored block was within the cap of the tip it was checked
against. -/
def HistoryWithinCap (config : Config) (node : NodeState) : Prop :=
  ∀ entry ∈ node.accepted, WithinCap config entry.1 entry.2

theorem HistoryWithinCap.arrival
    {config : Config} {node next : NodeState} {event : Event}
    (cap : 0 < config.params.maxReorgDepth)
    (synced : config.isInitialBlockDownload = false)
    (linked : UnlinkedLinked node.chain)
    (history : HistoryWithinCap config node)
    (taken : ArrivalStep config node event next) :
    HistoryWithinCap config next := by
  cases taken with
  | accept block input =>
    intro entry member
    simp only [] at member
    split at member
    · next stored =>
      rcases List.mem_cons.mp member with rfl | old
      · have facts :=
          acceptBlock_facts config node.chain block input linked
        exact withinCap_of_checkReorgRules cap synced (facts.rules stored)
      · exact history entry old
    · exact history entry member
  | phase | pass => exact history

/-! ## The depth of a pass -/

/-- A block of the branch that is not on the active chain has the same fork
point as the whole branch. -/
theorem findFork_of_branch
    {tip block best : CBlockIndex} (onBranch : block ≤ best)
    (outside : ¬block ≤ tip) :
    findFork tip best = findFork tip block := by
  have same :
      {node : CBlockIndex | node ≤ best ∧ node ≤ tip} =
        {node | node ≤ block ∧ node ≤ tip} := by
    ext node
    constructor
    · rintro ⟨onBest, onTip⟩
      rcases Branch.le_total_of_le onBest onBranch with below | above
      · exact ⟨below, onTip⟩
      · exact absurd (le_trans above onTip) outside
    · rintro ⟨onBlock, onTip⟩
      exact ⟨le_trans onBlock onBranch, onTip⟩
  apply Option.ext
  intro fork
  rw [findFork_eq_some_iff, findFork_eq_some_iff, same]

/-- A pass disconnects no more than the depth of its target's fork. -/
theorem passDisconnected_le
    {config : Config} {genesis : CBlockIndex} {node : NodeState}
    {limit : Nat} (grounded : Grounded genesis node)
    (bounded :
      ∀ best ∈ passTarget config node, ∀ fork,
        findFork node.chain.tip best = some fork →
          CBlockIndex.nHeight node.chain.tip ≤
            CBlockIndex.nHeight fork + limit)
    (input : PassInput) :
    passDisconnected config node input ≤ limit := by
  have above := grounded.above
  rw [passDisconnected]
  rw [passTarget] at bounded
  split
  · next startingTip cached connected locked =>
    rw [locked] at above
    simp only [locked] at bounded
    obtain ⟨_, tip, known⟩ := chooseMostWork_spec config node.chain cached
    split
    · next searched best chosen =>
      have sameTip : searched.tip = node.chain.tip := by
        rw [chosen] at tip
        exact tip
      rw [chosen] at known
      simp only [chosen] at bounded
      split
      · exact Nat.zero_le limit
      · next different =>
        rw [if_neg different] at bounded
        have onBest : genesis ≤ best := by
          rcases known best rfl with candidate | inCache
          · exact above.candidates best candidate
          · exact above.cached best inCache
        obtain ⟨fork, forked, _⟩ := exists_findFork above.tip onBest
        have depth := bounded best rfl fork forked
        rw [← sameTip] at forked depth
        obtain ⟨_, _, _, counted, _⟩ :=
          activateBestChainStep_spec config input searched best fork forked
        omega
    · exact Nat.zero_le limit
  · exact Nat.zero_le limit

/-! ## The cap -/

/-- The target is within the cap of the tip, or a block of its branch was
accepted under a tip with the same fork point that was at least as high as the
present one. -/
def FreshTarget (config : Config) (node : NodeState) (best : CBlockIndex) :
    Prop :=
  WithinCap config best node.chain.tip ∨
    ∃ entry ∈ node.accepted,
      entry.1 ≤ best ∧ ¬entry.1 ≤ node.chain.tip ∧
        findFork node.chain.tip entry.1 = findFork entry.2 entry.1 ∧
        CBlockIndex.nHeight node.chain.tip ≤ CBlockIndex.nHeight entry.2

instance (config : Config) (node : NodeState) (best : CBlockIndex) :
    Decidable (FreshTarget config node best) :=
  inferInstanceAs (Decidable (_ ∨ _))

/-- Block arrival in which every target handed to `ActivateBestChainStep` is
fresh. -/
def ActivatesFresh (config : Config) (node : NodeState) (event : Event) :
    Prop :=
  event.isArrival = true ∧ ∀ best ∈ passTarget config node,
    FreshTarget config node best

instance (config : Config) (node : NodeState) (event : Event) :
    Decidable (ActivatesFresh config node event) :=
  inferInstanceAs (Decidable (_ ∧ _))

/-- No step disconnects more than the cap. -/
def DepthCapped (config : Config) (node : NodeState) (event : Event) :
    Prop :=
  ∀ input, event = .pass input →
    passDisconnected config node input ≤ config.params.maxReorgDepth

theorem depth_le_of_freshTarget
    {config : Config} {node : NodeState} {best fork : CBlockIndex}
    (history : HistoryWithinCap config node)
    (fresh : FreshTarget config node best)
    (forked : findFork node.chain.tip best = some fork) :
    CBlockIndex.nHeight node.chain.tip ≤
      CBlockIndex.nHeight fork + config.params.maxReorgDepth := by
  rcases fresh with within | ⟨entry, member, onBranch, outside, same, low⟩
  · exact within fork forked
  · rw [findFork_of_branch onBranch outside, same] at forked
    exact low.trans (history entry member fork forked)

/-- In every interleaving of block arrival and activation in which each target
is fresh, no step disconnects more than `max_reorg_depth` blocks. -/
theorem reorg_depth_capped_of_fresh_targets
    (config : Config) (genesis : CBlockIndex) (start : NodeState)
    (events : List Event)
    (cap : 0 < config.params.maxReorgDepth)
    (synced : config.isInitialBlockDownload = false)
    (grounded : Grounded genesis start)
    (history : start.accepted = [])
    (fresh : Along (step config) (ActivatesFresh config) start events) :
    Along (step config) (DepthCapped config) start events := by
  have kept :
      ∀ node event next,
        Grounded genesis node ∧ HistoryWithinCap config node →
        ActivatesFresh config node event →
        step config node event = some next →
          Grounded genesis next ∧ HistoryWithinCap config next := by
    rintro node event next ⟨nodeGrounded, nodeHistory⟩ condition taken
    have arrival := arrivalStep_of_step condition.1 taken
    exact ⟨nodeGrounded.arrival arrival,
      nodeHistory.arrival cap synced nodeGrounded.unlinked arrival⟩
  have empty : HistoryWithinCap config start := by
    intro entry member
    rw [history] at member
    cases member
  refine along_of_invariant kept ?_ ⟨grounded, empty⟩ fresh
  rintro node event ⟨nodeGrounded, nodeHistory⟩ condition input rfl
  apply passDisconnected_le nodeGrounded
  intro best target fork forked
  exact depth_le_of_freshTarget nodeHistory (condition.2 best target) forked

/-- A node at the first block that follows a longer side branch. -/
def shortReorgEvents : List Event :=
  [.acceptBlock (line firstBlock 1 1) validBlock, .activateBestChain,
    .beginIteration, .pass connectAll,
    .acceptBlock (line firstBlock 2 1) validBlock,
    .acceptBlock (line firstBlock 2 2) validBlock, .activateBestChain,
    .beginIteration, .pass connectAll]

theorem short_reorg_depth_capped :
    Along (step mainConfig) (DepthCapped mainConfig)
      (storedNode [firstBlock] (fun block => decide (block = firstBlock))
        firstBlock) shortReorgEvents :=
  reorg_depth_capped_of_fresh_targets mainConfig firstBlock _ _ (by decide)
    rfl
    (grounded_storedNode _ le_rfl fun block member => by
      rw [List.mem_singleton.mp member])
    rfl (by decide +kernel)

/-! ## A candidate connected in between -/

/-- The active chain has height 199, and a side branch from the first block is
as long as the chain. -/
def deepStart : NodeState :=
  storedNode
    ((List.range 200).map (line firstBlock 1) ++
      (List.range 200).map (line firstBlock 2))
    (fun block => decide (CBlockIndex.nHeight block < 200))
    (line firstBlock 1 199)

/-- Two blocks arrive on the chain and the first is connected; before the next
iteration the side branch grows by three blocks, each of which is measured
against the tip at height 200; then the cached second block is connected. -/
def deepEvents : List Event :=
  [.acceptBlock (line firstBlock 1 200) validBlock,
    .acceptBlock (line firstBlock 1 201) validBlock, .activateBestChain,
    .beginIteration, .pass connectAll,
    .acceptBlock (line firstBlock 2 200) validBlock,
    .acceptBlock (line firstBlock 2 201) validBlock,
    .acceptBlock (line firstBlock 2 202) validBlock, .beginIteration,
    .pass connectAll, .activateBestChain, .beginIteration]

theorem firstBlock_le_line (version count : Nat) :
    firstBlock ≤ line firstBlock version count := by
  induction count with
  | zero => exact le_rfl
  | succ count induction => exact Branch.le_child_of_le induction _

/-- With the cap of 200 blocks of the main network, the next pass disconnects
201 blocks. -/
theorem cached_candidate_deepens_reorg :
    Grounded firstBlock deepStart ∧
      (deepEvents.all Event.isArrival = true) ∧
      mainConfig.params.maxReorgDepth = 200 ∧
      (run (step mainConfig) deepStart deepEvents).map
        (fun node => passDisconnected mainConfig node connectAll) =
          some 201 := by
  refine ⟨grounded_storedNode _ (firstBlock_le_line 1 199) ?_, by decide,
    by decide, by decide +kernel⟩
  intro block member
  rcases List.mem_append.mp member with first | second
  · obtain ⟨count, _, rfl⟩ := List.mem_map.mp first
    exact firstBlock_le_line 1 count
  · obtain ⟨count, _, rfl⟩ := List.mem_map.mp second
    exact firstBlock_le_line 2 count

end B3Chain.Node
