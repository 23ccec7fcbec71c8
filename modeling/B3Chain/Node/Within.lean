import B3Chain.Node.FailureFlags

/-!
# Blocks within a set

The candidates and the blocks that wait for a parent, followed through
activation and acceptance: if they lie in a set that contains the ancestors of
its members, they stay in it.
-/

namespace B3Chain.Node

open B3Chain.Chain

/-- The candidates and the blocks that wait for a parent lie in a set. -/
structure Within (region : Set CBlockIndex) (state : ChainState) : Prop where
  candidates : ∀ block ∈ state.setBlockIndexCandidates, block ∈ region
  unlinked : ∀ pair ∈ state.blocksUnlinked, pair.2 ∈ region

namespace Within

variable {region : Set CBlockIndex} {state : ChainState}

section

variable (within : Within region state)

include within

/-- Activation offers nothing new, and only blocks below a candidate wait. -/
theorem of_weakens {after : ChainState} (lower : IsLowerSet region)
    (weakens : Weakens state after) : Within region after := by
  constructor
  · intro block member
    exact within.candidates block (weakens.candidates block member)
  · intro pair member
    rcases weakens.unlinked pair member with
      old | ⟨-, candidate, offered, below⟩
    · exact within.unlinked pair old
    · exact lower below (within.candidates candidate offered)

theorem linkBlock (config : Config) {block : CBlockIndex}
    (inside : block ∈ region) :
    Within region (linkBlock config state block) := by
  obtain ⟨_, _, _, _, candidates, unlinked⟩ :=
    linkBlock_facts config state block
  constructor
  · intro member offered
    rcases candidates member offered with old | rfl
    · exact within.candidates member old
    · exact inside
  · intro pair waiting
    exact within.unlinked pair (unlinked pair waiting)

theorem linkQueue (config : Config) (rounds : Nat) {queue : List CBlockIndex}
    (queued : ∀ block ∈ queue, block ∈ region) :
    Within region (linkQueue config rounds queue state) := by
  induction rounds generalizing queue state with
  | zero => exact within
  | succ rounds induction =>
    cases queue with
    | nil => exact within
    | cons first rest =>
      rw [Node.linkQueue]
      apply induction
      · exact within.linkBlock config (queued first List.mem_cons_self)
      · intro block member
        rcases List.mem_append.mp member with old | waiting
        · exact queued block (List.mem_cons_of_mem first old)
        · obtain ⟨pair, filtered, rfl⟩ := List.mem_map.mp waiting
          exact within.unlinked pair (List.mem_filter.mp filtered).1

theorem receivedBlockTransactions (config : Config) {block : CBlockIndex}
    (inside : block ∈ region) (vtxSize : Nat) :
    Within region
      (receivedBlockTransactions config state block vtxSize) := by
  have received :
      Within region
        { state with
          entry := Function.update state.entry block
            (receivedEntry state block vtxSize) } :=
    ⟨within.candidates, within.unlinked⟩
  have linked : ∀ rounds, Within region
      (Node.linkQueue config rounds [block]
        { state with
          entry := Function.update state.entry block
            (receivedEntry state block vtxSize) }) := by
    intro rounds
    apply received.linkQueue
    intro other member
    rw [List.mem_singleton.mp member]
    exact inside
  rw [Node.receivedBlockTransactions]
  split
  · exact linked _
  · simp only []
    split
    · exact linked _
    · split
      · constructor
        · exact within.candidates
        · intro pair member
          rcases List.mem_append.mp member with old | added
          · exact within.unlinked pair old
          · rw [List.mem_singleton.mp added]
            exact inside
      · exact received

theorem acceptBlockBody (lower : IsLowerSet region) (config : Config)
    {block : CBlockIndex} (inside : block ∈ region) (input : AcceptInput) :
    Within region (acceptBlockBody config state block input).1 := by
  rw [Node.acceptBlockBody]
  split
  · exact within
  · split
    · exact within
    · split
      · exact within
      · split
        · exact within.of_weakens lower
            (Weakens.invalidBlockFound state block _)
        · split
          · exact within.receivedBlockTransactions config inside _
          · exact within

end

end Within

end B3Chain.Node
