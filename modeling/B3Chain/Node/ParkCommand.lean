import B3Chain.Node.FailureFlags

/-!
# The tip after parking a block

The `parkblock` call ends with `ParkBlock`.  The comment there says that
`InvalidateBlock` activates the best chain again afterwards; it only takes
blocks off the chain, and the `invalidateblock` call activates the best chain
itself.  So a parked block in the active chain leaves the node at its parent,
which is the best block only if no other branch has more work.
-/

namespace B3Chain.Node

open B3Chain.Chain
open B3Chain.Tree

/-- The `parkblock` call; `none` is an RPC error. -/
def parkblock (config : Config) (input : WalkInput) (state : ChainState)
    (pindex : CBlockIndex) : Option ChainState :=
  if pindex ∈ state.index then
    match parkBlock config input state pindex with
    | (after, true) => some after
    | (_, false) => none
  else none

/-- The node has left the parked branch, and no block that it could activate has
more work than its tip. -/
structure MovedToBest (pindex : CBlockIndex) (after : ChainState) : Prop where
  left : ¬pindex ≤ after.tip
  most : ∀ block ∈ after.index, (after.entry block).eligible = true →
    CBlockIndex.nChainWork block ≤ CBlockIndex.nChainWork after.tip

/-- The parent of a parked block in the active chain, and else the tip. -/
def remainingTip (state : ChainState) (pindex : CBlockIndex) : CBlockIndex :=
  if pindex ≤ state.tip then (CBlockIndex.pprev pindex).getD pindex
  else state.tip

/-- No other branch has more work. -/
def NoBetterBranch (state : ChainState) (pindex : CBlockIndex) : Prop :=
  ∀ block ∈ state.index, (state.entry block).eligible = true →
    ¬pindex ≤ block →
      CBlockIndex.nChainWork block ≤
        CBlockIndex.nChainWork (remainingTip state pindex)

/-! ## Where the walk ends -/

/-- A walk that leaves the invalidated block was not hindered. -/
theorem unhindered_of_left
    (config : Config) {input : WalkInput} {pindex pprev tip : CBlockIndex}
    (linked : CBlockIndex.pprev pindex = some pprev) {walk : Walk}
    (atTip : walk.state.tip = tip)
    (left : ¬pindex ≤
      (invalidateWalk config input pindex tip walk).1.state.tip) :
    input.Unhindered pindex tip := by
  induction tip generalizing walk with
  | root header =>
    intro block member above
    have below := above.trans (le_of_mem_branchAbove member)
    rw [Branch.le_root_iff] at below
    rw [below] at linked
    cases linked
  | child parent header induction =>
    have stays (inside : ¬pindex ≤ walk.state.tip) :
        input.Unhindered pindex (.child parent header) := by
      intro block member above
      rw [atTip] at inside
      exact absurd (above.trans (le_of_mem_branchAbove member)) inside
    rw [invalidateWalk] at left
    split_ifs at left with interrupted inside connected
    · exact stays left
    · intro block member above
      rw [branchAbove, if_neg (Option.some_ne_none _)] at member
      rcases List.mem_cons.mp member with rfl | later
      · exact ⟨connected, Bool.not_eq_true _ ▸ interrupted⟩
      · exact induction (tip_walkStep config walk _ parent) left block later
          above
    · exact stays left
    · exact stays left

theorem tip_invalidateBlock
    (config : Config) (input : WalkInput) (state : ChainState)
    {pindex pprev : CBlockIndex}
    (linked : CBlockIndex.pprev pindex = some pprev) :
    (invalidateBlock config input state pindex).1.tip =
      (invalidateWalk config input pindex state.tip
        ⟨state, pindex, false,
          highpowOutofchainHeaders config state pprev⟩).1.state.tip := by
  rw [invalidateBlock, linked]
  simp only []
  split
  · next walk failed => rw [failed]
  · next walk done =>
    rw [done, finishInvalidate]
    split
    · rfl
    · change (ChainState.insertCandidates _ _).tip = _
      rw [(insertCandidates_fields _ _).2.2.1]
      exact (markOutside_fields walk pindex).1

/-- The walk ends at the parent of the invalidated block, or does not start. -/
theorem tip_of_left
    {config : Config} {state after : ChainState} {pindex pprev : CBlockIndex}
    (linked : CBlockIndex.pprev pindex = some pprev)
    (retreats : Retreats config pindex pprev state after)
    (left : ¬pindex ≤ after.tip) :
    after.tip = remainingTip state pindex := by
  rw [remainingTip, linked]
  split_ifs with inChain
  · rcases retreats.tip with same | ⟨_, above, below⟩
    · rw [same] at left
      exact absurd inChain left
    · rcases Branch.le_total_of_le below inChain with lower | higher
      · cases pindex with
        | root header => cases linked
        | child parent header =>
          obtain rfl : parent = pprev := Option.some_inj.mp linked
          rcases (Branch.le_child_iff _ _ _).mp lower with top | under
          · exact absurd top.ge left
          · exact le_antisymm under above
      · exact absurd higher left
  · rcases retreats.tip with same | ⟨inside, _⟩
    · exact same
    · exact absurd inside inChain

/-! ## Which blocks can still be activated -/

theorem Invalidated.eligible_iff
    {pindex : CBlockIndex} {before after : ChainState}
    (invalidated : Invalidated pindex before after)
    {block : CBlockIndex} (indexed : block ∈ before.index) :
    (after.entry block).eligible = true ↔
      (before.entry block).eligible = true ∧ ¬pindex ≤ block := by
  by_cases above : pindex ≤ block
  · have failed : (after.status block).failed = true := by
      rcases above.eq_or_lt with rfl | strictly
      · rw [invalidated.own]
        split_ifs with marked
        · exact failed_markFailedValid _
        · simpa using (not_or.mp marked).2
      · rw [BlockStatus.failed,
          (invalidated.descendants block indexed strictly).1, Bool.or_true]
    rw [ChainState.status] at failed
    simp [Entry.eligible, BlockStatus.isValid, failed, above]
  · have same : after.entry block = before.entry block := by
      rw [invalidated.marks.entry block,
        invalidated.marks.outside block above]
      rfl
    rw [same, and_iff_left above]

theorem eligible_parkBlock
    (config : Config) (input : WalkInput) (state : ChainState)
    (pindex block : CBlockIndex) :
    ((parkBlock config input state pindex).1.entry block).eligible =
      ((invalidateBlock config input state pindex).1.entry
        block).eligible := by
  have marked (chain : ChainState) :
      ((chain.setStatus pindex BlockStatus.markParked).entry
        block).eligible = (chain.entry block).eligible := by
    dsimp only [ChainState.setStatus]
    rcases eq_or_ne block pindex with rfl | different
    · rw [Function.update_self]
      rfl
    · rw [Function.update_of_ne different]
  rw [parkBlock]
  split
  · next failed => rw [failed]
  · next after done =>
    rw [done, ChainState.setStatusWhere]
    dsimp only
    split_ifs
    · exact marked after
    · exact marked after

/-- A successful `parkblock` call moves the node to the best remaining branch
exactly if no shutdown interrupts it and no other branch has more work than the
block it falls back to. -/
theorem parkblock_moves_to_best_iff
    (config : Config) (input : WalkInput) (state : ChainState)
    (pindex : CBlockIndex) (after : ChainState)
    (parked : parkblock config input state pindex = some after) :
    MovedToBest pindex after ↔
      input.Unhindered pindex state.tip ∧ NoBetterBranch state pindex := by
  rw [parkblock] at parked
  split_ifs at parked
  split at parked
  · next final done =>
    obtain rfl : final = after := Option.some_inj.mp parked
    obtain ⟨pprev, linked⟩ :
        ∃ pprev, CBlockIndex.pprev pindex = some pprev := by
      cases genesis : CBlockIndex.pprev pindex with
      | none =>
        rw [parkBlock, invalidateBlock, genesis] at done
        cases done
      | some pprev => exact ⟨pprev, rfl⟩
    have fields := parkBlock_fields config input state pindex
    rw [done] at fields
    have retreats := invalidateBlock_retreats config input state linked
    have sameTip :
        final.tip = (invalidateBlock config input state pindex).1.tip :=
      fields.2.1
    have sameIndex : final.index = state.index :=
      fields.1.trans retreats.marks.index
    by_cases free : input.Unhindered pindex state.tip
    · have walked :=
        ((walkFacts_start config state pindex pprev).invalidateWalk input
          linked rfl).2 free
      have left : ¬pindex ≤ final.tip := by
        rw [sameTip, tip_invalidateBlock config input state linked]
        exact walked.2
      have tip : final.tip = remainingTip state pindex := by
        rw [sameTip] at left ⊢
        exact tip_of_left linked retreats left
      have eligible (block : CBlockIndex) (indexed : block ∈ state.index) :
          (final.entry block).eligible = true ↔
            (state.entry block).eligible = true ∧ ¬pindex ≤ block := by
        have same := eligible_parkBlock config input state pindex block
        rw [done] at same
        rw [same]
        exact (invalidateBlock_completes config state linked
          free).2.eligible_iff indexed
      rw [and_iff_right free]
      constructor
      · intro moved block indexed able beyond
        rw [← tip]
        exact moved.most block (sameIndex ▸ indexed)
          ((eligible block indexed).mpr ⟨able, beyond⟩)
      · intro none
        refine ⟨left, fun block indexed able => ?_⟩
        rw [sameIndex] at indexed
        obtain ⟨before, beyond⟩ := (eligible block indexed).mp able
        rw [tip]
        exact none block indexed before beyond
    · refine iff_of_false (fun moved => free ?_) fun both => free both.1
      have left := moved.left
      rw [sameTip, tip_invalidateBlock config input state linked] at left
      exact unhindered_of_left config linked rfl left
  · cases parked

/-! ## A competing branch -/

/-- Genesis and two blocks on it. -/
def forkedGenesis : CBlockIndex := .root ⟨1, 0, 0, 0x207fffff, 0⟩

def shortBranch : CBlockIndex := .child forkedGenesis ⟨1, 0, 1, 0x207fffff, 0⟩

def otherBranch : CBlockIndex := .child forkedGenesis ⟨1, 0, 2, 0x207fffff, 0⟩

/-- The node is on the first block; it knows the given ones, all complete. -/
def forkedState (index : List CBlockIndex) : ChainState where
  index := index
  entry := fun _ =>
    { status := ⟨blockValidTransactions, true, false, false, false⟩
      nTx := 1, chainTxCount := 1, nSequenceId := 1 }
  tip := shortBranch
  setBlockIndexCandidates := [shortBranch]
  blocksUnlinked := []
  nBlockSequenceId := 2
  finalizedBlock := none
  persistedPin := none

def forkedConfig : Config :=
  ⟨Consensus.Network.main.params, fun _ => 0, 0, false⟩

def quietWalk : WalkInput := ⟨fun _ => true, fun _ => false⟩

/-- With a single branch the parent is the best block. -/
theorem parkblock_on_a_single_branch :
    ∃ after,
      parkblock forkedConfig quietWalk
          (forkedState [forkedGenesis, shortBranch]) shortBranch =
        some after ∧ MovedToBest shortBranch after :=
  ⟨_, rfl, (parkblock_moves_to_best_iff forkedConfig quietWalk
    (forkedState [forkedGenesis, shortBranch]) shortBranch _ rfl).mpr
      ⟨by decide, by unfold NoBetterBranch; decide⟩⟩

/-- With a second branch the node stays at the parent, which has less work. -/
theorem parkblock_leaves_a_better_branch :
    ∃ after,
      parkblock forkedConfig quietWalk
          (forkedState [forkedGenesis, shortBranch, otherBranch])
          shortBranch = some after ∧
        after.tip = forkedGenesis ∧
        otherBranch ∈ after.index ∧
        (after.entry otherBranch).eligible = true ∧
        CBlockIndex.nChainWork forkedGenesis <
          CBlockIndex.nChainWork otherBranch ∧
        ¬ MovedToBest shortBranch after := by
  refine ⟨_, rfl, by decide, by decide, by decide, by decide, ?_⟩
  intro moved
  exact absurd (moved.most otherBranch (by decide) (by decide)) (by decide)

end B3Chain.Node
