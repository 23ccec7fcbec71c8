import B3Chain.Node.OperatorEffect
import B3Chain.Node.Schedule

/-!
# Failure flags found by activation

`FlagsClosed` is the assertion of `CheckBlockIndex` on failure flags: a block
is failed exactly when it or one of its ancestors is `BLOCK_FAILED_VALID`.
`Discovers` says what activation does to the flags: only a block that
`ConnectBlock` has rejected becomes `BLOCK_FAILED_VALID`, and the assertion stays
true.
-/

namespace B3Chain.Node

open B3Chain.Chain
open B3Chain.Tree

/-- The ancestors of an indexed block are indexed. -/
def IndexClosed (state : ChainState) : Prop :=
  ∀ block ∈ state.index, ∀ ancestor ≤ block, ancestor ∈ state.index

/-- The assertion of `CheckBlockIndex` on the failure flags. -/
def FlagsClosed (state : ChainState) : Prop :=
  ∀ block ∈ state.index,
    (state.status block).failed = true ↔
      ∃ ancestor ∈ state.index, ancestor ≤ block ∧
        (state.status ancestor).failedValid = true

instance (state : ChainState) : Decidable (FlagsClosed state) :=
  inferInstanceAs (Decidable (∀ block ∈ state.index, _))

variable {state before after : ChainState} {block pindexTest : CBlockIndex}

/-- In a closed index failure is inherited. -/
theorem FlagsClosed.inherited (closed : FlagsClosed state)
    {ancestor : CBlockIndex} (indexed : block ∈ state.index)
    (ancestorIndexed : ancestor ∈ state.index) (below : ancestor ≤ block)
    (failed : (state.status ancestor).failed = true) :
    (state.status block).failed = true := by
  obtain ⟨source, sourceIndexed, sourceBelow, valid⟩ :=
    (closed ancestor ancestorIndexed).mp failed
  exact (closed block indexed).mpr
    ⟨source, sourceIndexed, le_trans sourceBelow below, valid⟩

/-- Flags that agree on the failure bits are closed together. -/
theorem FlagsClosed.congr (closed : FlagsClosed before)
    (index : after.index = before.index)
    (failed : ∀ block,
      (after.status block).failed = (before.status block).failed)
    (failedValid : ∀ block,
      (after.status block).failedValid =
        (before.status block).failedValid) :
    FlagsClosed after := by
  intro block indexed
  rw [index] at indexed
  simp only [index, failed, failedValid]
  exact closed block indexed

/-- Failing a whole subtree below a `BLOCK_FAILED_VALID` block keeps the index
closed. -/
theorem FlagsClosed.of_subtree {root source : CBlockIndex}
    (closed : FlagsClosed before) (index : after.index = before.index)
    (outside : ∀ block, ¬root ≤ block →
      after.status block = before.status block)
    (inside : ∀ block ∈ before.index, root ≤ block →
      (after.status block).failed = true)
    (sourceIndexed : source ∈ before.index) (sourceBelow : source ≤ root)
    (valid : (after.status source).failedValid = true) :
    FlagsClosed after := by
  intro block indexed
  rw [index] at indexed
  by_cases below : root ≤ block
  · refine ⟨fun _ => ?_, fun _ => inside block indexed below⟩
    rw [index]
    exact ⟨source, sourceIndexed, le_trans sourceBelow below, valid⟩
  · rw [outside block below, closed block indexed, index]
    constructor
    · rintro ⟨ancestor, member, onBlock, marked⟩
      refine ⟨ancestor, member, onBlock, ?_⟩
      rwa [outside ancestor fun above => below (le_trans above onBlock)]
    · rintro ⟨ancestor, member, onBlock, marked⟩
      refine ⟨ancestor, member, onBlock, ?_⟩
      rwa [outside ancestor fun above => below (le_trans above onBlock)]
        at marked

/-! ## Discovery -/

/-- What activation does to the flags.  The assertion is kept if what was
handed to it is `ready`, so that nothing outside the index is marked. -/
structure Discovers (ready : Prop) (rejected : CBlockIndex → Prop)
    (before after : ChainState) : Prop where
  index : after.index = before.index
  found : ∀ block, (after.status block).failedValid = true →
    (before.status block).failedValid = true ∨ rejected block
  closed : ready → IndexClosed before → FlagsClosed before →
    FlagsClosed after

namespace Discovers

variable {ready : Prop} {rejected : CBlockIndex → Prop}

/-- A change that leaves the failure flags alone. -/
theorem of_flags (index : after.index = before.index)
    (failed : ∀ block,
      (after.status block).failed = (before.status block).failed)
    (failedValid : ∀ block,
      (after.status block).failedValid =
        (before.status block).failedValid) :
    Discovers ready rejected before after := by
  refine ⟨index, fun block marked => Or.inl ?_,
    fun _ _ closed => closed.congr index failed failedValid⟩
  rw [← failedValid]
  exact marked

protected theorem refl (state : ChainState) :
    Discovers ready rejected state state :=
  of_flags rfl (fun _ => rfl) (fun _ => rfl)

protected theorem trans
    {first second third : ChainState}
    (left : Discovers ready rejected first second)
    (right : Discovers ready rejected second third) :
    Discovers ready rejected first third := by
  refine ⟨right.index.trans left.index, fun block marked => ?_,
    fun isReady indexClosed flagsClosed => ?_⟩
  · rcases right.found block marked with before | refused
    · exact left.found block before
    · exact Or.inr refused
  · refine right.closed isReady ?_
      (left.closed isReady indexClosed flagsClosed)
    intro block indexed ancestor below
    rw [left.index] at indexed ⊢
    exact indexClosed block indexed ancestor below

theorem mono {earlier : Prop} {more : CBlockIndex → Prop}
    (discovers : Discovers ready rejected before after)
    (follows : earlier → ready)
    (weaker : ∀ block, rejected block → more block) :
    Discovers earlier more before after :=
  ⟨discovers.index,
    fun block marked => (discovers.found block marked).imp_right (weaker block),
    fun isReady => discovers.closed (follows isReady)⟩

theorem of_ready {earlier : Prop}
    (discovers : Discovers ready rejected before after)
    (follows : earlier → ready) : Discovers earlier rejected before after :=
  discovers.mono follows fun _ refused => refused

theorem setTip (state : ChainState) (block : CBlockIndex) :
    Discovers ready rejected state (state.setTip block) :=
  of_flags rfl (fun _ => rfl) (fun _ => rfl)

theorem eraseCandidate (state : ChainState) (block : CBlockIndex) :
    Discovers ready rejected state (state.eraseCandidate block) :=
  of_flags rfl (fun _ => rfl) (fun _ => rfl)

theorem prune (config : Config) (state : ChainState) :
    Discovers ready rejected state (pruneBlockIndexCandidates config state) :=
  of_flags rfl (fun _ => rfl) (fun _ => rfl)

theorem raiseValidity
    (state : ChainState) (block : CBlockIndex) (nUpTo : Nat) :
    Discovers ready rejected state
      (state.setStatus block fun status => status.raiseValidity nUpTo) := by
  refine of_flags rfl (fun other => ?_) (fun other => ?_)
  · rcases eq_or_ne other block with rfl | different
    · rw [status_setStatus_same, failed_raiseValidity]
    · rw [status_setStatus_of_ne state _ different]
  · rcases eq_or_ne other block with rfl | different
    · rw [status_setStatus_same, failedValid_raiseValidity]
    · rw [status_setStatus_of_ne state _ different]

/-- Marking the strict descendants of a block that has a failed ancestor. -/
theorem invalidChainFound (state : ChainState) (source front : CBlockIndex) :
    Discovers (source ≤ front ∧ source ∈ state.index ∧
        (state.status source).failedValid = true) rejected state
      (invalidChainFound state front) := by
  have status := status_invalidChainFound state front
  refine ⟨rfl, fun block marked => Or.inl ?_, ?_⟩
  · rw [status] at marked
    split at marked
    · cases marked
    · exact marked
  · rintro ⟨below, sourceIndexed, valid⟩ - closed
    have failedSource : (state.status source).failed = true := by
      rw [BlockStatus.failed, valid, Bool.true_or]
    refine closed.of_subtree rfl (fun block outside => ?_)
      (fun block indexed inside => ?_) sourceIndexed below ?_
    · rw [status, if_neg fun marked => outside marked.2.2]
    · rw [status]
      split
      · exact failed_markFailedChild _
      · exact closed.inherited indexed sourceIndexed
          (le_trans below inside) failedSource
    · rw [status, if_neg]
      · exact valid
      · rintro ⟨_, different, above⟩
        exact different (le_antisymm below above)

theorem markFailedValid (state : ChainState) (refused : rejected block) :
    Discovers (block ∈ state.index) rejected state
      (Node.invalidChainFound
        ((state.setStatus block
          BlockStatus.markFailedValid).eraseCandidate block) block) := by
  have status : ∀ other,
      (Node.invalidChainFound
        ((state.setStatus block
          BlockStatus.markFailedValid).eraseCandidate block)
        block).status other =
        if other ∈ state.index ∧ other ≠ block ∧ block ≤ other then
          ((state.setStatus block
            BlockStatus.markFailedValid).status other).markFailedChild
        else (state.setStatus block
          BlockStatus.markFailedValid).status other :=
    status_invalidChainFound _ block
  have own :
      (Node.invalidChainFound
        ((state.setStatus block
          BlockStatus.markFailedValid).eraseCandidate block)
        block).status block = (state.status block).markFailedValid := by
    rw [status, if_neg (fun marked => marked.2.1 rfl), status_setStatus_same]
  refine ⟨rfl, fun other marked => ?_, fun indexed _ closed => ?_⟩
  · rcases eq_or_ne other block with rfl | different
    · exact Or.inr refused
    · rw [status, status_setStatus_of_ne state _ different] at marked
      split at marked
      · cases marked
      · exact Or.inl marked
  · refine closed.of_subtree rfl (fun other outside => ?_)
      (fun other otherIndexed inside => ?_) indexed (le_refl block) ?_
    · have different : other ≠ block := fun equal => outside equal.ge
      rw [status, if_neg fun marked => outside marked.2.2,
        status_setStatus_of_ne state _ different]
    · rcases eq_or_ne other block with rfl | different
      · rw [own]
        exact failed_markFailedValid _
      · rw [status, if_pos ⟨otherIndexed, different, inside⟩]
        exact failed_markFailedChild _
    · rw [own]
      rfl

theorem invalidBlockFound (state : ChainState) (refused : rejected block)
    (result : BlockValidationResult) :
    Discovers (block ∈ state.index) rejected state
      (invalidBlockFound state block result) := by
  rw [Node.invalidBlockFound]
  split
  · exact markFailedValid state refused
  · exact Discovers.refl state

/-! ## Searching -/

theorem dropCandidate {failedChain : Bool} {pindexFailed : CBlockIndex}
    (below : pindexTest ≤ pindexFailed)
    (failed : failedChain = true → (state.status pindexTest).failed = true) :
    Discovers ready rejected state
      (dropCandidate failedChain state pindexFailed) := by
  refine Discovers.trans ?_ (eraseCandidate _ pindexFailed)
  cases failedChain with
  | true =>
    rw [if_pos rfl]
    have testFailed := failed rfl
    have sameValid : ∀ other,
        ((state.setStatus pindexFailed fun status =>
          { status with failedChild := true }).status
            other).failedValid = (state.status other).failedValid := by
      intro other
      rcases eq_or_ne other pindexFailed with rfl | different
      · rw [status_setStatus_same]
      · rw [status_setStatus_of_ne state _ different]
    refine ⟨rfl, fun block marked => Or.inl ?_,
      fun _ indexClosed closed block indexed => ?_⟩
    · rw [← sameValid]
      exact marked
    · -- The marked block was failed already, as a descendant.
      simp only [sameValid]
      refine Iff.trans ?_ (closed block indexed)
      rcases eq_or_ne block pindexFailed with rfl | different
      · have already : (state.status block).failed = true :=
          closed.inherited indexed
            (indexClosed block indexed pindexTest below) below testFailed
        rw [status_setStatus_same, already]
        simp [BlockStatus.failed]
      · rw [status_setStatus_of_ne state _ different]
  | false =>
    rw [if_neg Bool.false_ne_true]
    split
    · exact Discovers.refl state
    · exact of_flags rfl (fun _ => rfl) (fun _ => rfl)

theorem foldl_dropCandidate {failedChain : Bool} {blocks : List CBlockIndex}
    (state : ChainState) (below : ∀ block ∈ blocks, pindexTest ≤ block)
    (failed : failedChain = true → (state.status pindexTest).failed = true) :
    Discovers ready rejected state
      (blocks.foldl (Node.dropCandidate failedChain) state) := by
  induction blocks generalizing state with
  | nil => exact Discovers.refl state
  | cons block rest induction =>
    refine (dropCandidate (below block List.mem_cons_self) failed).trans
      (induction _ (fun other member =>
        below other (List.mem_cons_of_mem block member)) ?_)
    rintro rfl
    exact (Weakens.markFailedChain state block).failed pindexTest (failed rfl)

theorem firstUnusable_le {pindexNew : CBlockIndex}
    (found : firstUnusable state pindexNew = some pindexTest) :
    pindexTest ≤ pindexNew := by
  induction pindexNew with
  | root header =>
    rw [firstUnusable] at found
    split at found
    · cases found
    · split at found
      · exact (Option.some_inj.mp found).ge
      · cases found
  | child parent header induction =>
    rw [firstUnusable] at found
    split at found
    · cases found
    · split at found
      · exact (Option.some_inj.mp found).ge
      · exact Branch.le_child_of_le (induction found) header

theorem removeUnusable (state : ChainState) {pindexNew : CBlockIndex}
    (below : pindexTest ≤ pindexNew) :
    Discovers ready rejected state
      (removeUnusable state pindexNew pindexTest) :=
  (foldl_dropCandidate state
    (fun _ member => (mem_branchAbove below member).1) id).trans
      (eraseCandidate _ pindexTest)

theorem findMostWorkChain
    (config : Config) (attempts : Nat) (state : ChainState) :
    Discovers ready rejected state
      (findMostWorkChain config attempts state).1 := by
  induction attempts generalizing state with
  | zero => exact Discovers.refl state
  | succ attempts induction =>
    rw [Node.findMostWorkChain]
    split
    · exact Discovers.refl state
    · next pindexNew chosen =>
      split
      · exact Discovers.refl state
      · next pindexTest unusable =>
        exact (removeUnusable state (firstUnusable_le unusable)).trans
          (induction _)

theorem chooseMostWork
    (config : Config) (state : ChainState) (cached : Option CBlockIndex) :
    Discovers ready rejected state (chooseMostWork config state cached).1 := by
  cases cached with
  | none => exact findMostWorkChain config _ state
  | some best => exact Discovers.refl state

end Discovers

/-! ## Connecting -/

/-- `ConnectBlock` finds the block invalid in this pass. -/
def PassInput.Rejects (input : PassInput) (block : CBlockIndex) : Prop :=
  ∃ result, input.connect block = .invalid result

/-- The blocks to connect are sorted from low to high. -/
theorem pairwise_branchAbove (stop : Option CBlockIndex)
    (block : CBlockIndex) :
    (branchAbove stop block).reverse.Pairwise (· ≤ ·) := by
  rw [List.pairwise_reverse]
  induction block with
  | root header =>
    rw [branchAbove]
    split
    · exact List.Pairwise.nil
    · exact List.pairwise_singleton _ _
  | child parent header induction =>
    rw [branchAbove]
    split
    · exact List.Pairwise.nil
    · refine List.Pairwise.cons (fun member onPath => ?_) induction
      exact Branch.le_child_of_le (le_of_mem_branchAbove onPath) header

/-- The last block of a sorted batch is its highest. -/
theorem le_of_getLast?
    {path : List CBlockIndex} {front : CBlockIndex}
    (sorted : path.Pairwise (· ≤ ·)) (last : path.getLast? = some front) :
    ∀ block ∈ path, block ≤ front := by
  obtain ⟨initial, rfl⟩ := List.getLast?_eq_some_iff.mp last
  intro block member
  rcases List.mem_append.mp member with early | final
  · exact (List.pairwise_append.mp sorted).2.2 block early front
      List.mem_cons_self
  · exact (List.mem_singleton.mp final).le

theorem Discovers.connectBatch
    (config : Config) (input : PassInput) (oldTip front : CBlockIndex)
    (path : List CBlockIndex) (state : ChainState) :
    Discovers (∀ block ∈ path, block ∈ state.index ∧ block ≤ front)
      input.Rejects state
      (connectBatch config input oldTip front path state).1 := by
  induction path generalizing state with
  | nil => exact Discovers.refl state
  | cons block rest induction =>
    rw [Node.connectBatch]
    split
    · have connected {ready : Prop} :
          Discovers ready input.Rejects state
            (pruneBlockIndexCandidates config
              ((state.setStatus block fun status =>
                status.raiseValidity blockValidScripts).setTip block)) :=
        ((Discovers.raiseValidity state block _).trans
          (Discovers.setTip _ block)).trans (Discovers.prune config _)
      simp only []
      split
      · exact connected
      · exact connected.trans ((induction _).of_ready fun bounded other
          member => bounded other (List.mem_cons_of_mem block member))
    · next result refused =>
      have marked : Discovers (block ∈ state.index) input.Rejects state
          (Node.invalidBlockFound state block result) :=
        Discovers.invalidBlockFound state ⟨result, refused⟩ result
      simp only []
      split
      · next marks =>
        refine (marked.of_ready fun bounded =>
          (bounded block List.mem_cons_self).1).trans
            ((Discovers.invalidChainFound _ block front).of_ready
              fun bounded => ?_)
        obtain ⟨indexed, below⟩ := bounded block List.mem_cons_self
        refine ⟨below, marked.index ▸ indexed, ?_⟩
        rw [Node.invalidBlockFound, if_pos marks, status_invalidChainFound,
          if_neg fun both => both.2.1 rfl]
        exact congrArg BlockStatus.failedValid
          (status_setStatus_same state block _)
      · exact marked.of_ready fun bounded =>
          (bounded block List.mem_cons_self).1
    · exact Discovers.refl state

theorem Discovers.connectLoop
    (config : Config) (input : PassInput) (oldTip : CBlockIndex)
    (batches : Nat) {path : List CBlockIndex} (state : ChainState)
    (sorted : path.Pairwise (· ≤ ·)) :
    Discovers (∀ block ∈ path, block ∈ state.index) input.Rejects state
      (connectLoop config input oldTip batches path state).1 := by
  induction batches generalizing path state with
  | zero => exact Discovers.refl state
  | succ batches induction =>
    rw [Node.connectLoop]
    split
    · exact Discovers.refl state
    · next front last =>
      have bounded :=
        le_of_getLast? (sorted.sublist (List.take_sublist 32 path)) last
      have batch :=
        (Discovers.connectBatch config input oldTip front (path.take 32)
          state).of_ready fun (indexed : ∀ block ∈ path,
            block ∈ state.index) block member =>
              ⟨indexed block (List.mem_of_mem_take member),
                bounded block member⟩
      split
      · next after goesOn =>
        rw [goesOn] at batch
        refine batch.trans ((induction after
          (sorted.sublist (List.drop_sublist 32 path))).of_ready
            fun indexed block member => ?_)
        rw [batch.index]
        exact indexed block (List.mem_of_mem_drop member)
      · exact batch

/-- The flags after a step towards a block. -/
theorem Discovers.activateBestChainStep (config : Config) (input : PassInput)
    (state : ChainState) (best : CBlockIndex) :
    Discovers (IndexClosed state ∧ best ∈ state.index) input.Rejects state
      (activateBestChainStep config input state best).state := by
  rw [Node.activateBestChainStep]
  simp only []
  split
  · refine (Discovers.setTip state _).trans
      ((Discovers.connectLoop config input state.tip _ _
        (pairwise_branchAbove _ best)).of_ready fun known block member => ?_)
    exact known.1 best known.2 block
      (le_of_mem_branchAbove (List.mem_reverse.mp member))
  · exact Discovers.setTip state _

/-- The flags after a pass. -/
theorem Discovers.abcPass (config : Config) (input : PassInput)
    (state : ChainState) (startingTip : CBlockIndex)
    (cached : Option CBlockIndex) (connected : Bool) :
    Discovers (IndexClosed state ∧
        (∀ block ∈ state.setBlockIndexCandidates, block ∈ state.index) ∧
        ∀ block, cached = some block → block ∈ state.index)
      input.Rejects state
      (abcPass config input state startingTip cached connected).1 := by
  have chosen {ready : Prop} : Discovers ready input.Rejects state
      (Node.chooseMostWork config state cached).1 :=
    Discovers.chooseMostWork config state cached
  obtain ⟨_, _, known⟩ := chooseMostWork_spec config state cached
  rw [abcPass_chain]
  split
  · next searched found =>
    rw [found] at chosen
    exact chosen
  · next searched best found =>
    rw [found] at chosen known
    have sameIndex : searched.index = state.index := (@chosen True).index
    split
    · exact chosen
    · refine chosen.trans ((Discovers.activateBestChainStep config input
        searched best).of_ready ?_)
      rintro ⟨indexClosed, candidates, inCache⟩
      rw [IndexClosed, sameIndex]
      refine ⟨indexClosed, ?_⟩
      rcases known best rfl with candidate | fromCache
      · exact candidates best candidate
      · exact inCache best fromCache

end B3Chain.Node
