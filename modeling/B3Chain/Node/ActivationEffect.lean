import B3Chain.Node.Activation

/-!
# What activation can do

`Weakens` says once what every part of the activation code keeps: the index
and the pins stay, candidates are only removed, failure flags are only added
and no block is parked.  The second part says where a step can move the tip
and how many blocks it disconnects.
-/

namespace B3Chain.Node

open B3Chain.Chain
open B3Chain.Tree

/-! ## Status updates -/

@[simp]
theorem status_setStatus_same
    (state : ChainState) (block : CBlockIndex)
    (change : BlockStatus → BlockStatus) :
    (state.setStatus block change).status block =
      change (state.status block) := by
  simp [ChainState.setStatus, ChainState.status]

theorem status_setStatus_of_ne
    (state : ChainState) {block other : CBlockIndex}
    (change : BlockStatus → BlockStatus) (different : other ≠ block) :
    (state.setStatus block change).status other = state.status other := by
  simp [ChainState.setStatus, ChainState.status, different]

theorem status_setStatusWhere
    (state : ChainState) (condition : CBlockIndex → Bool)
    (change : BlockStatus → BlockStatus) (block : CBlockIndex) :
    (state.setStatusWhere condition change).status block =
      if block ∈ state.index ∧ condition block then
        change (state.status block)
      else state.status block := by
  simp only [ChainState.setStatusWhere, ChainState.status]
  split_ifs <;> rfl

/-- `InvalidChainFound` makes failed children of the strict descendants. -/
theorem status_invalidChainFound
    (state : ChainState) (front block : CBlockIndex) :
    (invalidChainFound state front).status block =
      if block ∈ state.index ∧ block ≠ front ∧ front ≤ block then
        (state.status block).markFailedChild
      else state.status block := by
  rw [invalidChainFound, setBlockFailureFlags, status_setStatusWhere]
  simp only [decide_eq_true_eq]

@[simp]
theorem failed_markFailedValid (status : BlockStatus) :
    status.markFailedValid.failed = true := by
  simp [BlockStatus.failed, BlockStatus.markFailedValid]

@[simp]
theorem failed_markFailedChild (status : BlockStatus) :
    status.markFailedChild.failed = true := by
  simp [BlockStatus.failed, BlockStatus.markFailedChild]

@[simp]
theorem failed_raiseValidity (status : BlockStatus) (nUpTo : Nat) :
    (status.raiseValidity nUpTo).failed = status.failed := by
  simp only [BlockStatus.raiseValidity]
  split_ifs <;> rfl

@[simp]
theorem parked_raiseValidity (status : BlockStatus) (nUpTo : Nat) :
    (status.raiseValidity nUpTo).parked = status.parked := by
  simp only [BlockStatus.raiseValidity]
  split_ifs <;> rfl

@[simp]
theorem failedValid_raiseValidity (status : BlockStatus) (nUpTo : Nat) :
    (status.raiseValidity nUpTo).failedValid = status.failedValid := by
  simp only [BlockStatus.raiseValidity]
  split_ifs <;> rfl

/-! ## The common effect -/

theorem le_of_mem_branchAbove {stop : Option CBlockIndex}
    {block member : CBlockIndex} (onPath : member ∈ branchAbove stop block) :
    member ≤ block := by
  induction block with
  | root header =>
    rw [branchAbove] at onPath
    split at onPath
    · cases onPath
    · exact (List.mem_singleton.mp onPath).le
  | child parent header induction =>
    rw [branchAbove] at onPath
    split at onPath
    · cases onPath
    · rcases List.mem_cons.mp onPath with rfl | later
      · exact le_rfl
      · exact Branch.le_child_of_le (induction later) header

/-- Nothing is gained: the effect shared by all activation code. -/
structure Weakens (before after : ChainState) : Prop where
  index : after.index = before.index
  finalized : after.finalizedBlock = before.finalizedBlock
  persisted : after.persistedPin = before.persistedPin
  candidates : ∀ block ∈ after.setBlockIndexCandidates,
    block ∈ before.setBlockIndexCandidates
  unlinked : ∀ pair ∈ after.blocksUnlinked,
    pair ∈ before.blocksUnlinked ∨
      CBlockIndex.pprev pair.2 = some pair.1 ∧
        ∃ candidate ∈ before.setBlockIndexCandidates, pair.2 ≤ candidate
  failed : ∀ block, (before.status block).failed = true →
    (after.status block).failed = true
  parked : ∀ block,
    (after.status block).parked = (before.status block).parked

namespace Weakens

protected theorem refl (state : ChainState) : Weakens state state :=
  ⟨rfl, rfl, rfl, fun _ member => member, fun _ member => Or.inl member,
    fun _ failed => failed, fun _ => rfl⟩

protected theorem trans
    {first second third : ChainState}
    (left : Weakens first second) (right : Weakens second third) :
    Weakens first third where
  index := right.index.trans left.index
  finalized := right.finalized.trans left.finalized
  persisted := right.persisted.trans left.persisted
  candidates block member := left.candidates block
    (right.candidates block member)
  unlinked pair member := by
    rcases right.unlinked pair member with
      earlier | ⟨linked, candidate, offered, below⟩
    · exact left.unlinked pair earlier
    · exact Or.inr
        ⟨linked, candidate, left.candidates candidate offered, below⟩
  failed block before := right.failed block (left.failed block before)
  parked block := (right.parked block).trans (left.parked block)

theorem setTip (state : ChainState) (block : CBlockIndex) :
    Weakens state (state.setTip block) :=
  ⟨rfl, rfl, rfl, fun _ member => member, fun _ member => Or.inl member,
    fun _ failed => failed, fun _ => rfl⟩

theorem eraseCandidate (state : ChainState) (block : CBlockIndex) :
    Weakens state (state.eraseCandidate block) :=
  ⟨rfl, rfl, rfl, fun _ member => (List.mem_filter.mp member).1,
    fun _ member => Or.inl member, fun _ failed => failed, fun _ => rfl⟩

theorem prune (config : Config) (state : ChainState) :
    Weakens state (pruneBlockIndexCandidates config state) :=
  ⟨rfl, rfl, rfl, fun _ member => (List.mem_filter.mp member).1,
    fun _ member => Or.inl member, fun _ failed => failed, fun _ => rfl⟩

theorem setStatus
    (state : ChainState) (block : CBlockIndex)
    {change : BlockStatus → BlockStatus}
    (failed : ∀ status, status.failed = true →
      (change status).failed = true)
    (parked : ∀ status, (change status).parked = status.parked) :
    Weakens state (state.setStatus block change) := by
  refine ⟨rfl, rfl, rfl, fun _ member => member,
    fun _ member => Or.inl member, fun other before => ?_, fun other => ?_⟩
  · rcases eq_or_ne other block with rfl | different
    · rw [status_setStatus_same]
      exact failed _ before
    · rwa [status_setStatus_of_ne state change different]
  · rcases eq_or_ne other block with rfl | different
    · rw [status_setStatus_same]
      exact parked _
    · rw [status_setStatus_of_ne state change different]

theorem invalidChainFound (state : ChainState) (block : CBlockIndex) :
    Weakens state (invalidChainFound state block) := by
  refine ⟨rfl, rfl, rfl, fun _ member => member,
    fun _ member => Or.inl member, fun other before => ?_, fun other => ?_⟩
  · rw [status_invalidChainFound]
    split_ifs
    · exact failed_markFailedChild _
    · exact before
  · rw [status_invalidChainFound]
    split_ifs <;> rfl

theorem invalidBlockFound
    (state : ChainState) (block : CBlockIndex)
    (result : BlockValidationResult) :
    Weakens state (invalidBlockFound state block result) := by
  rw [Node.invalidBlockFound]
  split_ifs
  · have marked :
        Weakens state (state.setStatus block BlockStatus.markFailedValid) :=
      setStatus state block (fun _ _ => failed_markFailedValid _)
        (fun _ => rfl)
    exact (marked.trans (eraseCandidate _ block)).trans
      (Weakens.invalidChainFound _ block)
  · exact Weakens.refl state

theorem markFailedChain (state : ChainState) (block : CBlockIndex) :
    Weakens state
      (state.setStatus block fun status =>
        { status with failedChild := true }) := by
  apply setStatus
  · intro status _
    simp [BlockStatus.failed]
  · exact fun _ => rfl

theorem dropCandidate {before state : ChainState}
    (weakens : Weakens before state) (failedChain : Bool)
    {block : CBlockIndex}
    (offered : ∃ candidate ∈ before.setBlockIndexCandidates,
      block ≤ candidate) :
    Weakens before (dropCandidate failedChain state block) := by
  refine Weakens.trans ?_ (eraseCandidate _ block)
  cases failedChain with
  | true =>
    rw [if_pos rfl]
    exact weakens.trans (markFailedChain state block)
  | false =>
    rw [if_neg Bool.false_ne_true]
    split
    · exact weakens
    · next parent found =>
      refine ⟨weakens.index, weakens.finalized, weakens.persisted,
        weakens.candidates, fun pair member => ?_, weakens.failed,
        weakens.parked⟩
      rcases List.mem_append.mp member with earlier | added
      · exact weakens.unlinked pair earlier
      · rw [List.mem_singleton.mp added]
        exact Or.inr ⟨found, offered⟩

theorem foldl_dropCandidate {before state : ChainState}
    (weakens : Weakens before state) (failedChain : Bool)
    {blocks : List CBlockIndex}
    (offered : ∀ block ∈ blocks,
      ∃ candidate ∈ before.setBlockIndexCandidates, block ≤ candidate) :
    Weakens before
      (blocks.foldl (Node.dropCandidate failedChain) state) := by
  induction blocks generalizing state with
  | nil => exact weakens
  | cons block rest induction =>
    exact induction
      (weakens.dropCandidate failedChain (offered block List.mem_cons_self))
      fun other member => offered other (List.mem_cons_of_mem block member)

theorem removeUnusable {state : ChainState} {pindexNew : CBlockIndex}
    (offered : pindexNew ∈ state.setBlockIndexCandidates)
    (pindexTest : CBlockIndex) :
    Weakens state (removeUnusable state pindexNew pindexTest) :=
  ((Weakens.refl state).foldl_dropCandidate _ fun _ member =>
    ⟨pindexNew, offered, le_of_mem_branchAbove member⟩).trans
      (eraseCandidate _ pindexTest)

end Weakens

/-! ## Searching -/

theorem tip_foldl_dropCandidate
    (failedChain : Bool) (blocks : List CBlockIndex) (state : ChainState) :
    (blocks.foldl (dropCandidate failedChain) state).tip = state.tip := by
  induction blocks generalizing state with
  | nil => rfl
  | cons block rest induction =>
    rw [List.foldl_cons, induction, dropCandidate]
    cases failedChain with
    | true => rfl
    | false =>
      simp only [Bool.false_eq_true, if_false]
      split <;> rfl

theorem bestCandidate_mem
    {config : Config} {state : ChainState} {blocks : List CBlockIndex}
    {best : CBlockIndex}
    (found : bestCandidate config state blocks = some best) :
    best ∈ blocks := by
  induction blocks with
  | nil => simp [bestCandidate] at found
  | cons first rest induction =>
    rw [bestCandidate] at found
    split at found
    · rw [Option.some_inj] at found
      exact found ▸ List.mem_cons_self
    · next inner equal =>
      split_ifs at found
      · rw [Option.some_inj] at found
        exact found ▸ List.mem_cons_self
      · rw [Option.some_inj] at found
        subst found
        exact List.mem_cons_of_mem first (induction equal)

/-- The search keeps the tip and returns one of the candidates. -/
theorem findMostWorkChain_spec
    (config : Config) (attempts : Nat) (state : ChainState) :
    Weakens state (findMostWorkChain config attempts state).1 ∧
      (findMostWorkChain config attempts state).1.tip = state.tip ∧
      ∀ best, (findMostWorkChain config attempts state).2 = some best →
        best ∈ state.setBlockIndexCandidates := by
  induction attempts generalizing state with
  | zero => exact ⟨Weakens.refl state, rfl, fun best found => by cases found⟩
  | succ attempts induction =>
    rw [findMostWorkChain]
    split
    · exact ⟨Weakens.refl state, rfl, fun best found => by cases found⟩
    · next pindexNew chosen =>
      split
      · refine ⟨Weakens.refl state, rfl, fun best found => ?_⟩
        rw [Option.some_inj] at found
        exact found ▸ bestCandidate_mem chosen
      · next pindexTest unusable =>
        obtain ⟨weakens, tip, member⟩ :=
          induction (removeUnusable state pindexNew pindexTest)
        have removed :=
          Weakens.removeUnusable (bestCandidate_mem chosen) pindexTest
        refine ⟨removed.trans weakens, ?_, fun best found => ?_⟩
        · rw [tip, removeUnusable]
          exact tip_foldl_dropCandidate _ _ state
        · exact removed.candidates best (member best found)

theorem chooseMostWork_spec
    (config : Config) (state : ChainState) (cached : Option CBlockIndex) :
    Weakens state (chooseMostWork config state cached).1 ∧
      (chooseMostWork config state cached).1.tip = state.tip ∧
      ∀ best, (chooseMostWork config state cached).2 = some best →
        best ∈ state.setBlockIndexCandidates ∨ cached = some best := by
  cases cached with
  | none =>
    obtain ⟨weakens, tip, member⟩ :=
      findMostWorkChain_spec config state.setBlockIndexCandidates.length
        state
    exact ⟨weakens, tip, fun best found => Or.inl (member best found)⟩
  | some best =>
    exact ⟨Weakens.refl state, rfl, fun other found => Or.inr found⟩

/-! ## Connecting -/

@[simp]
theorem tip_invalidBlockFound
    (state : ChainState) (block : CBlockIndex)
    (result : BlockValidationResult) :
    (invalidBlockFound state block result).tip = state.tip := by
  rw [invalidBlockFound]
  split_ifs <;> rfl

theorem connectBatch_spec
    (config : Config) (input : PassInput) (oldTip front : CBlockIndex)
    (path : List CBlockIndex) (state : ChainState) :
    Weakens state (connectBatch config input oldTip front path state).1 ∧
      ((connectBatch config input oldTip front path state).1.tip =
          state.tip ∨
        (connectBatch config input oldTip front path state).1.tip ∈
          path) := by
  induction path generalizing state with
  | nil => exact ⟨Weakens.refl state, Or.inl rfl⟩
  | cons block rest induction =>
    rw [connectBatch]
    split
    · have connected :
          Weakens state
            (pruneBlockIndexCandidates config
              ((state.setStatus block fun status =>
                status.raiseValidity blockValidScripts).setTip block)) := by
        refine Weakens.trans ?_ (Weakens.prune config _)
        refine Weakens.trans ?_ (Weakens.setTip _ block)
        exact Weakens.setStatus state block
          (fun status before => by rw [failed_raiseValidity]; exact before)
          (fun status => parked_raiseValidity status _)
      simp only []
      split_ifs
      · exact ⟨connected, Or.inr List.mem_cons_self⟩
      · obtain ⟨weakens, tip⟩ := induction
          (pruneBlockIndexCandidates config
            ((state.setStatus block fun status =>
              status.raiseValidity blockValidScripts).setTip block))
        refine ⟨connected.trans weakens, Or.inr ?_⟩
        rcases tip with same | later
        · rw [same]
          exact List.mem_cons_self
        · exact List.mem_cons_of_mem block later
    · next result invalid =>
      simp only []
      have marked := Weakens.invalidBlockFound state block result
      have tipMarked := tip_invalidBlockFound state block result
      split_ifs
      · exact ⟨marked.trans (Weakens.invalidChainFound _ front),
          Or.inl tipMarked⟩
      · exact ⟨marked, Or.inl tipMarked⟩
    · exact ⟨Weakens.refl state, Or.inl rfl⟩

theorem connectLoop_spec
    (config : Config) (input : PassInput) (oldTip : CBlockIndex)
    (batches : Nat) (path : List CBlockIndex) (state : ChainState) :
    Weakens state (connectLoop config input oldTip batches path state).1 ∧
      ((connectLoop config input oldTip batches path state).1.tip =
          state.tip ∨
        (connectLoop config input oldTip batches path state).1.tip ∈
          path) := by
  induction batches generalizing path state with
  | zero => exact ⟨Weakens.refl state, Or.inl rfl⟩
  | succ batches induction =>
    rw [connectLoop]
    split
    · exact ⟨Weakens.refl state, Or.inl rfl⟩
    · next front last =>
      obtain ⟨batchWeakens, batchTip⟩ :=
        connectBatch_spec config input oldTip front (path.take 32) state
      have batchOnPath :
          (connectBatch config input oldTip front (path.take 32)
              state).1.tip = state.tip ∨
            (connectBatch config input oldTip front (path.take 32)
              state).1.tip ∈ path :=
        batchTip.imp_right fun member => List.mem_of_mem_take member
      split
      · next next' batch =>
        rw [batch] at batchWeakens batchOnPath
        obtain ⟨weakens, tip⟩ := induction (path.drop 32) next'
        refine ⟨batchWeakens.trans weakens, ?_⟩
        rcases tip with same | later
        · rw [same]
          exact batchOnPath
        · exact Or.inr (List.mem_of_mem_drop later)
      · exact ⟨batchWeakens, batchOnPath⟩

/-! ## Disconnecting -/

theorem disconnectTips_spec
    (input : PassInput) (fork : CBlockIndex) (tip : CBlockIndex)
    (below : fork ≤ tip) :
    fork ≤ (disconnectTips input (some fork) tip).1 ∧
      (disconnectTips input (some fork) tip).1 ≤ tip ∧
      CBlockIndex.nHeight (disconnectTips input (some fork) tip).1 +
          (disconnectTips input (some fork) tip).2.2 =
        CBlockIndex.nHeight tip ∧
      ((disconnectTips input (some fork) tip).2.1 = true →
        (disconnectTips input (some fork) tip).1 = fork) := by
  induction tip with
  | root header =>
    rw [disconnectTips]
    exact ⟨below, le_rfl, rfl, fun _ => below.symm⟩
  | child parent header induction =>
    rw [disconnectTips]
    split_ifs with atFork possible
    · rw [Option.some_inj] at atFork
      exact ⟨below, le_rfl, rfl, fun _ => atFork⟩
    · have lower : fork ≤ parent := by
        rcases (Branch.le_child_iff _ _ _).mp below with equal | lower
        · exact absurd (by rw [equal]) atFork
        · exact lower
      obtain ⟨above, bounded, counted, reached⟩ := induction lower
      refine ⟨above, Branch.le_child_of_le bounded header, ?_, reached⟩
      change
        CBlockIndex.nHeight (disconnectTips input (some fork) parent).1 +
            ((disconnectTips input (some fork) parent).2.2 + 1) = _
      rw [CBlockIndex.nHeight_child]
      omega
    · exact ⟨below, le_rfl, rfl, fun reached => by cases reached⟩

theorem mem_branchAbove
    {fork block member : CBlockIndex} (below : fork ≤ block)
    (onPath : member ∈ branchAbove (some fork) block) :
    fork ≤ member ∧ member ≤ block ∧ member ≠ fork := by
  induction block with
  | root header =>
    rw [branchAbove] at onPath
    rw [Branch.le_root_iff] at below
    rw [below, if_pos rfl] at onPath
    cases onPath
  | child parent header induction =>
    rw [branchAbove] at onPath
    split_ifs at onPath with atFork
    · cases onPath
    · have strict : fork ≠ .child parent header := by
        rintro rfl
        exact atFork rfl
      have lower : fork ≤ parent := by
        rcases (Branch.le_child_iff _ _ _).mp below with equal | lower
        · exact absurd equal strict
        · exact lower
      rcases List.mem_cons.mp onPath with rfl | later
      · exact ⟨below, le_rfl, strict.symm⟩
      · obtain ⟨above, bounded, different⟩ := induction lower later
        exact ⟨above, Branch.le_child_of_le bounded header, different⟩

theorem mem_branchAbove_none
    {block member : CBlockIndex} (below : member ≤ block) :
    member ∈ branchAbove none block := by
  induction block with
  | root header =>
    rw [Branch.le_root_iff] at below
    simp [branchAbove, below]
  | child parent header induction =>
    rw [branchAbove, if_neg (by simp)]
    rcases (Branch.le_child_iff _ _ _).mp below with equal | lower
    · rw [equal]
      exact List.mem_cons_self
    · exact List.mem_cons_of_mem _ (induction lower)

/-! ## The whole step -/

/-- A step stays above the fork and moves along the old or the new branch; it
disconnects no more blocks than the old branch has above the fork. -/
theorem activateBestChainStep_spec
    (config : Config) (input : PassInput) (state : ChainState)
    (best fork : CBlockIndex) (forked : findFork state.tip best = some fork) :
    Weakens state (activateBestChainStep config input state best).state ∧
      fork ≤ (activateBestChainStep config input state best).state.tip ∧
      ((activateBestChainStep config input state best).state.tip ≤
          state.tip ∨
        (activateBestChainStep config input state best).state.tip ≤ best) ∧
      (activateBestChainStep config input state best).disconnected +
          CBlockIndex.nHeight fork ≤ CBlockIndex.nHeight state.tip ∧
      ((activateBestChainStep config input state best).ok = true →
        (activateBestChainStep config input state best).disconnected +
          CBlockIndex.nHeight fork = CBlockIndex.nHeight state.tip) := by
  obtain ⟨⟨onBest, onTip⟩, _⟩ := (findFork_eq_some_iff _ _ _).mp forked
  obtain ⟨above, bounded, counted, reached⟩ :=
    disconnectTips_spec input fork state.tip onTip
  have heights :
      CBlockIndex.nHeight fork ≤
        CBlockIndex.nHeight (disconnectTips input (some fork) state.tip).1 :=
    Branch.height_le_of_le above
  rw [activateBestChainStep, forked]
  simp only []
  split_ifs with done
  · have atFork := reached done
    obtain ⟨weakens, tip⟩ :=
      connectLoop_spec config input state.tip
        (branchAbove (some fork) best).reverse.length
        (branchAbove (some fork) best).reverse
        (state.setTip (disconnectTips input (some fork) state.tip).1)
    have exactCount :
        (disconnectTips input (some fork) state.tip).2.2 +
            CBlockIndex.nHeight fork = CBlockIndex.nHeight state.tip := by
      rw [← counted, atFork, Nat.add_comm]
    refine ⟨(Weakens.setTip state _).trans weakens, ?_, ?_, exactCount.le,
      fun _ => exactCount⟩
    · rcases tip with same | member
      · rw [same]
        exact above
      · exact (mem_branchAbove onBest (List.mem_reverse.mp member)).1
    · rcases tip with same | member
      · rw [same]
        exact Or.inl bounded
      · exact Or.inr
          (mem_branchAbove onBest (List.mem_reverse.mp member)).2.1
  · have count :
        (disconnectTips input (some fork) state.tip).2.2 +
            CBlockIndex.nHeight fork ≤ CBlockIndex.nHeight state.tip := by
      omega
    exact ⟨Weakens.setTip state _, above, Or.inl bounded, count,
      fun ok => by cases ok⟩

end B3Chain.Node
