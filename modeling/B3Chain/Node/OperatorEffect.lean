import B3Chain.Node.Operator

/-!
# What the operator commands do

`Marks region` says once what marking blocks as failed keeps: everything but
the failure flags of the blocks in `region`, the tip and the candidate set.
The walk of `InvalidateBlock` is followed by one invariant that relates each of
its states to the state before the call.
-/

namespace B3Chain.Node

open B3Chain.Chain
open B3Chain.Tree

/-! ## Marking -/

/-- Only failure flags of blocks in `region` change, and no failed block
becomes unfailed. -/
structure Marks (region : CBlockIndex → Prop) (before after : ChainState) :
    Prop where
  index : after.index = before.index
  finalized : after.finalizedBlock = before.finalizedBlock
  persisted : after.persistedPin = before.persistedPin
  unlinked : after.blocksUnlinked = before.blocksUnlinked
  entry : ∀ block, after.entry block =
    { before.entry block with
      status :=
        { before.status block with
          failedValid := (after.status block).failedValid
          failedChild := (after.status block).failedChild } }
  failed : ∀ block, (before.status block).failed = true →
    (after.status block).failed = true
  outside : ∀ block, ¬region block →
    after.status block = before.status block

/-- A status change that only adds failure. -/
def OnlyFails (change : BlockStatus → BlockStatus) : Prop :=
  ∀ status, (change status).failed = true ∧
    change status =
      { status with
        failedValid := (change status).failedValid
        failedChild := (change status).failedChild }

theorem onlyFails_markFailedValid : OnlyFails BlockStatus.markFailedValid :=
  fun status => ⟨failed_markFailedValid status, rfl⟩

theorem onlyFails_markFailedChild : OnlyFails BlockStatus.markFailedChild :=
  fun status => ⟨failed_markFailedChild status, rfl⟩

namespace Marks

variable {region : CBlockIndex → Prop}

/-- A change that keeps the index, the entries, the pins and the unlinked
pairs. -/
theorem of_same
    {before after : ChainState} (index : after.index = before.index)
    (entry : after.entry = before.entry)
    (finalized : after.finalizedBlock = before.finalizedBlock)
    (persisted : after.persistedPin = before.persistedPin)
    (unlinked : after.blocksUnlinked = before.blocksUnlinked) :
    Marks region before after := by
  have status : ∀ block, after.status block = before.status block := by
    intro block
    rw [ChainState.status, ChainState.status, entry]
  refine ⟨index, finalized, persisted, unlinked, fun block => ?_,
    fun block failed => ?_, fun block _ => status block⟩
  · rw [status, entry]
    rfl
  · rw [status]
    exact failed

protected theorem refl (state : ChainState) : Marks region state state :=
  of_same rfl rfl rfl rfl rfl

protected theorem trans
    {first second third : ChainState}
    (left : Marks region first second) (right : Marks region second third) :
    Marks region first third where
  index := right.index.trans left.index
  finalized := right.finalized.trans left.finalized
  persisted := right.persisted.trans left.persisted
  unlinked := right.unlinked.trans left.unlinked
  entry block := by
    have middle : second.status block =
        { first.status block with
          failedValid := (second.status block).failedValid
          failedChild := (second.status block).failedChild } :=
      congrArg Entry.status (left.entry block)
    rw [right.entry block, left.entry block, middle]
  failed block before := right.failed block (left.failed block before)
  outside block beyond :=
    (right.outside block beyond).trans (left.outside block beyond)

theorem setStatus
    (state : ChainState) {block : CBlockIndex}
    {change : BlockStatus → BlockStatus} (inside : region block)
    (fails : OnlyFails change) :
    Marks region state (state.setStatus block change) := by
  refine ⟨rfl, rfl, rfl, rfl, fun other => ?_, fun other failed => ?_,
    fun other beyond => ?_⟩
  · rcases eq_or_ne other block with rfl | different
    · rw [status_setStatus_same, ← (fails _).2]
      simp [ChainState.setStatus]
    · rw [status_setStatus_of_ne state change different]
      simp [ChainState.setStatus, ChainState.status, different]
  · rcases eq_or_ne other block with rfl | different
    · rw [status_setStatus_same]
      exact (fails _).1
    · rwa [status_setStatus_of_ne state change different]
  · have different : other ≠ block := by
      rintro rfl
      exact beyond inside
    exact status_setStatus_of_ne state change different

theorem setStatusWhere
    (state : ChainState) {condition : CBlockIndex → Bool}
    {change : BlockStatus → BlockStatus}
    (inside : ∀ block ∈ state.index, condition block = true → region block)
    (fails : OnlyFails change) :
    Marks region state (state.setStatusWhere condition change) := by
  refine ⟨rfl, rfl, rfl, rfl, fun block => ?_, fun block failed => ?_,
    fun block beyond => ?_⟩
  · rw [status_setStatusWhere]
    rw [ChainState.setStatusWhere]
    simp only []
    split
    · rw [← (fails _).2]
    · rfl
  · rw [status_setStatusWhere]
    split
    · exact (fails _).1
    · exact failed
  · rw [status_setStatusWhere, if_neg]
    rintro ⟨member, holds⟩
    exact beyond (inside block member holds)

/-- What becomes eligible was eligible. -/
theorem eligible_of
    {before after : ChainState} (marks : Marks region before after)
    {block : CBlockIndex} (eligible : (after.entry block).eligible = true) :
    (before.entry block).eligible = true := by
  have notFailed : (before.status block).failed = false := by
    by_contra failed
    have stillFailed := marks.failed block (by simpa using failed)
    rw [ChainState.status] at stillFailed
    simp [Entry.eligible, BlockStatus.isValid, stillFailed] at eligible
  rw [marks.entry block] at eligible
  have fields :
      blockValidTransactions ≤ (before.status block).validity ∧
        (before.entry block).haveNumChainTxs = true := by
    simp only [Entry.eligible, BlockStatus.isValid, Bool.and_eq_true,
      decide_eq_true_eq] at eligible
    exact ⟨eligible.1.2, eligible.2⟩
  rw [Entry.eligible, BlockStatus.isValid]
  rw [ChainState.status] at notFailed fields
  rw [notFailed, fields.2]
  simp [fields.1]

/-- Marking does not touch the order of blocks. -/
theorem sortsBefore_eq
    {before after : ChainState} (marks : Marks region before after)
    (config : Config) (left right : CBlockIndex) :
    sortsBefore config after left right =
      sortsBefore config before left right := by
  have sequence : ∀ block,
      (after.entry block).nSequenceId = (before.entry block).nSequenceId := by
    intro block
    rw [marks.entry block]
  rw [sortsBefore, sortsBefore, sequence left, sequence right]

end Marks

/-! ## Candidates -/

theorem insertCandidates_fields
    (state : ChainState) (blocks : List CBlockIndex) :
    (state.insertCandidates blocks).index = state.index ∧
      (state.insertCandidates blocks).entry = state.entry ∧
      (state.insertCandidates blocks).tip = state.tip ∧
      (state.insertCandidates blocks).finalizedBlock =
        state.finalizedBlock ∧
      (state.insertCandidates blocks).persistedPin = state.persistedPin ∧
      (state.insertCandidates blocks).blocksUnlinked =
        state.blocksUnlinked := by
  induction blocks generalizing state with
  | nil => exact ⟨rfl, rfl, rfl, rfl, rfl, rfl⟩
  | cons block rest induction => exact induction (state.insertCandidate block)

theorem mem_insertCandidates
    {state : ChainState} {blocks : List CBlockIndex} {member : CBlockIndex} :
    member ∈ (state.insertCandidates blocks).setBlockIndexCandidates ↔
      member ∈ state.setBlockIndexCandidates ∨ member ∈ blocks := by
  induction blocks generalizing state with
  | nil => simp [ChainState.insertCandidates]
  | cons block rest induction =>
    have inner : member ∈
        ((state.insertCandidate block).insertCandidates
          rest).setBlockIndexCandidates ↔ _ := induction
    rw [ChainState.insertCandidates] at inner ⊢
    rw [List.foldl_cons, inner, ChainState.insertCandidate,
      List.mem_insert_iff, List.mem_cons]
    tauto

theorem Marks.insertCandidates
    {region : CBlockIndex → Prop} (state : ChainState)
    (blocks : List CBlockIndex) :
    Marks region state (state.insertCandidates blocks) := by
  obtain ⟨index, entry, _, finalized, persisted, unlinked⟩ :=
    insertCandidates_fields state blocks
  exact Marks.of_same index entry finalized persisted unlinked

/-! ## The walk of InvalidateBlock -/

/-- The tips the walk can leave: the old tip, and the blocks of the chain from
the parent of the invalidated block upwards if that block is in the chain. -/
def OnPath (pindex pprev tip block : CBlockIndex) : Prop :=
  block = tip ∨ pindex ≤ tip ∧ pprev ≤ block ∧ block ≤ tip

theorem OnPath.le {pindex pprev tip block : CBlockIndex}
    (onPath : OnPath pindex pprev tip block) : block ≤ tip := by
  rcases onPath with rfl | ⟨_, _, below⟩
  · exact le_rfl
  · exact below

/-- An eligible block that does not sort before one of these tips. -/
def Promoted (config : Config) (before : ChainState)
    (pindex pprev block : CBlockIndex) : Prop :=
  block ∈ before.index ∧ (before.entry block).eligible = true ∧
    ∃ tip, OnPath pindex pprev before.tip tip ∧
      sortsBefore config before block tip = false

/-- The effect of invalidating `pindex`, whole or in part. -/
structure Retreats (config : Config) (pindex pprev : CBlockIndex)
    (before after : ChainState) : Prop where
  marks : Marks (fun block => pindex ≤ block) before after
  tip : OnPath pindex pprev before.tip after.tip
  candidates : ∀ member ∈ after.setBlockIndexCandidates,
    member ∈ before.setBlockIndexCandidates ∨
      OnPath pindex pprev before.tip member ∨
      Promoted config before pindex pprev member

/-- What holds of the walk since the call of `InvalidateBlock`. -/
structure WalkFacts (config : Config) (before : ChainState)
    (pindex pprev : CBlockIndex) (walk : Walk) : Prop extends
    Retreats config pindex pprev before walk.state where
  headers : ∀ member ∈ walk.highpowOutofchainHeaders,
    member ∈ before.index ∧ ¬member ≤ before.tip
  progress :
    walk.state = before ∧ walk.toMarkFailed = pindex ∧
        walk.pindexWasInChain = false ∨
      walk.pindexWasInChain = true ∧ pindex ≤ before.tip ∧
        pindex ≤ walk.toMarkFailed ∧
        CBlockIndex.pprev walk.toMarkFailed = some walk.state.tip ∧
        (walk.state.status pindex).failedChild =
          (before.status pindex).failedChild ∧
        (walk.toMarkFailed = pindex →
          (walk.state.status pindex).failedValid = true)

section

variable {config : Config} {before : ChainState}
  {pindex pprev : CBlockIndex} {walk : Walk}

theorem WalkFacts.le_toMarkFailed
    (facts : WalkFacts config before pindex pprev walk) :
    pindex ≤ walk.toMarkFailed := by
  rcases facts.progress with ⟨_, start, _⟩ | ⟨_, _, above, _⟩
  · exact start.ge
  · exact above

theorem disconnectInvalid_marks
    (state : ChainState) {pindex invalidWalkTip : CBlockIndex}
    (pprev : CBlockIndex) (inside : pindex ≤ invalidWalkTip) :
    Marks (fun block => pindex ≤ block) state
      (disconnectInvalid state invalidWalkTip pprev) := by
  have moved : Marks (fun block => pindex ≤ block) state
      (state.setTip pprev) :=
    Marks.of_same rfl rfl rfl rfl rfl
  have marked :
      Marks (fun block => pindex ≤ block) (state.setTip pprev)
        ((state.setTip pprev).setStatus invalidWalkTip
          BlockStatus.markFailedValid) :=
    Marks.setStatus _ inside onlyFails_markFailedValid
  exact (moved.trans marked).trans (Marks.of_same rfl rfl rfl rfl rfl)

theorem relabelPrevious_marks
    (state : ChainState) {pindex toMarkFailed : CBlockIndex}
    (invalidWalkTip : CBlockIndex) (inside : pindex ≤ toMarkFailed) :
    Marks (fun block => pindex ≤ block) state
      (relabelPrevious state toMarkFailed invalidWalkTip) := by
  rw [relabelPrevious]
  split
  · exact Marks.setStatus state inside onlyFails_markFailedChild
  · exact Marks.refl state

theorem relabelPrevious_fields
    (state : ChainState) (toMarkFailed invalidWalkTip : CBlockIndex) :
    (relabelPrevious state toMarkFailed invalidWalkTip).tip = state.tip ∧
      (relabelPrevious state toMarkFailed
        invalidWalkTip).setBlockIndexCandidates =
          state.setBlockIndexCandidates := by
  rw [relabelPrevious]
  split <;> exact ⟨rfl, rfl⟩

/-- The walk changes the invalidated block itself only when it reaches it. -/
theorem status_relabelPrevious_disconnectInvalid
    (state : ChainState) {pindex invalidWalkTip : CBlockIndex}
    (pprev toMarkFailed : CBlockIndex) (inside : pindex ≤ invalidWalkTip) :
    (relabelPrevious (disconnectInvalid state invalidWalkTip pprev)
        toMarkFailed invalidWalkTip).status pindex =
      if pindex = invalidWalkTip then
        (state.status pindex).markFailedValid
      else state.status pindex := by
  have disconnected :
      (disconnectInvalid state invalidWalkTip pprev).status pindex =
        if pindex = invalidWalkTip then
          (state.status pindex).markFailedValid
        else state.status pindex := by
    change ((state.setTip pprev).setStatus invalidWalkTip
      BlockStatus.markFailedValid).status pindex = _
    split
    · next same =>
      rw [← same, status_setStatus_same]
      rfl
    · next different =>
      rw [status_setStatus_of_ne _ _ different]
      rfl
  rw [relabelPrevious]
  split
  · next relabels =>
    have different : pindex ≠ toMarkFailed :=
      (lt_of_le_of_lt inside (lt_of_pprev relabels.1)).ne
    rw [status_setStatus_of_ne _ _ different, disconnected]
  · exact disconnected

theorem tip_walkStep
    (config : Config) (walk : Walk) (invalidWalkTip pprev : CBlockIndex) :
    (walkStep config walk invalidWalkTip pprev).state.tip = pprev := by
  rw [walkStep]
  simp only []
  rw [(insertCandidates_fields _ _).2.2.1]
  exact (relabelPrevious_fields _ _ _).1

/-- One step of the walk keeps its facts. -/
theorem WalkFacts.walkStep
    {parent : CBlockIndex} {header : CBlockHeader}
    (facts : WalkFacts config before pindex pprev walk)
    (linked : CBlockIndex.pprev pindex = some pprev)
    (tip : walk.state.tip = .child parent header)
    (inside : pindex ≤ .child parent header) :
    WalkFacts config before pindex pprev
      (walkStep config walk (.child parent header) parent) := by
  have onChain : (.child parent header : CBlockIndex) ≤ before.tip := by
    rw [← tip]
    exact facts.tip.le
  have inChain : pindex ≤ before.tip := le_trans inside onChain
  have parentAbove : pprev ≤ parent := by
    rcases (Branch.le_child_iff _ _ _).mp inside with rfl | lower
    · exact (Option.some_inj.mp linked).ge
    · exact le_trans (lt_of_pprev linked).le lower
  have onPath : OnPath pindex pprev before.tip parent :=
    Or.inr ⟨inChain, parentAbove,
      le_trans (Branch.parent_lt_child parent header).le onChain⟩
  have relabelled :
      Marks (fun block => pindex ≤ block) before
        (relabelPrevious
          (disconnectInvalid walk.state (.child parent header) parent)
          walk.toMarkFailed (.child parent header)) :=
    (facts.marks.trans (disconnectInvalid_marks walk.state parent
      inside)).trans (relabelPrevious_marks _ _ facts.le_toMarkFailed)
  have sameCandidates :=
    (relabelPrevious_fields
      (disconnectInvalid walk.state (.child parent header) parent)
      walk.toMarkFailed (.child parent header)).2
  refine ⟨⟨?_, ?_, ?_⟩, ?_, ?_⟩
  · refine (relabelled.trans (Marks.setStatusWhere _ ?_
      onlyFails_markFailedChild)).trans (Marks.insertCandidates _ _)
    intro block _ chosen
    have member := of_decide_eq_true chosen
    rw [headersBelow, List.mem_filter, Bool.and_eq_true] at member
    exact le_trans inside (of_decide_eq_true member.2.2)
  · rw [tip_walkStep]
    exact onPath
  · intro member inserted
    rw [Node.walkStep] at inserted
    simp only [] at inserted
    rcases mem_insertCandidates.mp inserted with old | offered
    · change member ∈ (relabelPrevious _ _ _).setBlockIndexCandidates at old
      rw [sameCandidates] at old
      rcases List.mem_insert_iff.mp old with rfl | kept
      · exact Or.inr (Or.inl onPath)
      · exact facts.candidates member (List.mem_filter.mp kept).1
    · rw [headersOffered, List.mem_filter] at offered
      obtain ⟨inHeaders, conditions⟩ := offered
      simp only [Bool.and_eq_true, Bool.not_eq_true'] at conditions
      refine Or.inr (Or.inr ⟨(facts.headers member inHeaders).1,
        relabelled.eligible_of conditions.2, parent, onPath, ?_⟩)
      rw [← relabelled.sortsBefore_eq]
      exact conditions.1.2
  · intro member kept
    exact facts.headers member (List.mem_filter.mp kept).1
  · have own :
        (Node.walkStep config walk (.child parent header)
            parent).state.status pindex =
          if pindex = .child parent header then
            (walk.state.status pindex).markFailedValid
          else walk.state.status pindex := by
      rw [← status_relabelPrevious_disconnectInvalid walk.state parent
        walk.toMarkFailed inside]
      rw [Node.walkStep]
      simp only []
      rw [ChainState.status, (insertCandidates_fields _ _).2.1]
      change (ChainState.setStatusWhere _ _ _).status pindex = _
      rw [status_setStatusWhere, if_neg]
      rintro ⟨_, chosen⟩
      have member := of_decide_eq_true chosen
      rw [headersBelow, List.mem_filter] at member
      exact (facts.headers pindex member.1).2 inChain
    have sameChild :
        (walk.state.status pindex).failedChild =
          (before.status pindex).failedChild := by
      rcases facts.progress with ⟨start, _⟩ | ⟨_, _, _, _, same, _⟩
      · rw [start]
      · exact same
    refine Or.inr ⟨rfl, inChain, inside, ?_, ?_, ?_⟩
    · rw [tip_walkStep]
      rfl
    · rw [own]
      split <;> exact sameChild
    · intro reached
      change .child parent header = pindex at reached
      rw [own, if_pos reached.symm]
      rfl

/-- Nothing stops the walk from the tip before `pindex` has left the chain. -/
def WalkInput.Unhindered (input : WalkInput) (pindex tip : CBlockIndex) :
    Prop :=
  ∀ block ∈ branchAbove none tip, pindex ≤ block →
    input.disconnect block = true ∧ input.interrupt block = false

instance (input : WalkInput) (pindex tip : CBlockIndex) :
    Decidable (input.Unhindered pindex tip) :=
  inferInstanceAs (Decidable (∀ block ∈ branchAbove none tip, _))

/-- The whole walk keeps the facts; unhindered, it leaves the invalidated
block. -/
theorem WalkFacts.invalidateWalk {tip : CBlockIndex} (input : WalkInput)
    (facts : WalkFacts config before pindex pprev walk)
    (linked : CBlockIndex.pprev pindex = some pprev)
    (atTip : walk.state.tip = tip) :
    WalkFacts config before pindex pprev
        (invalidateWalk config input pindex tip walk).1 ∧
      (input.Unhindered pindex tip →
        (invalidateWalk config input pindex tip walk).2 = true ∧
          ¬pindex ≤
            (invalidateWalk config input pindex tip walk).1.state.tip) := by
  induction tip generalizing walk with
  | root header =>
    rw [Node.invalidateWalk]
    refine ⟨facts, fun _ => ⟨rfl, fun inside => ?_⟩⟩
    rw [atTip, Branch.le_root_iff] at inside
    rw [inside] at linked
    cases linked
  | child parent header induction =>
    have here : (.child parent header : CBlockIndex) ∈
        branchAbove none (.child parent header) := by
      simp [branchAbove]
    rw [Node.invalidateWalk]
    split
    · next interrupted =>
      refine ⟨facts, fun free => ⟨rfl, fun inside => ?_⟩⟩
      rw [atTip] at inside
      rw [(free _ here inside).2] at interrupted
      cases interrupted
    · split
      · next outside =>
        refine ⟨facts, fun _ => ⟨rfl, ?_⟩⟩
        rw [atTip]
        exact outside
      · next inside =>
        split
        · have stepped := facts.walkStep linked atTip (not_not.mp inside)
          obtain ⟨walked, ends⟩ :=
            induction stepped (tip_walkStep config walk _ parent)
          refine ⟨walked, fun free => ends fun block member => ?_⟩
          apply free block
          rw [branchAbove, if_neg (by simp)]
          exact List.mem_cons_of_mem _ member
        · next stuck =>
          exact ⟨facts, fun free =>
            absurd (free _ here (not_not.mp inside)).1 stuck⟩

theorem walkFacts_start
    (config : Config) (state : ChainState) (pindex pprev : CBlockIndex) :
    WalkFacts config state pindex pprev
      ⟨state, pindex, false, highpowOutofchainHeaders config state pprev⟩ := by
  refine ⟨⟨Marks.refl state, Or.inl rfl, fun _ member => Or.inl member⟩,
    fun member inside => ?_, Or.inl ⟨rfl, rfl, rfl⟩⟩
  rw [highpowOutofchainHeaders, List.mem_filter] at inside
  simp only [Bool.and_eq_true, Bool.not_eq_true', ChainState.contains,
    decide_eq_false_iff_not] at inside
  exact ⟨inside.1, inside.2.1.1⟩

/-! ## InvalidateBlock -/

theorem markOutside_marks (walk : Walk) (pindex : CBlockIndex) :
    Marks (fun block => pindex ≤ block) walk.state
      (markOutside walk pindex) := by
  rw [markOutside]
  split
  · have marked :
        Marks (fun block => pindex ≤ block) walk.state
          (walk.state.setStatus pindex BlockStatus.markFailedValid) :=
      Marks.setStatus _ (le_refl pindex) onlyFails_markFailedValid
    exact marked.trans (Marks.of_same rfl rfl rfl rfl rfl)
  · exact Marks.refl walk.state

theorem markOutside_fields (walk : Walk) (pindex : CBlockIndex) :
    (markOutside walk pindex).tip = walk.state.tip ∧
      ∀ member ∈ (markOutside walk pindex).setBlockIndexCandidates,
        member ∈ walk.state.setBlockIndexCandidates := by
  rw [markOutside]
  split
  · exact ⟨rfl, fun _ member => (List.mem_filter.mp member).1⟩
  · exact ⟨rfl, fun _ member => member⟩

theorem invalidChainFound_marks
    (state : ChainState) {pindex invalidBlock : CBlockIndex}
    (inside : pindex ≤ invalidBlock) :
    Marks (fun block => pindex ≤ block) state
      (invalidChainFound state invalidBlock) := by
  refine Marks.setStatusWhere state (fun block _ chosen => ?_)
    onlyFails_markFailedChild
  exact le_trans inside (of_decide_eq_true chosen).2

theorem WalkFacts.finishInvalidate_retreats
    (facts : WalkFacts config before pindex pprev walk) :
    Retreats config pindex pprev before
      (finishInvalidate config walk pindex).1 := by
  rw [finishInvalidate]
  split
  · exact facts.toRetreats
  · have marked := facts.marks.trans (markOutside_marks walk pindex)
    obtain ⟨sameTip, kept⟩ := markOutside_fields walk pindex
    refine ⟨(marked.trans (Marks.insertCandidates _ _)).trans
      (invalidChainFound_marks _ facts.le_toMarkFailed), ?_, ?_⟩
    · change OnPath _ _ _ (ChainState.insertCandidates _ _).tip
      rw [(insertCandidates_fields _ _).2.2.1, sameTip]
      exact facts.tip
    · intro member inside
      change member ∈
        (ChainState.insertCandidates _ _).setBlockIndexCandidates at inside
      rcases mem_insertCandidates.mp inside with old | added
      · exact facts.candidates member (kept member old)
      · rw [missingCandidates, List.mem_filter, marked.index] at added
        obtain ⟨indexed, conditions⟩ := added
        simp only [Bool.and_eq_true, Bool.not_eq_true'] at conditions
        refine Or.inr (Or.inr ⟨indexed, marked.eligible_of conditions.1,
          walk.state.tip, facts.tip, ?_⟩)
        rw [← marked.sortsBefore_eq, ← sameTip]
        exact conditions.2

/-- After an unhindered walk the block to mark is the invalidated one, and it
is no longer in the chain. -/
theorem WalkFacts.toMarkFailed_eq
    (facts : WalkFacts config before pindex pprev walk)
    (left : ¬pindex ≤ walk.state.tip) :
    walk.toMarkFailed = pindex ∧
      walk.state.contains walk.toMarkFailed = false := by
  have same : walk.toMarkFailed = pindex := by
    rcases facts.progress with ⟨_, start, _⟩ | ⟨_, _, above, child, _⟩
    · exact start
    · generalize walk.toMarkFailed = failed at above child
      cases failed with
      | root header => cases child
      | child parent header =>
        rcases (Branch.le_child_iff _ _ _).mp above with equal | lower
        · exact equal.symm
        · have parentTip : parent = walk.state.tip :=
            Option.some_inj.mp child
          rw [parentTip] at lower
          exact absurd lower left
  rw [same]
  exact ⟨rfl, decide_eq_false left⟩

/-- The flags after a completed `InvalidateBlock`. -/
structure Invalidated (pindex : CBlockIndex) (before after : ChainState) :
    Prop where
  marks : Marks (fun block => pindex ≤ block) before after
  descendants : ∀ block ∈ before.index, pindex < block →
    (after.status block).failedChild = true ∧
      (after.status block).failedValid = false
  own : after.status pindex =
    if pindex ≤ before.tip ∨ (before.status pindex).failed = false then
      (before.status pindex).markFailedValid
    else before.status pindex

/-- The status of the block itself after the walk and the mark. -/
theorem status_markOutside
    (facts : WalkFacts config before pindex pprev walk)
    (left : ¬pindex ≤ walk.state.tip) :
    (markOutside walk pindex).status pindex =
      if pindex ≤ before.tip ∨ (before.status pindex).failed = false then
        (before.status pindex).markFailedValid
      else before.status pindex := by
  rcases facts.progress with
    ⟨start, _, outside⟩ | ⟨wasIn, inChain, _, _, sameChild, reached⟩
  · rw [start] at left
    rw [markOutside, outside, start]
    cases failed : (before.status pindex).failed with
    | true => simp [left]
    | false =>
      simp only [Bool.not_false, Bool.and_self, or_true, if_true]
      exact status_setStatus_same before pindex _
  · have valid := reached (facts.toMarkFailed_eq left).1
    rw [markOutside, wasIn, if_pos (Or.inl inChain)]
    have shape : walk.state.status pindex = _ :=
      congrArg Entry.status (facts.marks.entry pindex)
    rw [sameChild, valid] at shape
    exact shape

theorem WalkFacts.finishInvalidate_completes
    (facts : WalkFacts config before pindex pprev walk)
    (left : ¬pindex ≤ walk.state.tip) :
    (finishInvalidate config walk pindex).2 = true ∧
      Invalidated pindex before
        (finishInvalidate config walk pindex).1 := by
  obtain ⟨same, outside⟩ := facts.toMarkFailed_eq left
  have retreats := facts.finishInvalidate_retreats
  have ownStatus := status_markOutside facts left
  have marked := facts.marks.trans (markOutside_marks walk pindex)
  rw [finishInvalidate, outside] at retreats ⊢
  have status :
      ∀ block,
        (invalidChainFound
            ((markOutside walk pindex).insertCandidates
              (missingCandidates config (markOutside walk pindex)))
            walk.toMarkFailed).status block =
          if block ∈ before.index ∧ block ≠ pindex ∧ pindex ≤ block then
            ((markOutside walk pindex).status block).markFailedChild
          else (markOutside walk pindex).status block := by
    intro block
    rw [status_invalidChainFound, same, (insertCandidates_fields _ _).1,
      marked.index, ChainState.status, (insertCandidates_fields _ _).2.1]
    rfl
  refine ⟨rfl, retreats.marks, fun block indexed above => ?_, ?_⟩
  · rw [if_neg Bool.false_ne_true]
    simp only [status]
    rw [if_pos ⟨indexed, above.ne', above.le⟩]
    exact ⟨rfl, rfl⟩
  · rw [if_neg Bool.false_ne_true]
    simp only [status]
    rw [if_neg (fun both => both.2.1 rfl)]
    exact ownStatus

end

/-- `InvalidateBlock`, completed or not. -/
theorem invalidateBlock_retreats
    (config : Config) (input : WalkInput) (state : ChainState)
    {pindex pprev : CBlockIndex}
    (linked : CBlockIndex.pprev pindex = some pprev) :
    Retreats config pindex pprev state
      (invalidateBlock config input state pindex).1 := by
  have walked :=
    (walkFacts_start config state pindex pprev).invalidateWalk input linked
      rfl
  rw [invalidateBlock, linked]
  simp only []
  split
  · next walk failed =>
    rw [failed] at walked
    exact walked.1.toRetreats
  · next walk done =>
    rw [done] at walked
    exact walked.1.finishInvalidate_retreats

/-- `InvalidateBlock` on a block other than genesis, unhindered. -/
theorem invalidateBlock_completes
    (config : Config) {input : WalkInput} (state : ChainState)
    {pindex pprev : CBlockIndex}
    (linked : CBlockIndex.pprev pindex = some pprev)
    (free : input.Unhindered pindex state.tip) :
    (invalidateBlock config input state pindex).2 = true ∧
      Invalidated pindex state
        (invalidateBlock config input state pindex).1 := by
  obtain ⟨facts, ends⟩ :=
    (walkFacts_start config state pindex pprev).invalidateWalk input linked
      rfl
  obtain ⟨finished, left⟩ := ends free
  rw [invalidateBlock, linked]
  simp only []
  split
  · next walk failed =>
    rw [failed] at finished
    cases finished
  · next walk done =>
    rw [done] at facts left
    exact facts.finishInvalidate_completes left

/-! ## Parking and clearing -/

/-- `ParkBlock` moves the tip and the candidates as `InvalidateBlock` does. -/
theorem parkBlock_fields
    (config : Config) (input : WalkInput) (state : ChainState)
    (pindex : CBlockIndex) :
    (parkBlock config input state pindex).1.index =
        (invalidateBlock config input state pindex).1.index ∧
      (parkBlock config input state pindex).1.tip =
        (invalidateBlock config input state pindex).1.tip ∧
      (parkBlock config input state pindex).1.setBlockIndexCandidates =
        (invalidateBlock config input state
          pindex).1.setBlockIndexCandidates ∧
      (parkBlock config input state pindex).1.finalizedBlock =
        (invalidateBlock config input state pindex).1.finalizedBlock ∧
      (parkBlock config input state pindex).1.persistedPin =
        (invalidateBlock config input state pindex).1.persistedPin ∧
      (parkBlock config input state pindex).1.blocksUnlinked =
        (invalidateBlock config input state pindex).1.blocksUnlinked := by
  rw [parkBlock]
  split
  · next failed =>
    rw [failed]
    exact ⟨rfl, rfl, rfl, rfl, rfl, rfl⟩
  · next done =>
    rw [done]
    exact ⟨rfl, rfl, rfl, rfl, rfl, rfl⟩

theorem clearWhere_fields
    (config : Config) (state : ChainState) (selected : CBlockIndex → Bool)
    (change : BlockStatus → BlockStatus) :
    (clearWhere config state selected change).index = state.index ∧
      (clearWhere config state selected change).tip = state.tip ∧
      (clearWhere config state selected change).finalizedBlock =
        state.finalizedBlock ∧
      (clearWhere config state selected change).persistedPin =
        state.persistedPin ∧
      (clearWhere config state selected change).blocksUnlinked =
        state.blocksUnlinked := by
  rw [clearWhere]
  obtain ⟨index, _, tip, finalized, persisted, unlinked⟩ :=
    insertCandidates_fields (state.setStatusWhere selected change)
      (state.index.filter fun block =>
        selected block &&
          ((state.setStatusWhere selected change).entry block).eligible &&
          sortsBefore config (state.setStatusWhere selected change)
            (state.setStatusWhere selected change).tip block)
  exact ⟨index, tip, finalized, persisted, unlinked⟩

theorem status_clearWhere
    (config : Config) (state : ChainState) (selected : CBlockIndex → Bool)
    (change : BlockStatus → BlockStatus) (block : CBlockIndex) :
    (clearWhere config state selected change).status block =
      if block ∈ state.index ∧ selected block then
        change (state.status block)
      else state.status block := by
  rw [← status_setStatusWhere, clearWhere, ChainState.status]
  rw [(insertCandidates_fields _ _).2.1]
  rfl

/-- New candidates are selected blocks better than the tip. -/
theorem mem_candidates_clearWhere
    {config : Config} {state : ChainState} {selected : CBlockIndex → Bool}
    {change : BlockStatus → BlockStatus} {member : CBlockIndex}
    (inside :
      member ∈
        (clearWhere config state selected change).setBlockIndexCandidates) :
    member ∈ state.setBlockIndexCandidates ∨
      member ∈ state.index ∧ selected member = true ∧
        sortsBefore config state state.tip member = true := by
  rw [clearWhere] at inside
  rcases mem_insertCandidates.mp inside with old | added
  · exact Or.inl old
  · obtain ⟨indexed, conditions⟩ := List.mem_filter.mp added
    simp only [Bool.and_eq_true] at conditions
    refine Or.inr ⟨indexed, conditions.1.1, ?_⟩
    rw [← conditions.2]
    have sequence : ∀ block,
        ((state.setStatusWhere selected change).entry block).nSequenceId =
          (state.entry block).nSequenceId := by
      intro block
      rw [ChainState.setStatusWhere]
      simp only []
      split <;> rfl
    rw [sortsBefore, sortsBefore, sequence, sequence]
    rfl

end B3Chain.Node
