import B3Chain.Node.ActivationEffect

/-!
# Accepting blocks

`AcceptBlockHeader`, `AcceptBlock` and `ReceivedBlockTransactions`.  The checks
that do not depend on the block index (proof of work, header context, block
contents) enter as verdicts of one call; the reorganisation cap and the
operator's pin are evaluated here as in the source.
-/

namespace B3Chain.Node

open B3Chain.Chain
open B3Chain.Tree

/-- The result and the reject reason given to `state.Invalid`. -/
structure Rejection where
  result : BlockValidationResult
  reason : String
deriving DecidableEq, Repr

/-- The outside of one `AcceptBlock` call; `none` is a passed check. -/
structure AcceptInput where
  checkBlockHeader : Option Rejection
  contextualCheckBlockHeader : Option Rejection
  matchesCheckpoints : Bool
  minPowChecked : Bool
  fRequested : Bool
  checkBlock : Option Rejection
  contextualCheckBlock : Option Rejection
  /-- The block could be written to disk. -/
  diskOk : Bool
  /-- `block.vtx.size()`. -/
  vtxSize : Nat

/-- How an `AcceptBlock` call ends. -/
inductive AcceptOutcome where
  | rejected (rejection : Rejection)
  /-- It returns true without storing the block. -/
  | ignored
  | stored
  | systemError
deriving DecidableEq, Repr

/-! ## Headers -/

/-- `AddToBlockIndex`. -/
def addToBlockIndex (state : ChainState) (block : CBlockIndex) :
    ChainState :=
  if block ∈ state.index then state
  else
    { state with
      index := block :: state.index
      entry := Function.update state.entry block Entry.fresh }

/-- The checks of `AcceptBlockHeader` on a header that is not yet indexed. -/
def checkNewHeader (state : ChainState) (parent : CBlockIndex)
    (input : AcceptInput) : Option Rejection :=
  if parent ∉ state.index then
    some ⟨.blockMissingPrev, "prev-blk-not-found"⟩
  else if (state.status parent).failed then
    some ⟨.blockInvalidPrev, "bad-prevblk"⟩
  else
    match input.checkBlockHeader with
    | some rejection => some rejection
    | none =>
      match input.contextualCheckBlockHeader with
      | some rejection => some rejection
      | none =>
        if input.matchesCheckpoints then none
        else some ⟨.blockCheckpoint, "checkpoint-mismatch"⟩

/-- The rejection of a header without its anti-DoS work check. -/
def tooLittleChainwork : Rejection :=
  ⟨.blockHeaderLowWork, "too-little-chainwork"⟩

/-- `AcceptBlockHeader`: the new state, and why the header was rejected. -/
def acceptBlockHeader (state : ChainState) (block : CBlockIndex)
    (input : AcceptInput) : ChainState × Option Rejection :=
  match block with
  | .root header =>
    if .root header ∉ state.index then
      (state, some ⟨.blockMissingPrev, "prev-blk-not-found"⟩)
    else if input.minPowChecked then (state, none)
    else (state, some tooLittleChainwork)
  | .child parent header =>
    if .child parent header ∈ state.index then
      if (state.status (.child parent header)).failed then
        (state, some ⟨.blockCachedInvalid, "duplicate-invalid"⟩)
      else (state, none)
    else
      match checkNewHeader state parent input with
      | some rejection => (state, some rejection)
      | none =>
        if input.minPowChecked then
          (addToBlockIndex state (.child parent header), none)
        else (state, some tooLittleChainwork)

/-! ## The reorganisation rules -/

def minBlocksToKeep : Nat := 288

/-- The cap on the reorganisation depth and the operator's pin, as `AcceptBlock`
checks them against the current tip. -/
def checkReorgRules (config : Config) (state : ChainState)
    (block : CBlockIndex) : Option Rejection :=
  if config.params.maxReorgDepth > 0 ∧ !config.isInitialBlockDownload then
    match findFork state.tip block with
    | none => none
    | some fork =>
      if CBlockIndex.nHeight fork + config.params.maxReorgDepth <
          CBlockIndex.nHeight state.tip then
        some ⟨.blockDeepReorg, "deep-reorg-attempt"⟩
      else
        match state.finalizedBlock with
        | none => none
        | some finalized =>
          if CBlockIndex.nHeight fork < CBlockIndex.nHeight finalized then
            some ⟨.blockDeepReorg, "reorg-past-finalized"⟩
          else none
  else none

/-! ## Linking received blocks -/

/-- `prev_tx_sum`. -/
def prevTxSum (state : ChainState) (block : CBlockIndex) : Nat :=
  (state.entry block).nTx +
    match CBlockIndex.pprev block with
    | none => 0
    | some parent => (state.entry parent).chainTxCount

/-- The body of the queue loop: the block gets its transaction count and its
sequence number, and is offered as a candidate. -/
def linkBlock (config : Config) (state : ChainState) (block : CBlockIndex) :
    ChainState :=
  let counted :=
    { state with
      entry := Function.update state.entry block
        { state.entry block with
          chainTxCount := prevTxSum state block
          nSequenceId := state.nBlockSequenceId }
      nBlockSequenceId := state.nBlockSequenceId + 1 }
  let offered := tryAddBlockIndexCandidate config counted block
  { offered with
    blocksUnlinked := offered.blocksUnlinked.filter fun pair =>
      pair.1 ≠ block }

/-- The blocks that wait for a parent. -/
def waitingChildren (state : ChainState) (block : CBlockIndex) :
    List CBlockIndex :=
  (state.blocksUnlinked.filter fun pair => pair.1 = block).map Prod.snd

/-- The queue loop of `ReceivedBlockTransactions`.  Each block after the first
comes from an unlinked pair that is removed, so the number of pairs bounds the
rounds. -/
def linkQueue (config : Config) :
    Nat → List CBlockIndex → ChainState → ChainState
  | 0, _, state => state
  | _ + 1, [], state => state
  | rounds + 1, block :: queue, state =>
    linkQueue config rounds (queue ++ waitingChildren state block)
      (linkBlock config state block)

/-- The entry of a block whose data have arrived. -/
def receivedEntry (state : ChainState) (block : CBlockIndex)
    (vtxSize : Nat) : Entry :=
  let entry := { state.entry block with nTx := vtxSize }
  let expected := prevTxSum
    { state with entry := Function.update state.entry block entry } block
  { entry with
    chainTxCount :=
      if entry.chainTxCount = 0 ∨ entry.chainTxCount = expected then
        entry.chainTxCount
      else 0
    status :=
      { entry.status with haveData := true }.raiseValidity
        blockValidTransactions }

/-- `ReceivedBlockTransactions`. -/
def receivedBlockTransactions (config : Config) (state : ChainState)
    (block : CBlockIndex) (vtxSize : Nat) : ChainState :=
  let received :=
    { state with
      entry := Function.update state.entry block
        (receivedEntry state block vtxSize) }
  match CBlockIndex.pprev block with
  | none =>
    linkQueue config (received.blocksUnlinked.length + 1) [block] received
  | some parent =>
    if (received.entry parent).haveNumChainTxs then
      linkQueue config (received.blocksUnlinked.length + 1) [block]
        received
    else if (received.status parent).isValid blockValidTree then
      { received with
        blocksUnlinked := received.blocksUnlinked ++ [(parent, block)] }
    else received

/-! ## Accepting a block -/

/-- An unrequested block that `AcceptBlock` does not process. -/
def skipsUnrequested (config : Config) (state : ChainState)
    (block : CBlockIndex) : Bool :=
  decide ((state.entry block).nTx ≠ 0) ||
    decide (CBlockIndex.nChainWork block <
      CBlockIndex.nChainWork state.tip) ||
    decide (CBlockIndex.nHeight block >
      CBlockIndex.nHeight state.tip + minBlocksToKeep) ||
    decide (CBlockIndex.nChainWork block < config.minimumChainWork)

/-- The part of `AcceptBlock` after the header has been accepted. -/
def acceptBlockBody (config : Config) (state : ChainState)
    (block : CBlockIndex) (input : AcceptInput) :
    ChainState × AcceptOutcome :=
  if (state.status block).haveData then (state, .ignored)
  else if !input.fRequested && skipsUnrequested config state block then
    (state, .ignored)
  else
    match checkReorgRules config state block with
    | some rejection => (state, .rejected rejection)
    | none =>
      match input.checkBlock.or input.contextualCheckBlock with
      | some rejection =>
        (invalidBlockFound state block rejection.result,
          .rejected rejection)
      | none =>
        if input.diskOk then
          (receivedBlockTransactions config state block input.vtxSize,
            .stored)
        else (state, .systemError)

/-- `AcceptBlock`. -/
def acceptBlock (config : Config) (state : ChainState) (block : CBlockIndex)
    (input : AcceptInput) : ChainState × AcceptOutcome :=
  match acceptBlockHeader state block input with
  | (headed, some rejection) => (headed, .rejected rejection)
  | (headed, none) => acceptBlockBody config headed block input

/-! ## What acceptance can do -/

/-- The effect of an `AcceptBlock` call for `block`. -/
structure Admits (block : CBlockIndex) (before after : ChainState) :
    Prop where
  tip : after.tip = before.tip
  finalized : after.finalizedBlock = before.finalizedBlock
  persisted : after.persistedPin = before.persistedPin
  index : ∀ member ∈ after.index, member ∈ before.index ∨
    member = block ∧ ∃ parent ∈ before.index,
      CBlockIndex.pprev block = some parent
  candidates : ∀ member ∈ after.setBlockIndexCandidates,
    member ∈ before.setBlockIndexCandidates ∨ block ≤ member
  unlinked : ∀ pair ∈ after.blocksUnlinked,
    pair ∈ before.blocksUnlinked ∨ CBlockIndex.pprev pair.2 = some pair.1

/-- The unlinked pairs are a parent and its child. -/
def UnlinkedLinked (state : ChainState) : Prop :=
  ∀ pair ∈ state.blocksUnlinked, CBlockIndex.pprev pair.2 = some pair.1

theorem lt_of_pprev
    {block parent : CBlockIndex}
    (linked : CBlockIndex.pprev block = some parent) :
    parent < block := by
  cases block with
  | root header => cases linked
  | child actual header =>
    obtain rfl : actual = parent := by
      simpa [CBlockIndex.pprev, Branch.parent?] using linked
    exact Branch.parent_lt_child actual header

theorem linkBlock_facts
    (config : Config) (state : ChainState) (block : CBlockIndex) :
    (linkBlock config state block).tip = state.tip ∧
      (linkBlock config state block).finalizedBlock =
        state.finalizedBlock ∧
      (linkBlock config state block).persistedPin = state.persistedPin ∧
      (linkBlock config state block).index = state.index ∧
      (∀ member ∈ (linkBlock config state block).setBlockIndexCandidates,
        member ∈ state.setBlockIndexCandidates ∨ member = block) ∧
      ∀ pair ∈ (linkBlock config state block).blocksUnlinked,
        pair ∈ state.blocksUnlinked := by
  rw [linkBlock]
  simp only [tryAddBlockIndexCandidate]
  split_ifs
  · exact ⟨rfl, rfl, rfl, rfl, fun _ member => Or.inl member,
      fun _ member => (List.mem_filter.mp member).1⟩
  · refine ⟨rfl, rfl, rfl, rfl, fun member inside => ?_,
      fun _ member => (List.mem_filter.mp member).1⟩
    exact (List.mem_insert_iff.mp inside).symm

/-- Linking leaves the index, the tip and the flags alone. -/
theorem linkQueue_keeps
    (config : Config) (rounds : Nat) (queue : List CBlockIndex)
    (state : ChainState) :
    (linkQueue config rounds queue state).index = state.index ∧
      (linkQueue config rounds queue state).tip = state.tip ∧
      ∀ block, (linkQueue config rounds queue state).status block =
        state.status block := by
  induction rounds generalizing queue state with
  | zero => exact ⟨rfl, rfl, fun _ => rfl⟩
  | succ rounds induction =>
    cases queue with
    | nil => exact ⟨rfl, rfl, fun _ => rfl⟩
    | cons first rest =>
      obtain ⟨tip, _, _, index, _⟩ := linkBlock_facts config state first
      obtain ⟨laterIndex, laterTip, status⟩ :=
        induction (rest ++ waitingChildren state first)
          (linkBlock config state first)
      refine ⟨laterIndex.trans index, laterTip.trans tip,
        fun block => (status block).trans ?_⟩
      rw [linkBlock]
      simp only [tryAddBlockIndexCandidate]
      rcases eq_or_ne block first with rfl | different
      · split_ifs <;>
          simp [ChainState.status, ChainState.insertCandidate]
      · split_ifs <;>
          simp [ChainState.status, ChainState.insertCandidate, different]

/-- Linking offers only descendants of the queued blocks. -/
theorem linkQueue_facts
    (config : Config) (block : CBlockIndex) (rounds : Nat)
    (queue : List CBlockIndex) (state : ChainState)
    (linked : UnlinkedLinked state)
    (queued : ∀ member ∈ queue, block ≤ member) :
    (linkQueue config rounds queue state).tip = state.tip ∧
      (linkQueue config rounds queue state).finalizedBlock =
        state.finalizedBlock ∧
      (linkQueue config rounds queue state).persistedPin =
        state.persistedPin ∧
      (linkQueue config rounds queue state).index = state.index ∧
      (∀ member ∈
          (linkQueue config rounds queue state).setBlockIndexCandidates,
        member ∈ state.setBlockIndexCandidates ∨ block ≤ member) ∧
      ∀ pair ∈ (linkQueue config rounds queue state).blocksUnlinked,
        pair ∈ state.blocksUnlinked := by
  induction rounds generalizing queue state with
  | zero =>
    exact ⟨rfl, rfl, rfl, rfl, fun _ member => Or.inl member,
      fun _ member => member⟩
  | succ rounds induction =>
    cases queue with
    | nil =>
      exact ⟨rfl, rfl, rfl, rfl, fun _ member => Or.inl member,
        fun _ member => member⟩
    | cons first rest =>
      have firstAbove : block ≤ first := queued first List.mem_cons_self
      obtain ⟨tip, finalized, persisted, index, candidates, unlinked⟩ :=
        linkBlock_facts config state first
      have stillLinked : UnlinkedLinked (linkBlock config state first) :=
        fun pair member => linked pair (unlinked pair member)
      have stillQueued :
          ∀ member ∈ rest ++ waitingChildren state first,
            block ≤ member := by
        intro member inside
        rcases List.mem_append.mp inside with old | waiting
        · exact queued member (List.mem_cons_of_mem first old)
        · obtain ⟨pair, filtered, rfl⟩ := List.mem_map.mp waiting
          obtain ⟨inPairs, key⟩ := List.mem_filter.mp filtered
          have child := linked pair inPairs
          rw [of_decide_eq_true key] at child
          exact le_trans firstAbove (lt_of_pprev child).le
      obtain ⟨tip', finalized', persisted', index', candidates',
        unlinked'⟩ :=
        induction (rest ++ waitingChildren state first)
          (linkBlock config state first) stillLinked stillQueued
      refine ⟨tip'.trans tip, finalized'.trans finalized,
        persisted'.trans persisted, index'.trans index,
        fun member inside => ?_, fun pair inside =>
          unlinked pair (unlinked' pair inside)⟩
      rcases candidates' member inside with earlier | above
      · rcases candidates member earlier with old | rfl
        · exact Or.inl old
        · exact Or.inr firstAbove
      · exact Or.inr above

theorem receivedBlockTransactions_admits
    (config : Config) (state : ChainState) (block : CBlockIndex)
    (vtxSize : Nat) (linked : UnlinkedLinked state) :
    Admits block state
        (receivedBlockTransactions config state block vtxSize) ∧
      (receivedBlockTransactions config state block vtxSize).index =
        state.index := by
  have queue :=
    linkQueue_facts config block (state.blocksUnlinked.length + 1) [block]
      { state with
        entry := Function.update state.entry block
          (receivedEntry state block vtxSize) }
      linked (fun member inside => by rw [List.mem_singleton.mp inside])
  obtain ⟨tip, finalized, persisted, index, candidates, unlinked⟩ := queue
  have admitted :
      Admits block state
        (linkQueue config (state.blocksUnlinked.length + 1) [block]
          { state with
            entry := Function.update state.entry block
              (receivedEntry state block vtxSize) }) :=
    ⟨tip, finalized, persisted,
      fun member inside => Or.inl (by rw [index] at inside; exact inside),
      candidates, fun pair inside => Or.inl (unlinked pair inside)⟩
  rw [receivedBlockTransactions]
  split
  · exact ⟨admitted, index⟩
  · next parent found =>
    simp only []
    split_ifs
    · exact ⟨admitted, index⟩
    · refine ⟨⟨rfl, rfl, rfl, fun _ inside => Or.inl inside,
        fun _ inside => Or.inl inside, fun pair inside => ?_⟩, rfl⟩
      rcases List.mem_append.mp inside with old | added
      · exact Or.inl old
      · rw [List.mem_singleton.mp added]
        exact Or.inr found
    · exact ⟨⟨rfl, rfl, rfl, fun _ inside => Or.inl inside,
        fun _ inside => Or.inl inside, fun _ inside => Or.inl inside⟩, rfl⟩

theorem Admits.of_weakens
    {before after : ChainState} (weakens : Weakens before after)
    (tip : after.tip = before.tip) (block : CBlockIndex) :
    Admits block before after :=
  ⟨tip, weakens.finalized, weakens.persisted,
    fun _ inside => Or.inl (by rw [weakens.index] at inside; exact inside),
    fun member inside => Or.inl (weakens.candidates member inside),
    fun pair inside => (weakens.unlinked pair inside).imp_right And.left⟩

/-- A new header that passes its checks has an indexed parent. -/
theorem checkNewHeader_passed
    {state : ChainState} {parent : CBlockIndex} {input : AcceptInput}
    (passed : checkNewHeader state parent input = none) :
    parent ∈ state.index ∧ input.checkBlockHeader = none ∧
      input.matchesCheckpoints = true := by
  rw [checkNewHeader] at passed
  split at passed
  · cases passed
  · next known =>
    split at passed
    · cases passed
    · split at passed
      · cases passed
      · next checked =>
        split at passed
        · cases passed
        · split at passed
          · next matching => exact ⟨not_not.mp known, checked, matching⟩
          · cases passed

/-- Accepting a header changes nothing, or adds a new header that has passed
its checks. -/
theorem acceptBlockHeader_cases
    (state : ChainState) (block : CBlockIndex) (input : AcceptInput) :
    (acceptBlockHeader state block input).1 = state ∨
      ∃ parent header, block = .child parent header ∧
        block ∉ state.index ∧ checkNewHeader state parent input = none ∧
        (acceptBlockHeader state block input).1 =
          addToBlockIndex state block := by
  cases block with
  | root header =>
    rw [acceptBlockHeader]
    split
    · exact Or.inl rfl
    · split <;> exact Or.inl rfl
  | child parent header =>
    rw [acceptBlockHeader]
    split
    · split <;> exact Or.inl rfl
    · next unknown =>
      split
      · exact Or.inl rfl
      · next passed =>
        split
        · exact Or.inr ⟨parent, header, rfl, unknown, passed, rfl⟩
        · exact Or.inl rfl

/-- Accepting a header leaves everything but the index as it was. -/
theorem acceptBlockHeader_facts
    (state : ChainState) (block : CBlockIndex) (input : AcceptInput) :
    (acceptBlockHeader state block input).1.tip = state.tip ∧
      (acceptBlockHeader state block input).1.finalizedBlock =
        state.finalizedBlock ∧
      (acceptBlockHeader state block input).1.persistedPin =
        state.persistedPin ∧
      (acceptBlockHeader state block input).1.setBlockIndexCandidates =
        state.setBlockIndexCandidates ∧
      (acceptBlockHeader state block input).1.blocksUnlinked =
        state.blocksUnlinked ∧
      ∀ member ∈ (acceptBlockHeader state block input).1.index,
        member ∈ state.index ∨
          member = block ∧ ∃ parent ∈ state.index,
            CBlockIndex.pprev block = some parent := by
  rcases acceptBlockHeader_cases state block input with
    same | ⟨parent, header, rfl, unknown, passed, added⟩
  · rw [same]
    exact ⟨rfl, rfl, rfl, rfl, rfl, fun _ inside => Or.inl inside⟩
  · rw [added, addToBlockIndex, if_neg unknown]
    refine ⟨rfl, rfl, rfl, rfl, rfl, fun member inside => ?_⟩
    rcases List.mem_cons.mp inside with rfl | old
    · exact Or.inr ⟨rfl, parent, (checkNewHeader_passed passed).1, rfl⟩
    · exact Or.inl old

/-- What a call for `block` may do to the rest of the state: only a stored
block adds candidates, and it has passed the reorganisation rules. -/
structure AcceptFacts (config : Config) (block : CBlockIndex)
    (before after : ChainState) (outcome : AcceptOutcome) : Prop where
  admits : Admits block before after
  rules : outcome = .stored → checkReorgRules config before block = none
  indexed : outcome = .stored → block ∈ after.index
  kept : outcome ≠ .stored → ∀ member ∈ after.setBlockIndexCandidates,
    member ∈ before.setBlockIndexCandidates

theorem AcceptFacts.of_weakens
    (config : Config) (block : CBlockIndex) {before after : ChainState}
    {outcome : AcceptOutcome} (weakens : Weakens before after)
    (tip : after.tip = before.tip) (other : outcome ≠ .stored) :
    AcceptFacts config block before after outcome where
  admits := Admits.of_weakens weakens tip block
  rules stored := absurd stored other
  indexed stored := absurd stored other
  kept _ := weakens.candidates

/-- Once the header is in, a block is ignored, rejected by one of the checks,
or stored after the reorganisation rules have passed. -/
theorem acceptBlockBody_facts
    (config : Config) (state : ChainState) (block : CBlockIndex)
    (input : AcceptInput) (linked : UnlinkedLinked state)
    (indexed : block ∈ state.index) :
    AcceptFacts config block state
      (acceptBlockBody config state block input).1
      (acceptBlockBody config state block input).2 := by
  have unchanged :
      ∀ outcome, outcome ≠ .stored →
        AcceptFacts config block state state outcome :=
    fun outcome other =>
      AcceptFacts.of_weakens config block (Weakens.refl state) rfl other
  unfold acceptBlockBody
  split
  · exact unchanged _ (by simp)
  · split
    · exact unchanged _ (by simp)
    · split
      · exact unchanged _ (by simp)
      · next passed =>
        split
        · next rejection found =>
          exact AcceptFacts.of_weakens config block
            (Weakens.invalidBlockFound state block rejection.result)
            (tip_invalidBlockFound state block rejection.result) (by simp)
        · split
          · have received :=
              receivedBlockTransactions_admits config state block
                input.vtxSize linked
            exact ⟨received.1, fun _ => passed,
              fun _ => received.2.symm ▸ indexed, fun other => absurd rfl other⟩
          · exact unchanged _ (by simp)

/-- An accepted header is in the index. -/
theorem mem_index_of_acceptBlockHeader
    {state headed : ChainState} {block : CBlockIndex} {input : AcceptInput}
    (accepted : acceptBlockHeader state block input = (headed, none)) :
    block ∈ headed.index := by
  cases block with
  | root header =>
    rw [acceptBlockHeader] at accepted
    split at accepted
    · cases accepted
    · next known =>
      split at accepted
      · cases accepted
        exact not_not.mp known
      · cases accepted
  | child parent header =>
    rw [acceptBlockHeader] at accepted
    split at accepted
    · next known =>
      split at accepted
      · cases accepted
      · cases accepted
        exact known
    · next unknown =>
      split at accepted
      · cases accepted
      · split at accepted
        · cases accepted
          rw [addToBlockIndex, if_neg unknown]
          exact List.mem_cons_self
        · cases accepted

/-- The effect of `AcceptBlock`: only a block that passed the reorganisation
rules can add candidates, and it adds only itself and its descendants. -/
theorem acceptBlock_facts
    (config : Config) (state : ChainState) (block : CBlockIndex)
    (input : AcceptInput) (linked : UnlinkedLinked state) :
    AcceptFacts config block state
      (acceptBlock config state block input).1
      (acceptBlock config state block input).2 := by
  obtain ⟨tip, finalized, persisted, candidates, unlinked, index⟩ :=
    acceptBlockHeader_facts state block input
  rw [acceptBlock]
  split
  · next headed rejection header =>
    rw [header] at tip finalized persisted candidates unlinked index
    refine ⟨⟨tip, finalized, persisted, index, ?_, ?_⟩, ?_, ?_, ?_⟩
    · intro member inside
      rw [candidates] at inside
      exact Or.inl inside
    · intro pair inside
      rw [unlinked] at inside
      exact Or.inl inside
    · exact fun stored => nomatch stored
    · exact fun stored => nomatch stored
    · intro _ member inside
      rwa [candidates] at inside
  · next headed header =>
    have known := mem_index_of_acceptBlockHeader header
    rw [header] at tip finalized persisted candidates unlinked index
    have headedLinked : UnlinkedLinked headed := by
      intro pair inside
      rw [unlinked] at inside
      exact linked pair inside
    have body := acceptBlockBody_facts config headed block input
      headedLinked known
    refine ⟨⟨body.admits.tip.trans tip, body.admits.finalized.trans finalized,
      body.admits.persisted.trans persisted, ?_, ?_, ?_⟩, ?_, body.indexed, ?_⟩
    · intro member inside
      rcases body.admits.index member inside with
        old | ⟨rfl, parent, inHeaded, child⟩
      · exact index member old
      · exact index member known
    · intro member inside
      rw [← candidates]
      exact body.admits.candidates member inside
    · intro pair inside
      rw [← unlinked]
      exact body.admits.unlinked pair inside
    · intro stored
      have rules := body.rules stored
      rw [checkReorgRules] at rules ⊢
      rw [← tip, ← finalized]
      exact rules
    · intro other member inside
      rw [← candidates]
      exact body.kept other member inside

end B3Chain.Node
