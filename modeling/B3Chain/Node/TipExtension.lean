import B3Chain.Node.Finalization

/-!
# Extending the tip

Whether a child of the active tip can be rejected as a deep reorganisation.
The reorganisation rules compare the fork point, which is the tip itself, with
the pin: the child is refused exactly when the pin is higher than the tip.
That happens once an operator command or a restart leaves the pin off the
active chain.
-/

namespace B3Chain.Node

open B3Chain.Chain
open B3Chain.Machine
open B3Chain.Tree

/-! ## The rejection of a child of the tip -/

/-- `BLOCK_DEEP_REORG` is a result of `AcceptBlock` itself and of none of the
checks it calls. -/
def AcceptInput.Ordinary (input : AcceptInput) : Prop :=
  ∀ rejection : Rejection,
    input.checkBlockHeader = some rejection ∨
        input.contextualCheckBlockHeader = some rejection ∨
        input.checkBlock = some rejection ∨
        input.contextualCheckBlock = some rejection →
      rejection.result ≠ .blockDeepReorg

theorem checkNewHeader_result
    {state : ChainState} {parent : CBlockIndex} {input : AcceptInput}
    {rejection : Rejection} (ordinary : input.Ordinary)
    (rejected : checkNewHeader state parent input = some rejection) :
    rejection.result ≠ .blockDeepReorg := by
  rw [checkNewHeader] at rejected
  split at rejected
  · cases rejected
    decide
  · split at rejected
    · cases rejected
      decide
    · split at rejected
      · next other found =>
        rw [rejected] at found
        exact ordinary rejection (Or.inl found)
      · split at rejected
        · next other found =>
          rw [rejected] at found
          exact ordinary rejection (Or.inr (Or.inl found))
        · split at rejected
          · cases rejected
          · cases rejected
            decide

theorem acceptBlockHeader_result
    {state headed : ChainState} {block : CBlockIndex} {input : AcceptInput}
    {rejection : Rejection} (ordinary : input.Ordinary)
    (rejected :
      acceptBlockHeader state block input = (headed, some rejection)) :
    rejection.result ≠ .blockDeepReorg := by
  cases block with
  | root header =>
    rw [acceptBlockHeader] at rejected
    split at rejected
    · cases rejected
      decide
    · split at rejected <;> cases rejected
      decide
  | child parent header =>
    rw [acceptBlockHeader] at rejected
    split at rejected
    · split at rejected <;> cases rejected
      decide
    · split at rejected
      · next other found =>
        cases rejected
        exact checkNewHeader_result ordinary found
      · split at rejected <;> cases rejected
        decide

/-- A deep reorganisation is reported only by the reorganisation rules. -/
theorem checkReorgRules_of_deepReorg
    {config : Config} {state : ChainState} {block : CBlockIndex}
    {input : AcceptInput} {reason : String} (ordinary : input.Ordinary)
    (rejected :
      (acceptBlock config state block input).2 =
        .rejected ⟨.blockDeepReorg, reason⟩) :
    checkReorgRules config state block = some ⟨.blockDeepReorg, reason⟩ := by
  have header := acceptBlockHeader_facts state block input
  rw [acceptBlock] at rejected
  split at rejected
  · next headed rejection refused =>
    cases rejected
    exact absurd rfl (acceptBlockHeader_result ordinary refused)
  · next headed accepted =>
    rw [accepted] at header
    obtain ⟨tip, finalized, _⟩ := header
    rw [acceptBlockBody] at rejected
    split at rejected
    · cases rejected
    · split at rejected
      · cases rejected
      · split at rejected
        · next rejection refused =>
          cases rejected
          rw [checkReorgRules] at refused ⊢
          rw [← tip, ← finalized]
          exact refused
        · split at rejected
          · next rejection found =>
            cases rejected
            refine absurd rfl (ordinary ⟨.blockDeepReorg, reason⟩ ?_)
            rcases Option.or_eq_some_iff.mp found with first | second
            · exact Or.inr (Or.inr (Or.inl first))
            · exact Or.inr (Or.inr (Or.inr second.2))
          · split at rejected <;> cases rejected

/-- The reorganisation rules refuse a child of the tip exactly when the pin is
higher than the tip. -/
theorem checkReorgRules_child_ne_none_iff
    {config : Config} {state : ChainState}
    (cap : 0 < config.params.maxReorgDepth)
    (synced : config.isInitialBlockDownload = false)
    (header : CBlockHeader) :
    checkReorgRules config state (.child state.tip header) ≠ none ↔
      ∃ pin, state.finalizedBlock = some pin ∧
        CBlockIndex.nHeight state.tip < CBlockIndex.nHeight pin := by
  have forked :
      findFork state.tip (.child state.tip header) = some state.tip := by
    rw [findFork_eq]
    exact Branch.lastCommon_of_ge
      (Branch.parent_lt_child state.tip header).le
  rw [checkReorgRules, if_pos ⟨cap, by simp [synced]⟩, forked]
  simp only []
  rw [if_neg (by omega)]
  cases state.finalizedBlock with
  | none => simp
  | some pin =>
    simp only [Option.some.injEq, exists_eq_left']
    split <;> simp_all

/-- No child of the active tip is rejected as a deep reorganisation. -/
def TipExtends (config : Config) (node : NodeState) : Prop :=
  ∀ header input reason, AcceptInput.Ordinary input →
    (acceptBlock config node.chain (.child node.chain.tip header) input).2 ≠
      .rejected ⟨.blockDeepReorg, reason⟩

theorem tipExtends_of_pin_le
    {config : Config} {node : NodeState}
    (cap : 0 < config.params.maxReorgDepth)
    (synced : config.isInitialBlockDownload = false)
    (active : ∀ pin, node.chain.finalizedBlock = some pin →
      pin ≤ node.chain.tip) :
    TipExtends config node := by
  intro header input reason ordinary rejected
  have refused : checkReorgRules config node.chain
      (.child node.chain.tip header) ≠ none := by
    rw [checkReorgRules_of_deepReorg ordinary rejected]
    simp
  obtain ⟨pin, pinned, higher⟩ :=
    (checkReorgRules_child_ne_none_iff cap synced header).mp refused
  have low : CBlockIndex.nHeight pin ≤ CBlockIndex.nHeight node.chain.tip :=
    Branch.height_le_of_le (active pin pinned)
  omega

/-! ## Conditions on the operator -/

instance (pindex pprev tip block : CBlockIndex) :
    Decidable (OnPath pindex pprev tip block) :=
  inferInstanceAs (Decidable (_ ∨ _))

/-- The tips of the walk can be searched in the active chain. -/
instance (config : Config) (before : ChainState)
    (pindex pprev block : CBlockIndex) :
    Decidable (Promoted config before pindex pprev block) :=
  decidable_of_iff
    (block ∈ before.index ∧ (before.entry block).eligible = true ∧
      ∃ tip ∈ branchAbove none before.tip,
        OnPath pindex pprev before.tip tip ∧
          sortsBefore config before block tip = false)
    (by
      constructor
      · rintro ⟨indexed, eligible, tip, _, onPath, better⟩
        exact ⟨indexed, eligible, tip, onPath, better⟩
      · rintro ⟨indexed, eligible, tip, onPath, better⟩
        exact ⟨indexed, eligible, tip, mem_branchAbove_none onPath.le, onPath,
          better⟩)

/-- Invalidating `block` leaves the pin on the active chain: the pin is not
the block or a descendant, and every block that may be promoted on the way
descends from the pin. -/
def AvoidsPin (config : Config) (state : ChainState) (block : CBlockIndex) :
    Prop :=
  ∀ pin ∈ state.finalizedBlock, ¬block ≤ pin ∧
    ∀ pprev ∈ CBlockIndex.pprev block, ∀ other ∈ state.index,
      Promoted config state block pprev other → pin ≤ other

instance (config : Config) (state : ChainState) (block : CBlockIndex) :
    Decidable (AvoidsPin config state block) :=
  inferInstanceAs (Decidable (∀ pin ∈ state.finalizedBlock, _))

/-- What the operator has to respect for the pin to stay on the active chain;
block arrival and activation are free. -/
def KeepsPinActive (config : Config) (node : NodeState) : Event → Prop
  | .finalizeBlock block checkpointConflict persisted =>
    (finalizeBlock node.chain block checkpointConflict persisted).2 = none →
      (∀ candidate ∈ node.chain.setBlockIndexCandidates,
        block ≤ candidate) ∧
        ∀ best ∈ node.abc.cached, block ≤ best
  | .invalidateBlock block _ => AvoidsPin config node.chain block
  | .parkBlock block _ => AvoidsPin config node.chain block
  | .unparkBlock block =>
    ∀ pin ∈ node.chain.finalizedBlock, ∀ other ∈ node.chain.index,
      (node.chain.status other).parked = true →
      comparable block other = true →
      sortsBefore config node.chain node.chain.tip other = true →
        pin ≤ other
  | .resetBlockFailureFlags _ => False
  | .restart coinsTip =>
    ∀ pin ∈ node.chain.persistedPin, pin ∈ node.chain.index →
      pin ≤ coinsTip ∧ ∀ other ∈ node.chain.index,
        (loadedStatus node.chain other).isValid blockValidTransactions =
            true →
        CBlockIndex.nChainWork coinsTip ≤ CBlockIndex.nChainWork other →
          pin ≤ other
  | _ => True

instance (config : Config) (node : NodeState) :
    (event : Event) → Decidable (KeepsPinActive config node event)
  | .finalizeBlock _ _ _ => inferInstanceAs (Decidable (_ → _))
  | .invalidateBlock block _ | .parkBlock block _ =>
    inferInstanceAs (Decidable (AvoidsPin config node.chain block))
  | .unparkBlock _ =>
    inferInstanceAs (Decidable (∀ pin ∈ node.chain.finalizedBlock, _))
  | .resetBlockFailureFlags _ => inferInstanceAs (Decidable False)
  | .restart _ =>
    inferInstanceAs (Decidable (∀ pin ∈ node.chain.persistedPin, _))
  | .acceptBlock _ _ | .activateBestChain | .beginIteration | .pass _
  | .interrupt | .unfinalizeBlock _ => inferInstanceAs (Decidable True)

/-! ## The pin along a run -/

/-- The node grows from a genesis block, and what activation can move to lies
above the pin. -/
structure PinCovered (genesis : CBlockHeader) (node : NodeState) : Prop where
  grounded : Grounded (.root genesis) node
  above : ∀ pin, node.chain.finalizedBlock = some pin →
    Above pin node.chain node.abc.cached

namespace PinCovered

variable {config : Config} {genesis : CBlockHeader} {node : NodeState}

/-- Only these fields of the chain state matter. -/
theorem of_fields
    {before after : ChainState}
    (covered : PinCovered genesis { node with chain := before })
    (index : after.index = before.index) (tip : after.tip = before.tip)
    (candidates :
      after.setBlockIndexCandidates = before.setBlockIndexCandidates)
    (finalized : after.finalizedBlock = before.finalizedBlock)
    (unlinked : after.blocksUnlinked = before.blocksUnlinked) :
    PinCovered genesis { node with chain := after } := by
  obtain ⟨⟨⟨onTip, onCandidates, onCached⟩, onIndex, linked⟩, above⟩ := covered
  refine ⟨⟨⟨?_, ?_, onCached⟩, ?_, ?_⟩, fun pin pinned => ?_⟩
  · rw [← tip] at onTip
    exact onTip
  · rw [← candidates] at onCandidates
    exact onCandidates
  · rw [← index] at onIndex
    exact onIndex
  · intro pair member
    change pair ∈ after.blocksUnlinked at member
    rw [unlinked] at member
    exact linked pair member
  · change after.finalizedBlock = some pin at pinned
    rw [finalized] at pinned
    obtain ⟨pinTip, pinCandidates, pinCached⟩ := above pin pinned
    rw [← tip] at pinTip
    rw [← candidates] at pinCandidates
    exact ⟨pinTip, pinCandidates, pinCached⟩

theorem arrival
    {next : NodeState} {event : Event}
    (cap : 0 < config.params.maxReorgDepth)
    (synced : config.isInitialBlockDownload = false)
    (covered : PinCovered genesis node)
    (taken : ArrivalStep config node event next) :
    PinCovered genesis next := by
  refine ⟨covered.grounded.arrival taken, fun pin pinned => ?_⟩
  have same : next.chain.finalizedBlock = node.chain.finalizedBlock := by
    cases taken with
    | accept block input =>
      exact (acceptBlock_facts config node.chain block input
        covered.grounded.unlinked).admits.finalized
    | phase event abc cached => rfl
    | pass input startingTip cached connected locked =>
      have above := covered.grounded.above
      rw [locked] at above
      exact (above.abcPass config input startingTip connected).2.finalized
  rw [same] at pinned
  have held : Pinned pin node :=
    ⟨covered.above pin pinned, pin, pinned, le_rfl⟩
  exact (held.arrival cap synced covered.grounded taken).above

theorem finalizeBlock
    (covered : PinCovered genesis node) (block : CBlockIndex)
    (checkpointConflict persisted : Bool)
    (condition :
      KeepsPinActive config node
        (.finalizeBlock block checkpointConflict persisted)) :
    PinCovered genesis
      { node with
        chain := (finalizeBlock node.chain block checkpointConflict
          persisted).1 } := by
  refine ⟨covered.grounded.finalizeBlock block checkpointConflict persisted,
    fun pin pinned => ?_⟩
  rcases finalizeBlock_cases node.chain block checkpointConflict persisted
    with ⟨_, same⟩ | ⟨pins, active, _, succeeds⟩
  · rw [same] at pinned ⊢
    exact covered.above pin pinned
  · rw [pins] at pinned ⊢
    obtain rfl := Option.some_inj.mp pinned
    obtain ⟨candidates, cached⟩ := condition succeeds
    exact ⟨active, candidates, cached⟩

theorem unfinalizeBlock
    (covered : PinCovered genesis node) (persisted : Bool) :
    PinCovered genesis
      { node with chain := unfinalizeBlock node.chain persisted } := by
  rw [Node.unfinalizeBlock]
  split
  · exact covered
  · obtain ⟨⟨⟨onTip, onCandidates, onCached⟩, onIndex, linked⟩, _⟩ := covered
    exact ⟨⟨⟨onTip, onCandidates, onCached⟩, onIndex, linked⟩,
      fun pin pinned => nomatch pinned⟩

end PinCovered

/-- The walk does not go below a pin that is not invalidated. -/
theorem pin_le_of_onPath
    {pin block pprev tip member : CBlockIndex}
    (linked : CBlockIndex.pprev block = some pprev) (active : pin ≤ tip)
    (avoided : ¬block ≤ pin) (onPath : OnPath block pprev tip member) :
    pin ≤ member := by
  rcases onPath with rfl | ⟨inChain, above, _⟩
  · exact active
  · have below : pin ≤ pprev := by
      have lower : pin < block := by
        rcases Branch.le_total_of_le active inChain with below | higher
        · exact lt_of_le_of_ne below fun equal => avoided equal.ge
        · exact absurd higher avoided
      cases block with
      | root header => cases linked
      | child parent header =>
        rw [← Option.some_inj.mp linked]
        exact (Branch.lt_child_iff pin parent header).mp lower
    exact le_trans below above

theorem PinCovered.invalidateBlock
    {config : Config} {genesis : CBlockHeader} {node : NodeState}
    (covered : PinCovered genesis node) (input : WalkInput)
    {block : CBlockIndex} (idle : node.abc = .idle)
    (condition : AvoidsPin config node.chain block) :
    PinCovered genesis
      { node with
        chain := (invalidateBlock config input node.chain block).1 } := by
  cases linked : CBlockIndex.pprev block with
  | none =>
    rw [Node.invalidateBlock, linked]
    exact covered
  | some pprev =>
    have retreats := invalidateBlock_retreats config input node.chain linked
    have grounded := covered.grounded
    refine ⟨⟨⟨?_, fun member inside => ?_, fun best found => ?_⟩,
      fun member inside => ?_, fun pair inside => ?_⟩, fun pin pinned => ?_⟩
    · exact Branch.root_le_of_le grounded.above.tip retreats.tip.le
    · rcases retreats.candidates member inside with
        old | onPath | ⟨indexed, _⟩
      · exact grounded.above.candidates member old
      · exact Branch.root_le_of_le grounded.above.tip onPath.le
      · exact grounded.index member indexed
    · rw [idle] at found
      cases found
    · rw [retreats.marks.index] at inside
      exact grounded.index member inside
    · rw [retreats.marks.unlinked] at inside
      exact grounded.unlinked pair inside
    · rw [retreats.marks.finalized] at pinned
      have above := covered.above pin pinned
      obtain ⟨avoided, promoted⟩ := condition pin pinned
      refine ⟨?_, fun member inside => ?_, fun best found => ?_⟩
      · exact pin_le_of_onPath linked above.tip avoided retreats.tip
      · rcases retreats.candidates member inside with
          old | onPath | promotion
        · exact above.candidates member old
        · exact pin_le_of_onPath linked above.tip avoided onPath
        · exact promoted pprev linked member promotion.1 promotion
      · rw [idle] at found
        cases found

theorem PinCovered.parkBlock
    {config : Config} {genesis : CBlockHeader} {node : NodeState}
    (covered : PinCovered genesis node) (input : WalkInput)
    {block : CBlockIndex} (idle : node.abc = .idle)
    (condition : AvoidsPin config node.chain block) :
    PinCovered genesis
      { node with
        chain := (parkBlock config input node.chain block).1 } := by
  obtain ⟨index, tip, candidates, finalized, _, unlinked⟩ :=
    parkBlock_fields config input node.chain block
  exact (covered.invalidateBlock input idle condition).of_fields index tip
    candidates finalized unlinked

theorem PinCovered.unparkBlock
    {config : Config} {genesis : CBlockHeader} {node : NodeState}
    (covered : PinCovered genesis node) {block : CBlockIndex}
    (condition : KeepsPinActive config node (.unparkBlock block)) :
    PinCovered genesis
      { node with chain := unparkBlock config node.chain block } := by
  rw [Node.unparkBlock]
  split
  · obtain ⟨index, tip, finalized, _, unlinked⟩ :=
      clearWhere_fields config node.chain
        (fun other =>
          (node.chain.status other).parked && comparable block other)
        BlockStatus.clearParked
    have grounded := covered.grounded
    refine ⟨⟨⟨?_, fun member inside => ?_, grounded.above.cached⟩,
      fun member inside => ?_, fun pair inside => ?_⟩, fun pin pinned => ?_⟩
    · rw [tip]
      exact grounded.above.tip
    · rcases mem_candidates_clearWhere inside with old | ⟨indexed, _⟩
      · exact grounded.above.candidates member old
      · exact grounded.index member indexed
    · rw [index] at inside
      exact grounded.index member inside
    · rw [unlinked] at inside
      exact grounded.unlinked pair inside
    · rw [finalized] at pinned
      have above := covered.above pin pinned
      refine ⟨?_, fun member inside => ?_, above.cached⟩
      · rw [tip]
        exact above.tip
      · rcases mem_candidates_clearWhere inside with
          old | ⟨indexed, selected, better⟩
        · exact above.candidates member old
        · rw [Bool.and_eq_true] at selected
          exact condition pin pinned member indexed selected.1 selected.2
            better
  · exact covered

/-! ## Restart -/

theorem loadedUnlinked_linked (state : ChainState) :
    ∀ pair ∈ loadedUnlinked state,
      CBlockIndex.pprev pair.2 = some pair.1 := by
  intro pair member
  obtain ⟨block, _, found⟩ := List.mem_filterMap.mp member
  cases linked : CBlockIndex.pprev block with
  | none => simp [linked] at found
  | some parent =>
    simp only [linked] at found
    split at found
    · rw [Option.some_inj] at found
      rw [← found]
      exact linked
    · cases found

/-- The candidates after a restart are loaded as valid and have at least the
work of the tip. -/
theorem mem_candidates_restart
    {config : Config} {state : ChainState} {coinsTip member : CBlockIndex}
    (inside :
      member ∈ (restart config state coinsTip).setBlockIndexCandidates) :
    member ∈ state.index ∧
      (loadedStatus state member).isValid blockValidTransactions = true ∧
      CBlockIndex.nChainWork coinsTip ≤ CBlockIndex.nChainWork member := by
  rw [restart] at inside
  obtain ⟨loaded, better⟩ := List.mem_filter.mp inside
  obtain ⟨indexed, valid⟩ := List.mem_filter.mp loaded
  rw [Bool.and_eq_true] at valid
  refine ⟨indexed, valid.1, ?_⟩
  by_contra less
  have worse :
      CBlockIndex.nChainWork member < CBlockIndex.nChainWork coinsTip :=
    Nat.lt_of_not_le less
  have sorted : ∀ loadedState : ChainState,
      sortsBefore config loadedState member coinsTip = true := by
    intro loadedState
    rw [sortsBefore, if_neg (by omega), if_pos worse]
  rw [sorted] at better
  cases better

theorem PinCovered.restart
    {config : Config} {genesis : CBlockHeader} {node : NodeState}
    (covered : PinCovered genesis node) {coinsTip : CBlockIndex}
    (indexed : coinsTip ∈ node.chain.index)
    (condition : KeepsPinActive config node (.restart coinsTip)) :
    PinCovered genesis
      { node with
        chain := restart config node.chain coinsTip
        abc := .idle } := by
  have grounded := covered.grounded
  refine ⟨⟨⟨grounded.index coinsTip indexed, fun member inside => ?_,
    fun best found => nomatch found⟩, grounded.index,
    loadedUnlinked_linked node.chain⟩, fun pin pinned => ?_⟩
  · exact grounded.index member (mem_candidates_restart inside).1
  · obtain ⟨stored, known⟩ := Option.filter_eq_some_iff.mp pinned
    obtain ⟨active, others⟩ :=
      condition pin stored (of_decide_eq_true known)
    refine ⟨active, fun member inside => ?_, fun best found => nomatch found⟩
    obtain ⟨memberIndexed, valid, better⟩ := mem_candidates_restart inside
    exact others member memberIndexed valid better

/-! ## Every run -/

theorem PinCovered.step
    {config : Config} {genesis : CBlockHeader} {node next : NodeState}
    {event : Event}
    (cap : 0 < config.params.maxReorgDepth)
    (synced : config.isInitialBlockDownload = false)
    (covered : PinCovered genesis node)
    (condition : KeepsPinActive config node event)
    (taken : step config node event = some next) :
    PinCovered genesis next := by
  cases event with
  | acceptBlock | activateBestChain | beginIteration | pass | interrupt =>
    exact covered.arrival cap synced (arrivalStep_of_step rfl taken)
  | finalizeBlock block checkpointConflict persisted =>
    rw [Node.step] at taken
    obtain ⟨-, rfl⟩ := underMain_eq_some taken
    exact covered.finalizeBlock block checkpointConflict persisted condition
  | unfinalizeBlock persisted =>
    rw [Node.step] at taken
    obtain ⟨-, rfl⟩ := underMain_eq_some taken
    exact covered.unfinalizeBlock persisted
  | invalidateBlock block input =>
    rw [Node.step] at taken
    obtain ⟨⟨idle, -⟩, rfl⟩ := underMutex_eq_some taken
    exact covered.invalidateBlock input idle condition
  | parkBlock block input =>
    rw [Node.step] at taken
    obtain ⟨⟨idle, -⟩, rfl⟩ := underMutex_eq_some taken
    exact covered.parkBlock input idle condition
  | unparkBlock block =>
    rw [Node.step] at taken
    obtain ⟨-, rfl⟩ := underMain_eq_some taken
    -- A block that is not indexed is refused before the command does anything.
    split
    · exact covered.unparkBlock condition
    · exact covered
  | resetBlockFailureFlags block => cases condition
  | restart coinsTip =>
    rw [Node.step] at taken
    split at taken
    · next indexed =>
      rw [Option.some_inj] at taken
      rw [← taken]
      exact covered.restart indexed condition
    · cases taken

/-- In every run in which each operator command and each restart keeps the pin
on the active chain, no child of the tip is rejected as a deep
reorganisation. -/
theorem tip_extends_while_pin_active
    (config : Config) (genesis : CBlockHeader) (start final : NodeState)
    (events : List Event)
    (cap : 0 < config.params.maxReorgDepth)
    (synced : config.isInitialBlockDownload = false)
    (grounded : Grounded (.root genesis) start)
    (unpinned : start.chain.finalizedBlock = none)
    (respected :
      Along (Node.step config) (KeepsPinActive config) start events)
    (taken : run (Node.step config) start events = some final) :
    TipExtends config final := by
  have started : PinCovered genesis start :=
    ⟨grounded, fun pin pinned => by rw [unpinned] at pinned; cases pinned⟩
  have kept :
      ∀ node event next, PinCovered genesis node →
        KeepsPinActive config node event →
        Node.step config node event = some next →
          PinCovered genesis next :=
    fun node event next covered condition steps =>
      covered.step cap synced condition steps
  have ended := run_invariant kept started respected taken
  exact tipExtends_of_pin_le cap synced fun pin pinned =>
    (ended.above pin pinned).tip

/-- The second block is pinned, the third arrives and is connected, and then it
is invalidated again; after a restart the pin is restored. -/
def invalidateAbovePinEvents : List Event :=
  [.finalizeBlock (line firstBlock 1 2) false true,
    .acceptBlock (line firstBlock 1 3) validBlock, .activateBestChain,
    .beginIteration, .pass connectAll,
    .invalidateBlock (line firstBlock 1 3) walkFreely,
    .restart (line firstBlock 1 2)]

theorem tip_extends_after_invalidating_above_pin :
    ∃ final,
      run (Node.step mainConfig) secondBlockNode invalidateAbovePinEvents =
          some final ∧
        TipExtends mainConfig final := by
  obtain ⟨final, taken⟩ :=
    Option.isSome_iff_exists.mp
      (show (run (Node.step mainConfig) secondBlockNode
        invalidateAbovePinEvents).isSome = true by decide +kernel)
  exact ⟨final, taken,
    tip_extends_while_pin_active mainConfig _ secondBlockNode final _
      (by decide) rfl grounded_secondBlockNode rfl (by decide +kernel) taken⟩

/-- The pinned tip is invalidated; the next block on the new tip is then
rejected as a reorganisation past the pin. -/
theorem invalidated_pin_blocks_tip :
    ((run (Node.step mainConfig) secondBlockNode
      [.finalizeBlock (line firstBlock 1 2) false true,
        .invalidateBlock (line firstBlock 1 2) walkFreely,
        .activateBestChain, .beginIteration, .pass connectAll]).map
      fun node =>
        (decide (node.chain.tip = line firstBlock 1 1),
          (acceptBlock mainConfig node.chain
            (.child node.chain.tip (Branch.label (line firstBlock 3 2)))
            validBlock).2)) =
      some (true,
        .rejected ⟨.blockDeepReorg, "reorg-past-finalized"⟩) := by
  decide +kernel

end B3Chain.Node
