import B3Chain.Node.FlagDiscovery

/-!
# Who is given `BLOCK_FAILED_VALID`

`Condemned` is an indexed block with `BLOCK_FAILED_VALID`.  Activation condemns
only blocks that `ConnectBlock` has rejected, and an `AcceptBlock` call condemns
its own block exactly when it reaches `CheckBlock` and one of the checks rejects
the block as something other than mutated.
-/

namespace B3Chain.Node

open B3Chain.Chain
open B3Chain.Tree

/-- The block is in the index with `BLOCK_FAILED_VALID`. -/
def Condemned (state : ChainState) (block : CBlockIndex) : Prop :=
  block ∈ state.index ∧ (state.status block).failedValid = true

instance (state : ChainState) (block : CBlockIndex) :
    Decidable (Condemned state block) :=
  inferInstanceAs (Decidable (_ ∧ _))

/-- Every newly condemned block is a rejected one. -/
def Condemns (rejected : CBlockIndex → Prop) (before after : ChainState) :
    Prop :=
  ∀ block, Condemned after block → Condemned before block ∨ rejected block

namespace Condemns

variable {rejected : CBlockIndex → Prop}

theorem of_discovers {ready : Prop} {before after : ChainState}
    (discovers : Discovers ready rejected before after) :
    Condemns rejected before after := by
  rintro block ⟨indexed, flagged⟩
  rw [discovers.index] at indexed
  exact (discovers.found block flagged).imp_left fun before =>
    ⟨indexed, before⟩

protected theorem refl (state : ChainState) :
    Condemns rejected state state :=
  fun _ condemned => Or.inl condemned

protected theorem trans
    {first second third : ChainState}
    (left : Condemns rejected first second)
    (right : Condemns rejected second third) :
    Condemns rejected first third := by
  intro block condemned
  rcases right block condemned with earlier | refused
  · exact left block earlier
  · exact Or.inr refused

end Condemns

/-! ## Accepting -/

/-- The state changes no `BLOCK_FAILED_VALID` of an indexed block. -/
theorem condemned_iff_of_flags
    {before after : ChainState} (index : after.index = before.index)
    (flags : ∀ block, (after.status block).failedValid =
      (before.status block).failedValid) (block : CBlockIndex) :
    Condemned after block ↔ Condemned before block := by
  rw [Condemned, Condemned, index, flags]

/-- A new entry starts without failure flags. -/
theorem condemned_acceptBlockHeader
    (state : ChainState) (block other : CBlockIndex) (input : AcceptInput) :
    Condemned (acceptBlockHeader state block input).1 other ↔
      Condemned state other := by
  rcases acceptBlockHeader_cases state block input with
    same | ⟨parent, header, rfl, unknown, -, added⟩
  · rw [same]
  · rw [added, addToBlockIndex, if_neg unknown, Condemned, Condemned]
    rcases eq_or_ne other (.child parent header) with rfl | different
    · simp [ChainState.status, Entry.fresh, unknown]
    · simp [ChainState.status, different]

theorem condemned_receivedBlockTransactions
    (config : Config) (state : ChainState) (block other : CBlockIndex)
    (vtxSize : Nat) :
    Condemned (receivedBlockTransactions config state block vtxSize) other ↔
      Condemned state other := by
  have received : ∀ after : ChainState, after.index = state.index →
      after.entry = Function.update state.entry block
        (receivedEntry state block vtxSize) →
      (Condemned after other ↔ Condemned state other) := by
    intro after index entries
    refine condemned_iff_of_flags index (fun known => ?_) other
    rw [ChainState.status, ChainState.status, entries]
    rcases eq_or_ne known block with rfl | different
    · simp [receivedEntry]
    · simp [different]
  have queued : ∀ (rounds : Nat) (queue : List CBlockIndex)
      (start : ChainState),
      Condemned (linkQueue config rounds queue start) other ↔
        Condemned start other := by
    intro rounds queue start
    obtain ⟨index, _, status⟩ := linkQueue_keeps config rounds queue start
    exact condemned_iff_of_flags index
      (fun known => by rw [status known]) other
  rw [receivedBlockTransactions]
  simp only []
  split
  · exact (queued _ _ _).trans (received _ rfl rfl)
  · split
    · exact (queued _ _ _).trans (received _ rfl rfl)
    · split
      · exact received _ rfl rfl
      · exact received _ rfl rfl

/-- The call gets as far as `CheckBlock`. -/
def reachesCheckBlock (config : Config) (state : ChainState)
    (block : CBlockIndex) (input : AcceptInput) : Bool :=
  match acceptBlockHeader state block input with
  | (_, some _) => false
  | (headed, none) =>
    !(headed.status block).haveData &&
      (input.fRequested || !skipsUnrequested config headed block) &&
      (checkReorgRules config headed block).isNone

/-- The checks on the block reject it, and not as mutated. -/
def AcceptInput.Refuses (input : AcceptInput) : Prop :=
  ∃ rejection, input.checkBlock.or input.contextualCheckBlock =
    some rejection ∧ rejection.result ≠ .blockMutated

theorem condemned_invalidBlockFound
    {state : ChainState} {block : CBlockIndex}
    (indexed : block ∈ state.index) {result : BlockValidationResult}
    (marks : result ≠ .blockMutated) :
    Condemned (invalidBlockFound state block result) block := by
  rw [invalidBlockFound, if_pos marks]
  refine ⟨indexed, ?_⟩
  rw [status_invalidChainFound, if_neg fun both => both.2.1 rfl]
  exact congrArg BlockStatus.failedValid
    (status_setStatus_same state block BlockStatus.markFailedValid)

/-- `AcceptBlock` condemns its block exactly when the checks refuse it. -/
theorem condemned_acceptBlock_iff
    (config : Config) (state : ChainState) (block : CBlockIndex)
    (input : AcceptInput) :
    Condemned (acceptBlock config state block input).1 block ↔
      Condemned state block ∨
        reachesCheckBlock config state block input = true ∧
          input.Refuses := by
  have header := condemned_acceptBlockHeader state block block input
  rw [acceptBlock, reachesCheckBlock]
  rcases found : acceptBlockHeader state block input with
    ⟨headed, _ | rejection⟩
  · have indexed := mem_index_of_acceptBlockHeader found
    rw [found] at header
    simp only []
    rw [← header, acceptBlockBody]
    split
    · next stored => simp [stored]
    · next missing =>
      split
      · next skipped =>
        simp only [Bool.and_eq_true, Bool.not_eq_true'] at skipped
        simp [skipped.1, skipped.2]
      · next processed =>
        have asked : (input.fRequested ||
            !skipsUnrequested config headed block) = true := by
          cases requested : input.fRequested with
          | true => rfl
          | false => simpa [requested] using processed
        split
        · next rejection broken => simp [broken]
        · next passed =>
          rw [asked, passed]
          have reached :
              (!(headed.status block).haveData && true &&
                (none : Option Rejection).isNone) = true := by
            simp [missing]
          rw [AcceptInput.Refuses]
          split
          · next rejection refused =>
            by_cases mutated : rejection.result = .blockMutated
            · simp [refused, mutated, invalidBlockFound]
            · refine iff_of_true
                (condemned_invalidBlockFound indexed mutated) (Or.inr ?_)
              exact ⟨reached, rejection, refused, mutated⟩
          · next accepted =>
            split
            · rw [condemned_receivedBlockTransactions]
              simp [accepted]
            · simp [accepted]
  · rw [found] at header
    simpa using header

/-- A block that reaches `CheckBlock` and passes the checks is stored. -/
theorem acceptBlock_stored
    {config : Config} {state : ChainState} {block : CBlockIndex}
    {input : AcceptInput}
    (reached : reachesCheckBlock config state block input = true)
    (passed : input.checkBlock.or input.contextualCheckBlock = none)
    (written : input.diskOk = true) :
    (acceptBlock config state block input).2 = .stored := by
  rw [reachesCheckBlock] at reached
  rw [acceptBlock]
  rcases found : acceptBlockHeader state block input with
    ⟨headed, _ | rejection⟩
  · rw [found] at reached
    simp only [Bool.and_eq_true, Bool.not_eq_true', Bool.or_eq_true,
      Option.isNone_iff_eq_none] at reached
    obtain ⟨⟨missing, asked⟩, rules⟩ := reached
    have processed :
        (!input.fRequested && skipsUnrequested config headed block) =
          false := by
      rcases asked with requested | useful
      · rw [requested]
        rfl
      · rw [useful, Bool.and_false]
    simp only [acceptBlockBody, missing, processed, rules, passed, written,
      Bool.false_eq_true, if_false, if_true]
  · rw [found] at reached
    cases reached

/-- `AcceptBlock` condemns no other block. -/
theorem Condemns.acceptBlock
    (config : Config) (state : ChainState) (block : CBlockIndex)
    (input : AcceptInput) :
    Condemns (· = block) state (acceptBlock config state block input).1 := by
  have header : Condemns (· = block) state
      (acceptBlockHeader state block input).1 :=
    fun other condemned =>
      Or.inl ((condemned_acceptBlockHeader state block other input).mp
        condemned)
  rw [Node.acceptBlock]
  split
  · next headed rejection found =>
    rw [found] at header
    exact header
  · next headed found =>
    rw [found] at header
    refine header.trans ?_
    rw [acceptBlockBody]
    split
    · exact Condemns.refl headed
    · split
      · exact Condemns.refl headed
      · split
        · exact Condemns.refl headed
        · split
          · refine Condemns.of_discovers
              (Discovers.invalidBlockFound headed ?_ _)
            rfl
          · split
            · exact fun other condemned => Or.inl
                ((condemned_receivedBlockTransactions config headed block
                  other _).mp condemned)
            · exact Condemns.refl headed

/-- A step of arrival or activation condemns a block only by a refusal in
`AcceptBlock` or a rejection in `ConnectBlock`. -/
theorem condemned_arrival
    {config : Config} {node next : NodeState} {event : Event}
    (taken : ArrivalStep config node event next) {block : CBlockIndex}
    (condemned : Condemned next.chain block) :
    Condemned node.chain block ∨
      (∃ input, event = .acceptBlock block input ∧ input.Refuses) ∨
        ∃ input, event = .pass input ∧ input.Rejects block := by
  cases taken with
  | accept delivered input =>
    rcases Condemns.acceptBlock config node.chain delivered input block
      condemned with before | rfl
    · exact Or.inl before
    · rcases (condemned_acceptBlock_iff config node.chain block input).mp
        condemned with before | ⟨_, refuses⟩
      · exact Or.inl before
      · exact Or.inr (Or.inl ⟨input, rfl, refuses⟩)
  | phase event abc cached => exact Or.inl condemned
  | pass input startingTip cached connected locked =>
    rcases Condemns.of_discovers (Discovers.abcPass config input node.chain
      startingTip cached connected) block condemned with before | rejected
    · exact Or.inl before
    · exact Or.inr (Or.inr ⟨input, rfl, rejected⟩)

end B3Chain.Node
