import B3Chain.Node.BlockCheck
import B3Chain.Node.Condemnation

/-!
# The clock and the validity of blocks

How far the readings of the steady clock reach.  A verification that overruns
its budget makes `AcceptBlock` and `ConnectTip` condemn a block that breaks no
rule, as `BLOCK_POW_BUDGET` counts as a failure for consensus.  Nothing else
about the clock matters: an overrun while the header is accepted, or in the
first check of `ProcessNewBlock`, leaves no flag, and runs whose clocks stay
within the budget are the same.
-/

namespace B3Chain.Node

open B3Chain.Chain
open B3Chain.Consensus
open B3Chain.Crypto
open B3Chain.Machine
open B3Chain.Pow
open B3Chain.Tree

/-! ## Blocks that break no rule -/

/-- The block satisfies every rule; the clock has no part in it. -/
structure ConsensusValid (hashes : HashFunctions) (params : Params)
    (pindex : CBlockIndex) (block : CBlock) : Prop where
  work : MeetsTarget hashes params pindex
  contents : checkContents params (Branch.label pindex) block true true = none
  context : block.contextualCheckBlock = none
  connects : block.connectRules = none

/-- A copy of a block that breaks no rule, except that it may be recognised as
mutated. -/
structure Harmless (hashes : HashFunctions) (params : Params)
    (pindex : CBlockIndex) (block : CBlock) : Prop where
  work : MeetsTarget hashes params pindex
  contents : ∀ rejection,
    checkContents params (Branch.label pindex) block true true =
      some rejection → rejection.result = .blockMutated
  context : ∀ rejection, block.contextualCheckBlock = some rejection →
    rejection.result = .blockMutated
  connects : block.connectRules = none

theorem ConsensusValid.harmless
    {hashes : HashFunctions} {params : Params} {pindex : CBlockIndex}
    {block : CBlock} (valid : ConsensusValid hashes params pindex block) :
    Harmless hashes params pindex block where
  work := valid.work
  contents rejection found := by
    rw [valid.contents] at found
    cases found
  context rejection found := by
    rw [valid.context] at found
    cases found
  connects := valid.connects

/-- This check of the block hashes its header and overruns the full budget. -/
def RehashOverruns (params : Params) (block : CBlock)
    (elapsed : Nat → Int) : Prop :=
  block.fChecked = false ∧ Overruns (scaledMs params .tip) elapsed

section Checks

variable {hashes : HashFunctions} {params : Params} {pindex : CBlockIndex}
  {block : CBlock} {elapsed : Nat → Int}

theorem checkBlockHeader_of_not_overruns
    (work : MeetsTarget hashes params pindex) (fCheckPOW : Bool)
    {depth : HeaderDepth} (quiet : ¬ Overruns (scaledMs params depth) elapsed) :
    checkBlockHeader hashes params pindex fCheckPOW depth elapsed = none := by
  rw [checkBlockHeader, (checkBlockHeaderPoW_of_not_overruns quiet).mpr work]
  split <;> rfl

theorem checkBlockHeader_of_overruns
    (work : MeetsTarget hashes params pindex)
    {depth : HeaderDepth} (overrun : Overruns (scaledMs params depth) elapsed) :
    checkBlockHeader hashes params pindex true depth elapsed =
      some powBudgetExceeded := by
  rw [checkBlockHeader, checkBlockHeaderPoW_of_overruns overrun work]
  rfl

/-- An overrun is the only way in which a check can refuse a harmless block
other than as mutated. -/
theorem Harmless.checkBlock
    (harmless : Harmless hashes params pindex block)
    (calm : ¬ RehashOverruns params block elapsed) {rejection : Rejection}
    (refused : checkBlock hashes params pindex block true true elapsed =
      some rejection) :
    rejection.result = .blockMutated := by
  rw [Node.checkBlock] at refused
  split at refused
  · cases refused
  · next unchecked =>
    have quiet : ¬ Overruns (scaledMs params .tip) elapsed := fun overrun =>
      calm ⟨Bool.eq_false_of_not_eq_true unchecked, overrun⟩
    rw [checkBlockHeader_of_not_overruns harmless.work true quiet] at refused
    exact harmless.contents rejection refused

theorem ConsensusValid.checkBlock_of_calm
    (valid : ConsensusValid hashes params pindex block)
    (calm : ¬ RehashOverruns params block elapsed) :
    checkBlock hashes params pindex block true true elapsed = none := by
  rw [checkBlock]
  split
  · rfl
  · next unchecked =>
    have quiet : ¬ Overruns (scaledMs params .tip) elapsed := fun overrun =>
      calm ⟨Bool.eq_false_of_not_eq_true unchecked, overrun⟩
    rw [checkBlockHeader_of_not_overruns valid.work true quiet]
    exact valid.contents

theorem checkBlock_of_rehashOverruns
    (work : MeetsTarget hashes params pindex)
    (overrun : RehashOverruns params block elapsed) :
    checkBlock hashes params pindex block true true elapsed =
      some powBudgetExceeded := by
  rw [checkBlock, overrun.1, checkBlockHeader_of_overruns work overrun.2]
  rfl

/-- Without a proof-of-work check fewer blocks are refused. -/
theorem checkContents_unchecked
    {header : CBlockHeader} {rejection : Rejection}
    (refused : checkContents params header block false true =
      some rejection) :
    ∃ stricter, checkContents params header block true true =
      some stricter ∧
        (stricter.result = .blockMutated → stricter = rejection) := by
  rw [checkContents] at refused ⊢
  simp only [Bool.and_false, Bool.false_and, Bool.false_eq_true, if_false,
    Bool.and_true] at refused ⊢
  split
  · refine ⟨_, rfl, fun mutated => ?_⟩
    cases mutated
  · exact ⟨rejection, refused, fun _ => rfl⟩

end Checks

/-! ## One delivery -/

/-- `AcceptBlock` condemns a valid block exactly when it hashes the header once
more and overruns the budget. -/
theorem condemned_acceptTimed_iff
    {hashes : HashFunctions} {config : Config} (state : ChainState)
    {pindex : CBlockIndex} {block : CBlock} (delivery : Delivery)
    (clocks : Clocks)
    (valid : ConsensusValid hashes config.params pindex block) :
    Condemned
        (acceptTimed hashes config state pindex block delivery clocks).1
        pindex ↔
      Condemned state pindex ∨
        reachesCheckBlock config state pindex
            (acceptInput hashes config state pindex block delivery
              clocks) = true ∧
          RehashOverruns config.params block clocks.block := by
  rw [acceptTimed, condemned_acceptBlock_iff]
  refine or_congr_right (and_congr_right fun _ => ?_)
  rw [AcceptInput.Refuses, acceptInput]
  constructor
  · rintro ⟨rejection, refused, _⟩
    by_contra calm
    rw [valid.checkBlock_of_calm calm, valid.context] at refused
    cases refused
  · intro overrun
    rw [checkBlock_of_rehashOverruns valid.work overrun]
    exact ⟨powBudgetExceeded, rfl, by decide⟩

/-- `ProcessNewBlock` never condemns a harmless block: the check that could
overrun comes first, and its failure leaves the state alone. -/
theorem condemned_processNewBlock_iff
    {hashes : HashFunctions} {config : Config} (state : ChainState)
    {pindex : CBlockIndex} {block : CBlock} (delivery : Delivery)
    (first : Nat → Int) (clocks : Clocks)
    (harmless : Harmless hashes config.params pindex block) :
    Condemned
        (processNewBlock hashes config state pindex block delivery first
          clocks).1 pindex ↔
      Condemned state pindex := by
  rw [processNewBlock]
  split
  · rfl
  · rw [acceptTimed, condemned_acceptBlock_iff]
    refine or_iff_left ?_
    rintro ⟨_, rejection, refused, marks⟩
    -- The marked object passes `CheckBlock` at once.
    have contextual : block.contextualCheckBlock = some rejection := by
      simpa [acceptInput, checkBlock] using refused
    exact marks (harmless.context rejection contextual)

/-! ## One connection -/

theorem condemned_connectTip
    {state : ChainState} {pindex : CBlockIndex}
    (indexed : pindex ∈ state.index) (verdict : ConnectVerdict) :
    Condemned (connectTip state pindex verdict).1 pindex ↔
      Condemned state pindex ∨
        ∃ result, verdict = .invalid result ∧ result ≠ .blockMutated := by
  cases verdict with
  | connected =>
    have kept :
        Condemned (connectTip state pindex .connected).1 pindex ↔
          Condemned state pindex := by
      refine condemned_iff_of_flags ?_ (fun other => ?_) pindex
      · rfl
      change ((state.setStatus pindex fun status =>
        status.raiseValidity blockValidScripts).status other).failedValid =
          (state.status other).failedValid
      rcases eq_or_ne other pindex with rfl | different
      · rw [status_setStatus_same, failedValid_raiseValidity]
      · rw [status_setStatus_of_ne state _ different]
    simpa using kept
  | invalid result =>
    rw [connectTip]
    by_cases mutated : result = .blockMutated
    · simp [mutated, invalidBlockFound]
    · refine iff_of_true (condemned_invalidBlockFound indexed mutated)
        (Or.inr ⟨result, rfl, mutated⟩)
  | systemError => simp [connectTip]

/-- `ConnectBlock` finds a harmless block invalid only after an overrun. -/
theorem Harmless.connectVerdict
    {hashes : HashFunctions} {params : Params} {pindex : CBlockIndex}
    {block : CBlock} {call : ConnectCall} {elapsed : Nat → Int}
    (harmless : Harmless hashes params pindex block)
    {result : BlockValidationResult}
    (refused : connectVerdict hashes params pindex block call elapsed =
      .invalid result) :
    call.readBlock = true ∧ (CBlockIndex.pprev pindex).isSome = true ∧
      RehashOverruns params block elapsed := by
  rw [Node.connectVerdict] at refused
  split at refused
  · cases refused
  · next read =>
    split at refused
    · next rejection found =>
      split at refused
      · cases refused
      · next marks =>
        cases checked : (CBlockIndex.pprev pindex).isSome with
        | true =>
          rw [checked] at found
          refine ⟨by simpa using read, rfl, ?_⟩
          by_contra calm
          exact marks (harmless.checkBlock calm found)
        | false =>
          rw [checked, Node.checkBlock] at found
          split at found
          · cases found
          · obtain ⟨stricter, contents, same⟩ :=
              checkContents_unchecked found
            have mutated := harmless.contents stricter contents
            rw [same mutated] at mutated
            exact absurd mutated marks
    · rw [harmless.connects] at refused
      simp only [] at refused
      split at refused <;> cases refused

/-- `ConnectTip` condemns a valid block exactly when it hashes the header once
more and overruns the budget. -/
theorem condemned_connectTip_iff
    {hashes : HashFunctions} {params : Params} {state : ChainState}
    {pindex : CBlockIndex} {block : CBlock} (call : ConnectCall)
    (elapsed : Nat → Int) (indexed : pindex ∈ state.index)
    (valid : ConsensusValid hashes params pindex block) :
    Condemned
        (connectTip state pindex
          (connectVerdict hashes params pindex block call elapsed)).1
        pindex ↔
      Condemned state pindex ∨
        call.readBlock = true ∧ (CBlockIndex.pprev pindex).isSome = true ∧
          RehashOverruns params block elapsed := by
  rw [condemned_connectTip indexed]
  refine or_congr_right ⟨?_, ?_⟩
  · rintro ⟨result, refused, _⟩
    exact valid.harmless.connectVerdict refused
  · rintro ⟨read, checked, overrun⟩
    refine ⟨.blockPowBudget, ?_, by decide⟩
    rw [connectVerdict, read, checked,
      checkBlock_of_rehashOverruns valid.work overrun]
    rfl

/-! ## Runs -/

/-- The critical sections of block arrival and activation, each with the blocks
it looks at and the clocks it reads. -/
inductive TimedEvent where
  /-- `AcceptBlock` from a block file. -/
  | acceptBlock (pindex : CBlockIndex) (block : CBlock)
      (delivery : Delivery) (clocks : Clocks)
  | processNewBlock (pindex : CBlockIndex) (block : CBlock)
      (delivery : Delivery) (first : Nat → Int) (clocks : Clocks)
  | activateBestChain
  | beginIteration
  | pass (blocks : CBlockIndex → CBlock) (calls : CBlockIndex → ConnectCall)
      (disconnect : CBlockIndex → Bool) (clock : CBlockIndex → Nat → Int)
  | interrupt

section Runs

variable (hashes : HashFunctions) (config : Config)

/-- The verdicts of a pass. -/
def passInput (blocks : CBlockIndex → CBlock)
    (calls : CBlockIndex → ConnectCall) (disconnect : CBlockIndex → Bool)
    (clock : CBlockIndex → Nat → Int) : PassInput where
  connect pindex :=
    connectVerdict hashes config.params pindex (blocks pindex) (calls pindex)
      (clock pindex)
  disconnect := disconnect

/-- One critical section of a node whose verifications are timed. -/
def timedStep (node : NodeState) : TimedEvent → Option NodeState
  | .acceptBlock pindex block delivery clocks =>
    step config node (.acceptBlock pindex
      (acceptInput hashes config node.chain pindex block delivery clocks))
  | .processNewBlock pindex block delivery first clocks =>
    if node.abc.holdsMain then none
    else
      match checkBlock hashes config.params pindex block true true
          first with
      | some _ => some node
      | none =>
        step config node (.acceptBlock pindex
          (acceptInput hashes config node.chain pindex
            { block with fChecked := true } delivery clocks))
  | .activateBestChain => step config node .activateBestChain
  | .beginIteration => step config node .beginIteration
  | .pass blocks calls disconnect clock =>
    step config node (.pass
      (passInput hashes config blocks calls disconnect clock))
  | .interrupt => step config node .interrupt

/-- The copies of a block that a section looks at are harmless, and the check
that could condemn it stays within the budget. -/
def Calm (pindex : CBlockIndex) : TimedEvent → Prop
  | .acceptBlock delivered block _ clocks =>
    delivered = pindex →
      Harmless hashes config.params pindex block ∧
        ¬ RehashOverruns config.params block clocks.block
  | .processNewBlock delivered block _ _ _ =>
    delivered = pindex → Harmless hashes config.params pindex block
  | .pass blocks _ _ clock =>
    Harmless hashes config.params pindex (blocks pindex) ∧
      ¬ RehashOverruns config.params (blocks pindex) (clock pindex)
  | _ => True

variable {hashes config}

theorem Harmless.not_refuses
    {state : ChainState} {pindex : CBlockIndex} {block : CBlock}
    {delivery : Delivery} {clocks : Clocks}
    (harmless : Harmless hashes config.params pindex block)
    (calm : ¬ RehashOverruns config.params block clocks.block) :
    ¬ (acceptInput hashes config state pindex block delivery
      clocks).Refuses := by
  rintro ⟨rejection, refused, marks⟩
  rcases Option.or_eq_some_iff.mp refused with checked | ⟨_, contextual⟩
  · exact marks (harmless.checkBlock calm checked)
  · exact marks (harmless.context rejection contextual)

/-- A calm section does not condemn the block. -/
theorem not_condemned_timedStep
    {pindex : CBlockIndex} {node next : NodeState} {event : TimedEvent}
    (clean : ¬ Condemned node.chain pindex)
    (calm : Calm hashes config pindex event)
    (taken : timedStep hashes config node event = some next) :
    ¬ Condemned next.chain pindex := by
  -- The node step that the section makes, if it makes one, cannot condemn.
  have arrival : ∀ {inner : Event},
      step config node inner = some next → inner.isArrival = true →
      (∀ input, inner = .acceptBlock pindex input → ¬ input.Refuses) →
      (∀ input, inner = .pass input → ¬ input.Rejects pindex) →
      ¬ Condemned next.chain pindex := by
    intro inner stepped kind accepts passes condemned
    rcases condemned_arrival (arrivalStep_of_step kind stepped) condemned
      with before | ⟨input, rfl, refuses⟩ | ⟨input, rfl, rejects⟩
    · exact clean before
    · exact accepts input rfl refuses
    · exact passes input rfl rejects
  cases event with
  | acceptBlock delivered block delivery clocks =>
    rw [timedStep] at taken
    refine arrival taken rfl (fun input same => ?_)
      (fun input same => nomatch same)
    cases same
    obtain ⟨harmless, quiet⟩ := calm rfl
    exact harmless.not_refuses quiet
  | processNewBlock delivered block delivery first clocks =>
    rw [timedStep] at taken
    split at taken
    · cases taken
    · split at taken
      · rw [Option.some_inj] at taken
        exact taken ▸ clean
      · refine arrival taken rfl (fun input same => ?_)
          (fun input same => nomatch same)
        cases same
        have harmless := calm rfl
        have marked : Harmless hashes config.params pindex
            { block with fChecked := true } :=
          ⟨harmless.work, harmless.contents, harmless.context,
            harmless.connects⟩
        exact marked.not_refuses fun overrun => nomatch overrun.1
  | activateBestChain | beginIteration | interrupt =>
    rw [timedStep] at taken
    exact arrival taken rfl (fun _ same => nomatch same)
      (fun _ same => nomatch same)
  | pass blocks calls disconnect clock =>
    rw [timedStep] at taken
    refine arrival taken rfl (fun input same => nomatch same)
      (fun input same => ?_)
    cases same
    rintro ⟨result, refused⟩
    exact calm.2 (calm.1.connectVerdict refused).2.2

/-! ## Two clocks -/

/-- A clock that stands still. -/
def stopped : Nat → Int :=
  fun _ => 0

theorem not_overruns_stopped (budgetMs : Int) :
    ¬ Overruns budgetMs stopped := by
  rintro ⟨probe, _, exceeded⟩
  change probeExceeds budgetMs 0 = true at exceeded
  rw [probeExceeds, Bool.and_eq_true, decide_eq_true_eq,
    decide_eq_true_eq] at exceeded
  omega

/-- The same section with all its clocks stopped. -/
def TimedEvent.untimed : TimedEvent → TimedEvent
  | .acceptBlock pindex block delivery _ =>
    .acceptBlock pindex block delivery ⟨stopped, stopped⟩
  | .processNewBlock pindex block delivery _ _ =>
    .processNewBlock pindex block delivery stopped ⟨stopped, stopped⟩
  | .pass blocks calls disconnect _ =>
    .pass blocks calls disconnect fun _ => stopped
  | event => event

variable (config) in
/-- No verification of the section overruns its budget. -/
def WithinBudget (node : NodeState) : TimedEvent → Prop
  | .acceptBlock pindex _ _ clocks =>
    ¬ Overruns (scaledMs config.params (depthOf config node.chain pindex))
        clocks.header ∧
      ¬ Overruns (scaledMs config.params .tip) clocks.block
  | .processNewBlock pindex _ _ first clocks =>
    ¬ Overruns (scaledMs config.params .tip) first ∧
      ¬ Overruns
          (scaledMs config.params (depthOf config node.chain pindex))
          clocks.header ∧
        ¬ Overruns (scaledMs config.params .tip) clocks.block
  | .pass _ _ _ clock =>
    ∀ pindex, ¬ Overruns (scaledMs config.params .tip) (clock pindex)
  | _ => True

theorem checkBlockHeader_stopped
    {pindex : CBlockIndex} {fCheckPOW : Bool} {depth : HeaderDepth}
    {elapsed : Nat → Int}
    (quiet : ¬ Overruns (scaledMs config.params depth) elapsed) :
    checkBlockHeader hashes config.params pindex fCheckPOW depth elapsed =
      checkBlockHeader hashes config.params pindex fCheckPOW depth
        stopped := by
  rw [checkBlockHeader, checkBlockHeader,
    checkBlockHeaderPoW_clock quiet (not_overruns_stopped _)]

theorem checkBlock_stopped
    {pindex : CBlockIndex} {block : CBlock}
    {fCheckPOW fCheckMerkleRoot : Bool} {elapsed : Nat → Int}
    (quiet : ¬ Overruns (scaledMs config.params .tip) elapsed) :
    checkBlock hashes config.params pindex block fCheckPOW fCheckMerkleRoot
        elapsed =
      checkBlock hashes config.params pindex block fCheckPOW
        fCheckMerkleRoot stopped := by
  rw [checkBlock, checkBlock, checkBlockHeader_stopped quiet]

theorem acceptInput_stopped
    {state : ChainState} {pindex : CBlockIndex} {block : CBlock}
    {delivery : Delivery} {clocks : Clocks}
    (header : ¬ Overruns
      (scaledMs config.params (depthOf config state pindex)) clocks.header)
    (quiet : ¬ Overruns (scaledMs config.params .tip) clocks.block) :
    acceptInput hashes config state pindex block delivery clocks =
      acceptInput hashes config state pindex block delivery
        ⟨stopped, stopped⟩ := by
  rw [acceptInput, acceptInput, checkBlockHeader_stopped header,
    checkBlock_stopped quiet]

/-- Within the budget a section does what it would do with stopped clocks. -/
theorem timedStep_untimed
    {node : NodeState} {event : TimedEvent}
    (within : WithinBudget config node event) :
    timedStep hashes config node event =
      timedStep hashes config node event.untimed := by
  cases event with
  | acceptBlock pindex block delivery clocks =>
    rw [TimedEvent.untimed, timedStep, timedStep,
      acceptInput_stopped within.1 within.2]
  | processNewBlock pindex block delivery first clocks =>
    rw [TimedEvent.untimed, timedStep, timedStep,
      checkBlock_stopped within.1,
      acceptInput_stopped within.2.1 within.2.2]
  | pass blocks calls disconnect clock =>
    have same :
        passInput hashes config blocks calls disconnect clock =
          passInput hashes config blocks calls disconnect
            fun _ => stopped := by
      rw [passInput, passInput]
      congr 1
      funext pindex
      rw [connectVerdict, connectVerdict, checkBlock_stopped (within pindex)]
    rw [TimedEvent.untimed, timedStep, timedStep, same]
  | activateBestChain => rfl
  | beginIteration => rfl
  | interrupt => rfl

end Runs

/-! ## The reach of the clock -/

/-- The clock gives a valid block `BLOCK_FAILED_VALID` exactly when `AcceptBlock`
or `ConnectTip` hashes its header once more and overruns the full budget.
`ProcessNewBlock` never does.  In a run whose sections are all calm for a block
it is never condemned, and two runs that differ in their clocks only and stay
within the budgets end in the same state. -/
theorem clock_condemns_only_by_overrun
    (hashes : HashFunctions) (config : Config) :
    (∀ (state : ChainState) (pindex : CBlockIndex) (block : CBlock)
      (delivery : Delivery) (clocks : Clocks),
      ConsensusValid hashes config.params pindex block →
        (Condemned
            (acceptTimed hashes config state pindex block delivery
              clocks).1 pindex ↔
          Condemned state pindex ∨
            reachesCheckBlock config state pindex
                (acceptInput hashes config state pindex block delivery
                  clocks) = true ∧
              RehashOverruns config.params block clocks.block)) ∧
      (∀ (state : ChainState) (pindex : CBlockIndex) (block : CBlock)
        (delivery : Delivery) (first : Nat → Int) (clocks : Clocks),
        ConsensusValid hashes config.params pindex block →
          (Condemned
              (processNewBlock hashes config state pindex block delivery
                first clocks).1 pindex ↔
            Condemned state pindex)) ∧
      (∀ (state : ChainState) (pindex : CBlockIndex) (block : CBlock)
        (call : ConnectCall) (elapsed : Nat → Int),
        pindex ∈ state.index →
        ConsensusValid hashes config.params pindex block →
          (Condemned
              (connectTip state pindex
                (connectVerdict hashes config.params pindex block call
                  elapsed)).1 pindex ↔
            Condemned state pindex ∨
              call.readBlock = true ∧
                (CBlockIndex.pprev pindex).isSome = true ∧
                  RehashOverruns config.params block elapsed)) ∧
      (∀ (node final : NodeState) (events : List TimedEvent)
        (pindex : CBlockIndex),
        ¬ Condemned node.chain pindex →
        (∀ event ∈ events, Calm hashes config pindex event) →
        run (timedStep hashes config) node events = some final →
          ¬ Condemned final.chain pindex) ∧
      ∀ (node : NodeState) (events others : List TimedEvent),
        events.map TimedEvent.untimed = others.map TimedEvent.untimed →
        Along (timedStep hashes config) (WithinBudget config) node events →
        Along (timedStep hashes config) (WithinBudget config) node others →
          run (timedStep hashes config) node events =
            run (timedStep hashes config) node others := by
  refine ⟨fun state pindex block delivery clocks valid => ?_,
    fun state pindex block delivery first clocks valid => ?_,
    fun state pindex block call elapsed indexed valid => ?_,
    fun node final events pindex clean calm taken => ?_,
    fun node events others same within otherWithin => ?_⟩
  · exact condemned_acceptTimed_iff state delivery clocks valid
  · exact condemned_processNewBlock_iff state delivery first clocks
      valid.harmless
  · exact condemned_connectTip_iff call elapsed indexed valid
  · have kept : ∀ (before : NodeState) (event : TimedEvent)
        (after : NodeState), ¬ Condemned before.chain pindex →
        Calm hashes config pindex event →
        timedStep hashes config before event = some after →
          ¬ Condemned after.chain pindex :=
      fun _ _ _ => not_condemned_timedStep
    exact run_invariant kept clean
      (along_of_forall (fun event member _ => calm event member) node) taken
  · have stops : ∀ (before : NodeState) (event : TimedEvent),
        WithinBudget config before event →
          timedStep hashes config before event =
            timedStep hashes config before event.untimed :=
      fun _ _ => timedStep_untimed
    rw [run_map stops within, run_map stops otherWithin, same]

/-! ## A slow verification -/

/-- A block with a coinbase only. -/
def coinbaseBlock (merkleRoot : Nat) : CBlock where
  vtx := [⟨true, none, 1⟩]
  serializeSize := 285
  blockMerkleRoot := merkleRoot
  mutated := false
  checkSignetBlockSolution := true
  contextualCheckBlock := none
  connectRules := none
  fChecked := false

/-- A requested block whose delivery meets no obstacle. -/
def plainDelivery : Delivery :=
  ⟨none, true, true, true, true⟩

/-- Every probe sees one millisecond more than the budget of the main
network. -/
def slow : Nat → Int :=
  fun _ => 51

theorem rehashOverruns_slow (merkleRoot : Nat) :
    RehashOverruns mainConfig.params (coinbaseBlock merkleRoot) slow :=
  ⟨rfl, iterations, Or.inr rfl, by decide⟩

/-- A node that has only its genesis block. -/
def genesisState : ChainState :=
  storedState [firstBlock] (fun _ => true) firstBlock

/-- Hash functions under which every header with a valid target meets it. -/
def zeroHashes : HashFunctions where
  blake3 _ _ := 0
  sha256d _ _ := 0

theorem meetsTarget_zeroHashes :
    MeetsTarget zeroHashes mainConfig.params (line firstBlock 1 1) := by
  have low : powHash zeroHashes (line firstBlock 1 1) = fun _ => 0 := rfl
  have zero : (uintToArith256 fun _ => 0).toNat = 0 := by decide +kernel
  refine ⟨_, rfl, ?_⟩
  rw [low, zero]
  exact Nat.zero_le _

/-- A condemned block is rejected whenever it arrives again. -/
theorem acceptBlock_of_condemned
    {config : Config} {state : ChainState} {parent : CBlockIndex}
    {header : CBlockHeader} (input : AcceptInput)
    (condemned : Condemned state (.child parent header)) :
    (acceptBlock config state (.child parent header) input).2 =
      .rejected ⟨.blockCachedInvalid, "duplicate-invalid"⟩ := by
  have failed : (state.status (.child parent header)).failed = true := by
    rw [BlockStatus.failed, condemned.2, Bool.true_or]
  have known :
      acceptBlockHeader state (.child parent header) input =
        (state, some ⟨.blockCachedInvalid, "duplicate-invalid"⟩) := by
    rw [acceptBlockHeader, if_pos condemned.1, if_pos failed]
  rw [acceptBlock, known]

section Successor

variable {hashes : HashFunctions} {header : CBlockHeader}

theorem consensusValid_coinbaseBlock
    (work : MeetsTarget hashes mainConfig.params (.child firstBlock header)) :
    ConsensusValid hashes mainConfig.params (.child firstBlock header)
      (coinbaseBlock header.hashMerkleRoot) where
  work := work
  contents := by
    have merkle :
        checkMerkleRoot (Branch.label (.child firstBlock header))
          (coinbaseBlock header.hashMerkleRoot) = none :=
      if_neg fun different => different rfl
    have transactions :
        checkTransactions (coinbaseBlock header.hashMerkleRoot) = none := by
      simp [checkTransactions, coinbaseBlock, nSigOps, maxBlockWeight,
        maxBlockSigopsCost, witnessScaleFactor]
    have noSignet : mainConfig.params.signetBlocks = false := rfl
    simp only [checkContents, noSignet, Bool.false_and, Bool.false_eq_true,
      if_false, if_true, merkle, transactions]
  context := rfl
  connects := rfl

theorem child_notMem_genesisState :
    .child firstBlock header ∉ genesisState.index := by
  simp [genesisState, storedState, firstBlock]

/-- The header of a first block is accepted. -/
theorem acceptBlockHeader_successor
    {input : AcceptInput} (checked : input.checkBlockHeader = none)
    (contextual : input.contextualCheckBlockHeader = none)
    (checkpoints : input.matchesCheckpoints = true)
    (work : input.minPowChecked = true) :
    acceptBlockHeader genesisState (.child firstBlock header) input =
      (addToBlockIndex genesisState (.child firstBlock header), none) := by
  have known : ¬ firstBlock ∉ genesisState.index := by
    simp [genesisState, storedState]
  have sound : (genesisState.status firstBlock).failed = false := by
    decide
  have passed : checkNewHeader genesisState firstBlock input = none := by
    rw [checkNewHeader, if_neg known, sound, checked, contextual, checkpoints]
    rfl
  rw [acceptBlockHeader, if_neg child_notMem_genesisState, passed, work]
  rfl

/-- The call for a first block gets as far as `CheckBlock`. -/
theorem reachesCheckBlock_successor
    {input : AcceptInput} (checked : input.checkBlockHeader = none)
    (contextual : input.contextualCheckBlockHeader = none)
    (checkpoints : input.matchesCheckpoints = true)
    (work : input.minPowChecked = true)
    (requested : input.fRequested = true) :
    reachesCheckBlock mainConfig genesisState (.child firstBlock header)
      input = true := by
  have forked :
      findFork firstBlock (.child firstBlock header) = some firstBlock := by
    rw [findFork_eq]
    exact Branch.lastCommon_of_ge (Branch.le_child_of_le le_rfl header)
  have rules :
      checkReorgRules mainConfig
        (addToBlockIndex genesisState (.child firstBlock header))
        (.child firstBlock header) = none := by
    rw [addToBlockIndex, if_neg child_notMem_genesisState, checkReorgRules]
    simp only [genesisState, storedState, forked]
    decide
  have fresh :
      ((addToBlockIndex genesisState (.child firstBlock header)).status
        (.child firstBlock header)).haveData = false := by
    rw [addToBlockIndex, if_neg child_notMem_genesisState]
    simp [ChainState.status, Entry.fresh]
  rw [reachesCheckBlock,
    acceptBlockHeader_successor checked contextual checkpoints work]
  simp only [fresh, requested, rules]
  rfl

variable (hashes header) in
/-- The block arrives at the node and its `CheckBlock` reads `clock`. -/
def arrive (clock : Nat → Int) : ChainState × AcceptOutcome :=
  acceptTimed hashes mainConfig genesisState (.child firstBlock header)
    (coinbaseBlock header.hashMerkleRoot) plainDelivery ⟨stopped, clock⟩

variable (work : MeetsTarget hashes mainConfig.params
  (.child firstBlock header))

include work

theorem reachesCheckBlock_arrive (clock : Nat → Int) :
    reachesCheckBlock mainConfig genesisState (.child firstBlock header)
      (acceptInput hashes mainConfig genesisState (.child firstBlock header)
        (coinbaseBlock header.hashMerkleRoot) plainDelivery
        ⟨stopped, clock⟩) = true := by
  apply reachesCheckBlock_successor
  · exact checkBlockHeader_of_not_overruns work true (not_overruns_stopped _)
  all_goals rfl

theorem condemned_arrive_slow :
    Condemned (arrive hashes header slow).1 (.child firstBlock header) :=
  (condemned_acceptTimed_iff genesisState plainDelivery _
    (consensusValid_coinbaseBlock work)).mpr
      (Or.inr ⟨reachesCheckBlock_arrive work slow, rehashOverruns_slow _⟩)

theorem stored_arrive_stopped :
    (arrive hashes header stopped).2 = .stored := by
  have valid := consensusValid_coinbaseBlock work
  have passed :
      (checkBlock hashes mainConfig.params (.child firstBlock header)
        (coinbaseBlock header.hashMerkleRoot) true true stopped).or
          (coinbaseBlock header.hashMerkleRoot).contextualCheckBlock =
            none := by
    rw [valid.checkBlock_of_calm
      fun overrun => not_overruns_stopped _ overrun.2]
    rfl
  exact acceptBlock_stored (reachesCheckBlock_arrive work stopped) passed rfl

end Successor

/-- Whatever the hash functions are: a block of the main network that meets its
target and breaks no rule is condemned by a verification of 51 milliseconds,
when it arrives as well as when it is connected, and is rejected from then on.
A node with a faster clock stores it.  Such blocks exist. -/
theorem slow_verification_condemns_valid_block :
    (∀ (hashes : HashFunctions) (header : CBlockHeader),
      MeetsTarget hashes mainConfig.params (.child firstBlock header) →
        ConsensusValid hashes mainConfig.params (.child firstBlock header)
            (coinbaseBlock header.hashMerkleRoot) ∧
          Condemned (arrive hashes header slow).1
            (.child firstBlock header) ∧
          (∀ input, (acceptBlock mainConfig (arrive hashes header slow).1
            (.child firstBlock header) input).2 =
              .rejected ⟨.blockCachedInvalid, "duplicate-invalid"⟩) ∧
          (arrive hashes header stopped).2 = .stored ∧
          Condemned
            (connectTip (arrive hashes header stopped).1
              (.child firstBlock header)
              (connectVerdict hashes mainConfig.params
                (.child firstBlock header)
                (coinbaseBlock header.hashMerkleRoot) ⟨true, true⟩ slow)).1
            (.child firstBlock header)) ∧
      ∃ (hashes : HashFunctions) (header : CBlockHeader),
        MeetsTarget hashes mainConfig.params (.child firstBlock header) := by
  constructor
  · intro hashes header work
    have condemned := condemned_arrive_slow work
    have stored := stored_arrive_stopped work
    have unlinked : UnlinkedLinked genesisState := by
      intro pair member
      cases member
    have indexed :
        .child firstBlock header ∈ (arrive hashes header stopped).1.index :=
      (acceptBlock_facts mainConfig genesisState _ _ unlinked).indexed stored
    refine ⟨consensusValid_coinbaseBlock work, condemned,
      fun input => acceptBlock_of_condemned input condemned, stored, ?_⟩
    exact (condemned_connectTip_iff _ slow indexed
      (consensusValid_coinbaseBlock work)).mpr
        (Or.inr ⟨rfl, rfl, rehashOverruns_slow _⟩)
  · exact ⟨zeroHashes, Branch.label (line firstBlock 1 1),
      meetsTarget_zeroHashes⟩

/-- On a clock that stands still the block is not condemned. -/
theorem fast_verification_leaves_block_valid :
    ConsensusValid zeroHashes mainConfig.params (line firstBlock 1 1)
        (coinbaseBlock 0) ∧
      ¬ Condemned
        (acceptTimed zeroHashes mainConfig genesisState (line firstBlock 1 1)
          (coinbaseBlock 0) plainDelivery ⟨stopped, stopped⟩).1
        (line firstBlock 1 1) := by
  have valid := consensusValid_coinbaseBlock meetsTarget_zeroHashes
  refine ⟨valid, fun condemned => ?_⟩
  rcases ((clock_condemns_only_by_overrun zeroHashes mainConfig).1
    genesisState _ _ _ _ valid).mp condemned with before | ⟨_, overrun⟩
  · exact absurd before (by decide)
  · exact not_overruns_stopped _ overrun.2

end B3Chain.Node
