import B3Chain.Node.FailureFlags

/-!
# Closed failure flags along runs

Marking commands and activation keep the assertion of `CheckBlockIndex` on the
failure flags.  The clearing commands work on the line through one block only:
they keep it exactly when each failure they leave behind has a cause that they
leave behind as well.
-/

namespace B3Chain.Node

open B3Chain.Chain
open B3Chain.Machine
open B3Chain.Tree

/-! ## Marking commands -/

variable {pindex : CBlockIndex} {state : ChainState}

/-- A completed `InvalidateBlock` keeps the flags closed. -/
theorem FlagsClosed.of_invalidated {before after : ChainState}
    (closed : FlagsClosed before) (known : pindex ∈ before.index)
    (invalidated : Invalidated pindex before after) : FlagsClosed after := by
  have own := invalidated.own
  have inside : ∀ block ∈ before.index, pindex ≤ block →
      (after.status block).failed = true := by
    intro block indexed above
    rcases eq_or_lt_of_le above with rfl | strictly
    · rw [own]
      split
      · exact failed_markFailedValid _
      · next neither => simpa using fun sound => neither (Or.inr sound)
    · obtain ⟨child, _⟩ := invalidated.descendants block indexed strictly
      rw [BlockStatus.failed, child, Bool.or_true]
  by_cases marked :
      pindex ≤ before.tip ∨ (before.status pindex).failed = false
  · rw [if_pos marked] at own
    refine closed.of_subtree invalidated.marks.index
      invalidated.marks.outside inside known (le_refl pindex) ?_
    rw [own]
    rfl
  · -- The block was failed before: its cause stays.
    rw [if_neg marked] at own
    have failed : (before.status pindex).failed = true := by
      simpa using fun sound => marked (Or.inr sound)
    obtain ⟨source, sourceKnown, below, valid⟩ :=
      (closed pindex known).mp failed
    refine closed.of_subtree invalidated.marks.index
      invalidated.marks.outside inside sourceKnown below ?_
    rcases eq_or_lt_of_le below with rfl | strictly
    · rw [own]
      exact valid
    · rw [invalidated.marks.outside source (not_le_of_gt strictly)]
      exact valid

theorem FlagsClosed.invalidateBlock {input : WalkInput}
    (closed : FlagsClosed state) (config : Config)
    (known : pindex ∈ state.index) (free : input.Unhindered pindex state.tip) :
    FlagsClosed (invalidateBlock config input state pindex).1 := by
  cases linked : CBlockIndex.pprev pindex with
  | none =>
    rw [Node.invalidateBlock, linked]
    exact closed
  | some pprev =>
    exact closed.of_invalidated known
      (invalidateBlock_completes config state linked free).2

theorem FlagsClosed.parkBlock {input : WalkInput} (closed : FlagsClosed state)
    (config : Config) (known : pindex ∈ state.index)
    (free : input.Unhindered pindex state.tip) :
    FlagsClosed (parkBlock config input state pindex).1 := by
  have invalidated := closed.invalidateBlock config known free
  cases linked : CBlockIndex.pprev pindex with
  | none =>
    have unchanged :
        Node.invalidateBlock config input state pindex = (state, false) := by
      rw [Node.invalidateBlock, linked]
    rw [Node.parkBlock, unchanged]
    exact closed
  | some pprev =>
    refine invalidated.congr
      (parkBlock_fields config input state pindex).1
      (fun block => ?_) (fun block => ?_)
    · rw [status_parkBlock linked known free]
      split <;> rfl
    · rw [status_parkBlock linked known free]
      split <;> rfl

/-! ## Clearing commands -/

/-- A change that removes both failure flags. -/
def ClearsFailure (change : BlockStatus → BlockStatus) : Prop :=
  ∀ status, (change status).failed = false ∧
    (change status).failedValid = false

theorem failed_of_failedValid {status : BlockStatus}
    (valid : status.failedValid = true) : status.failed = true := by
  rw [BlockStatus.failed, valid, Bool.true_or]

/-- Clearing selected blocks keeps closed flags closed exactly when each
failure left behind keeps a cause, and no cause is left below a cleared
block. -/
theorem flagsClosed_clearWhere_iff {config : Config}
    {selected : CBlockIndex → Bool} {change : BlockStatus → BlockStatus}
    (clears : ClearsFailure change) (closed : FlagsClosed state) :
    FlagsClosed (clearWhere config state selected change) ↔
      ∀ block ∈ state.index,
        (selected block = false → (state.status block).failed = true →
          ∃ ancestor ∈ state.index, ancestor ≤ block ∧
            (state.status ancestor).failedValid = true ∧
            selected ancestor = false) ∧
        (selected block = true → ∀ ancestor ∈ state.index,
          ancestor ≤ block → (state.status ancestor).failedValid = true →
            selected ancestor = true) := by
  have index := (clearWhere_fields config state selected change).1
  have failed : ∀ block ∈ state.index,
      ((clearWhere config state selected change).status block).failed =
        (!selected block && (state.status block).failed) := by
    intro block known
    rw [status_clearWhere]
    cases chosen : selected block with
    | true => simp [known, (clears _).1]
    | false => simp
  have failedValid : ∀ block ∈ state.index,
      ((clearWhere config state selected change).status
        block).failedValid =
        (!selected block && (state.status block).failedValid) := by
    intro block known
    rw [status_clearWhere]
    cases chosen : selected block with
    | true => simp [known, (clears _).2]
    | false => simp
  constructor
  · intro after block known
    have here := after block (by rw [index]; exact known)
    rw [failed block known, index] at here
    refine ⟨fun left failedBlock => ?_, fun chosen ancestor member below
      valid => ?_⟩
    · obtain ⟨ancestor, member, below, valid⟩ :=
        here.mp (by rw [left, failedBlock]; rfl)
      rw [failedValid ancestor member, Bool.and_eq_true,
        Bool.not_eq_true'] at valid
      exact ⟨ancestor, member, below, valid.2, valid.1⟩
    · by_contra left
      have unselected : selected ancestor = false := by simpa using left
      have failing := here.mpr ⟨ancestor, member, below, by
        rw [failedValid ancestor member, unselected, valid]
        rfl⟩
      rw [chosen] at failing
      cases failing
  · intro condition block known
    rw [index] at known
    obtain ⟨kept, cleared⟩ := condition block known
    rw [failed block known, index, Bool.and_eq_true, Bool.not_eq_true']
    constructor
    · rintro ⟨left, failedBlock⟩
      obtain ⟨ancestor, member, below, valid, unselected⟩ :=
        kept left failedBlock
      refine ⟨ancestor, member, below, ?_⟩
      rw [failedValid ancestor member, unselected, valid]
      rfl
    · rintro ⟨ancestor, member, below, marked⟩
      rw [failedValid ancestor member, Bool.and_eq_true,
        Bool.not_eq_true'] at marked
      refine ⟨?_, (closed block known).mpr
        ⟨ancestor, member, below, marked.2⟩⟩
      by_contra chosen
      have selectedAncestor :=
        cleared (by simpa using chosen) ancestor member below marked.2
      rw [marked.1] at selectedAncestor
      cases selectedAncestor

/-- Each failed block off the line through `pindex` has a cause off that
line. -/
def ResetKeepsCauses (state : ChainState) (pindex : CBlockIndex) : Prop :=
  ∀ block ∈ state.index, comparable pindex block = false →
    (state.status block).failed = true →
      ∃ ancestor ∈ state.index, ancestor ≤ block ∧
        (state.status ancestor).failedValid = true ∧
        comparable pindex ancestor = false

instance (state : ChainState) (pindex : CBlockIndex) :
    Decidable (ResetKeepsCauses state pindex) :=
  inferInstanceAs (Decidable (∀ block ∈ state.index, _))

theorem comparable_of_le {ancestor block : CBlockIndex}
    (below : ancestor ≤ block) (line : comparable pindex block = true) :
    comparable pindex ancestor = true := by
  simp only [comparable, Bool.or_eq_true, decide_eq_true_eq] at line ⊢
  rcases line with above | lower
  · exact Branch.le_total_of_le above below
  · exact Or.inr (le_trans below lower)

/-- `ResetBlockFailureFlags` keeps closed flags closed exactly under this
condition. -/
theorem flagsClosed_resetBlockFailureFlags_iff {config : Config}
    (closed : FlagsClosed state) :
    FlagsClosed (resetBlockFailureFlags config state pindex) ↔
      ResetKeepsCauses state pindex := by
  rw [resetBlockFailureFlags,
    flagsClosed_clearWhere_iff (fun _ => ⟨rfl, rfl⟩) closed]
  constructor
  · intro condition block known offLine failed
    obtain ⟨ancestor, member, below, valid, left⟩ :=
      (condition block known).1 (by rw [offLine, Bool.and_false]) failed
    refine ⟨ancestor, member, below, valid, ?_⟩
    rwa [failed_of_failedValid valid, Bool.true_and] at left
  · intro keeps block known
    refine ⟨fun left failed => ?_, fun chosen ancestor member below
      valid => ?_⟩
    · rw [failed, Bool.true_and] at left
      obtain ⟨ancestor, member, below, valid, offLine⟩ :=
        keeps block known left failed
      exact ⟨ancestor, member, below, valid, by
        rw [offLine, Bool.and_false]⟩
    · rw [Bool.and_eq_true] at chosen
      rw [failed_of_failedValid valid, Bool.true_and]
      exact comparable_of_le below chosen.2

/-- The blocks whose flags `UnparkBlock` clears. -/
def unparks (state : ChainState) (pindex block : CBlockIndex) : Bool :=
  (state.status block).parked && comparable pindex block

/-- Each failure that unparking leaves behind keeps a cause, and no cause is
left below an unparked block. -/
def UnparkKeepsCauses (state : ChainState) (pindex : CBlockIndex) : Prop :=
  (state.status pindex).parked = true → ∀ block ∈ state.index,
    (unparks state pindex block = false →
      (state.status block).failed = true →
        ∃ ancestor ∈ state.index, ancestor ≤ block ∧
          (state.status ancestor).failedValid = true ∧
          unparks state pindex ancestor = false) ∧
    (unparks state pindex block = true → ∀ ancestor ∈ state.index,
      ancestor ≤ block → (state.status ancestor).failedValid = true →
        unparks state pindex ancestor = true)

instance (state : ChainState) (pindex : CBlockIndex) :
    Decidable (UnparkKeepsCauses state pindex) :=
  inferInstanceAs (Decidable (_ → _))

/-- `UnparkBlock` keeps closed flags closed exactly under this condition. -/
theorem flagsClosed_unparkBlock_iff {config : Config}
    (closed : FlagsClosed state) :
    FlagsClosed (unparkBlock config state pindex) ↔
      UnparkKeepsCauses state pindex := by
  rw [unparkBlock, UnparkKeepsCauses]
  split
  · next parked =>
    rw [flagsClosed_clearWhere_iff (fun _ => ⟨rfl, rfl⟩) closed]
    exact ⟨fun condition _ => condition, fun condition => condition parked⟩
  · next unparked =>
    exact ⟨fun _ parked => absurd parked unparked, fun _ => closed⟩

/-! ## Every run of commands and activation -/

/-- Completed commands, of which those that clear flags keep the causes, and
activation. -/
def KeepsFlagsClosed (node : NodeState) : Event → Prop
  | .invalidateBlock block input =>
    input.Unhindered block node.chain.tip
  | .parkBlock block input => input.Unhindered block node.chain.tip
  | .unparkBlock block => UnparkKeepsCauses node.chain block
  | .resetBlockFailureFlags block => ResetKeepsCauses node.chain block
  | event => event.isActivation = true

instance (node : NodeState) :
    (event : Event) → Decidable (KeepsFlagsClosed node event)
  | .invalidateBlock block input | .parkBlock block input =>
    inferInstanceAs (Decidable (input.Unhindered block node.chain.tip))
  | .unparkBlock block =>
    inferInstanceAs (Decidable (UnparkKeepsCauses node.chain block))
  | .resetBlockFailureFlags block =>
    inferInstanceAs (Decidable (ResetKeepsCauses node.chain block))
  | .acceptBlock _ _ | .activateBestChain | .beginIteration | .pass _
  | .interrupt | .finalizeBlock _ _ _ | .unfinalizeBlock _ | .restart _ =>
    inferInstanceAs (Decidable (Event.isActivation _ = true))

/-- A node whose handled blocks are indexed and whose flags are closed. -/
structure FlagsIntact (genesis : CBlockHeader) (node : NodeState) :
    Prop where
  indexed : WellIndexed genesis node.chain node.abc.cached
  closed : FlagsClosed node.chain

namespace FlagsIntact

variable {config : Config} {genesis : CBlockHeader} {node next : NodeState}

theorem activation
    {event : Event} (intact : FlagsIntact genesis node)
    (isActivation : event.isActivation = true)
    (taken : step config node event = some next) :
    FlagsIntact genesis next := by
  obtain ⟨indexed, _, discovers⟩ :=
    activation_step intact.indexed (List.mem_singleton_self event)
      isActivation taken
  exact ⟨indexed, discovers.closed trivial intact.indexed.closed intact.closed⟩

/-- A command under the chainstate mutex. -/
theorem underMutex
    {block : CBlockIndex} {change : ChainState → ChainState}
    (intact : FlagsIntact genesis node)
    (keepsIndex : WellIndexed genesis node.chain none →
      WellIndexed genesis (change node.chain) none)
    (keepsFlags : block ∈ node.chain.index →
      FlagsClosed (change node.chain))
    (taken : underMutex node block change = some next) :
    FlagsIntact genesis next := by
  obtain ⟨⟨idle, known⟩, rfl⟩ := underMutex_eq_some taken
  have indexed := intact.indexed
  rw [idle] at indexed
  refine ⟨?_, keepsFlags known⟩
  change WellIndexed genesis (change node.chain) node.abc.cached
  rw [idle]
  exact keepsIndex indexed

/-- A command under `cs_main` that clears flags. -/
theorem underMain
    {change : ChainState → ChainState}
    (keepsIndex : WellIndexed genesis (change node.chain) node.abc.cached)
    (keepsFlags : FlagsClosed (change node.chain))
    (taken : underMain node change = some next) :
    FlagsIntact genesis next := by
  obtain ⟨-, rfl⟩ := underMain_eq_some taken
  exact ⟨keepsIndex, keepsFlags⟩

theorem step
    {event : Event} (intact : FlagsIntact genesis node)
    (condition : KeepsFlagsClosed node event)
    (taken : step config node event = some next) :
    FlagsIntact genesis next := by
  have indexed := intact.indexed
  cases event with
  | activateBestChain | beginIteration | pass | interrupt =>
    exact intact.activation rfl taken
  | invalidateBlock block input =>
    rw [Node.step] at taken
    refine intact.underMutex (fun idle => ?_) (fun known => ?_) taken
    · exact idle.invalidateBlock config input block
    · exact intact.closed.invalidateBlock config known condition
  | parkBlock block input =>
    rw [Node.step] at taken
    refine intact.underMutex (fun idle => ?_) (fun known => ?_) taken
    · exact idle.parkBlock config input block
    · exact intact.closed.parkBlock config known condition
  | unparkBlock block =>
    refine underMain ?_ ?_ taken
    · split
      · rw [unparkBlock]
        split
        · exact indexed.clearWhere config _ _
        · exact indexed
      · exact indexed
    · split
      · exact (flagsClosed_unparkBlock_iff intact.closed).mpr condition
      · exact intact.closed
  | resetBlockFailureFlags block =>
    refine underMain ?_ ?_ taken
    · split
      · exact indexed.clearWhere config _ _
      · exact indexed
    · split
      · exact (flagsClosed_resetBlockFailureFlags_iff
          intact.closed).mpr condition
      · exact intact.closed
  | acceptBlock | finalizeBlock | unfinalizeBlock | restart =>
    cases condition

end FlagsIntact

/-- From closed flags, every run of completed commands and activation in which
each clearing command keeps the causes of the failures it leaves behind ends
with closed flags. -/
theorem flags_closed_while_causes_kept
    (config : Config) (genesis : CBlockHeader) (start final : NodeState)
    (events : List Event)
    (indexed : WellIndexed genesis start.chain start.abc.cached)
    (closed : FlagsClosed start.chain)
    (keeps : Along (step config) KeepsFlagsClosed start events)
    (taken : run (step config) start events = some final) :
    FlagsClosed final.chain := by
  have kept :
      ∀ node event next, FlagsIntact genesis node →
        KeepsFlagsClosed node event → step config node event = some next →
          FlagsIntact genesis next :=
    fun node event next intact condition steps =>
      intact.step condition steps
  exact (run_invariant kept ⟨indexed, closed⟩ keeps taken).closed

/-- The first block of the line is parked and unparked again, each followed by
activation. -/
def parkAndUnparkEvents : List Event :=
  [.parkBlock (line firstBlock 1 1) walkFreely, .activateBestChain,
    .beginIteration, .pass connectAll, .unparkBlock (line firstBlock 1 1),
    .activateBestChain, .beginIteration, .pass connectAll]

theorem flags_closed_after_park_and_unpark :
    ∃ final,
      run (step mainConfig)
          ⟨forkState (line firstBlock 1 2), .idle, []⟩ parkAndUnparkEvents =
            some final ∧
        FlagsClosed final.chain := by
  obtain ⟨final, taken⟩ :=
    Option.isSome_iff_exists.mp
      (show (run (step mainConfig)
        ⟨forkState (line firstBlock 1 2), .idle, []⟩
          parkAndUnparkEvents).isSome = true by decide +kernel)
  exact ⟨final, taken,
    flags_closed_while_causes_kept mainConfig (Branch.label firstBlock)
      _ final _ (wellIndexed_forkState (by decide)) (by decide)
      (by decide +kernel) taken⟩

/-- The parent of two blocks is invalidated and one of them reconsidered: the
other stays a failed child of a block that is failed no more. -/
theorem reconsidered_child_leaves_failed_sibling :
    FlagsClosed (forkState (line firstBlock 1 2)) ∧
      (run (step mainConfig)
        ⟨forkState (line firstBlock 1 2), .idle, []⟩
        [.invalidateBlock (line firstBlock 1 1) walkFreely,
          .activateBestChain, .beginIteration, .pass connectAll,
          .resetBlockFailureFlags (line firstBlock 1 2), .activateBestChain,
          .beginIteration, .pass connectAll]).map
        (fun node => decide (FlagsClosed node.chain)) = some false := by
  decide +kernel

end B3Chain.Node
