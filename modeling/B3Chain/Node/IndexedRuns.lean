import B3Chain.Node.TipExtension
import B3Chain.Node.Within

/-!
# All that a node handles is indexed

`ProcessNewBlockHeaders` next to the other critical sections of a node.  In
every run the tip, the candidates, the cached candidate and the blocks that
wait for a parent are entries of the block index, the index contains the
ancestors of its entries, and it gains only headers that have passed their
checks.
-/

namespace B3Chain.Node

open B3Chain.Chain
open B3Chain.Machine
open B3Chain.Tree

/-! ## Headers -/

/-- `ProcessNewBlockHeaders`: the headers are accepted one after the other
until one is rejected. -/
def processNewBlockHeaders :
    List (CBlockIndex × AcceptInput) → ChainState →
      ChainState × Option Rejection
  | [], state => (state, none)
  | (block, input) :: rest, state =>
    match acceptBlockHeader state block input with
    | (headed, some rejection) => (headed, some rejection)
    | (headed, none) => processNewBlockHeaders rest headed

/-- The critical sections of a node, with the delivery of headers. -/
inductive NodeEvent where
  | processNewBlockHeaders (headers : List (CBlockIndex × AcceptInput))
  | core (event : Event)

/-- One critical section. -/
def nodeStep (config : Config) (node : NodeState) :
    NodeEvent → Option NodeState
  | .processNewBlockHeaders headers =>
    underMain node fun chain => (processNewBlockHeaders headers chain).1
  | .core event => step config node event

theorem nodeStep_core (config : Config) (node : NodeState) (event : Event) :
    nodeStep config node (.core event) = step config node event :=
  rfl

/-! ## The index -/

/-- The index and the tip do not change after the header is in. -/
theorem acceptBlockBody_keeps
    (config : Config) (state : ChainState) (block : CBlockIndex)
    (input : AcceptInput) :
    (acceptBlockBody config state block input).1.index = state.index ∧
      (acceptBlockBody config state block input).1.tip = state.tip := by
  rw [acceptBlockBody]
  split
  · exact ⟨rfl, rfl⟩
  · split
    · exact ⟨rfl, rfl⟩
    · split
      · exact ⟨rfl, rfl⟩
      · split
        · next rejection _ =>
          exact ⟨(Weakens.invalidBlockFound state block rejection.result).index,
            tip_invalidBlockFound state block rejection.result⟩
        · split
          · have linked : ∀ start rounds,
                (linkQueue config rounds [block] start).index = start.index ∧
                  (linkQueue config rounds [block] start).tip = start.tip :=
              fun start rounds =>
                (linkQueue_keeps config rounds [block] start).imp_right
                  And.left
            rw [receivedBlockTransactions]
            split
            · exact linked _ _
            · simp only []
              split
              · exact linked _ _
              · split <;> exact ⟨rfl, rfl⟩
          · exact ⟨rfl, rfl⟩

/-- `AcceptBlock` changes the index as its header does. -/
theorem index_acceptBlock
    (config : Config) (state : ChainState) (block : CBlockIndex)
    (input : AcceptInput) :
    (acceptBlock config state block input).1.index =
      (acceptBlockHeader state block input).1.index := by
  rw [acceptBlock]
  split
  · next found => rw [found]
  · next found =>
    rw [found]
    exact (acceptBlockBody_keeps config _ block input).1

theorem index_invalidateBlock
    (config : Config) (input : WalkInput) (state : ChainState)
    (block : CBlockIndex) :
    (invalidateBlock config input state block).1.index = state.index := by
  cases linked : CBlockIndex.pprev block with
  | none => rw [invalidateBlock, linked]
  | some pprev =>
    exact (invalidateBlock_retreats config input state linked).marks.index

/-- `after` has the entries of `before` and new ones that satisfy
`condition`. -/
structure Extends (condition : CBlockIndex → Prop)
    (before after : ChainState) : Prop where
  keeps : ∀ block ∈ before.index, block ∈ after.index
  adds : ∀ block ∈ after.index, block ∈ before.index ∨ condition block

namespace Extends

variable {condition : CBlockIndex → Prop} {before after : ChainState}

theorem of_index (index : after.index = before.index) :
    Extends condition before after := by
  constructor
  · intro block member
    rw [index]
    exact member
  · intro block member
    rw [index] at member
    exact Or.inl member

protected theorem trans {last : ChainState}
    (left : Extends condition before after)
    (right : Extends condition after last) :
    Extends condition before last := by
  constructor
  · intro block member
    exact right.keeps block (left.keeps block member)
  · intro block member
    rcases right.adds block member with old | new
    · exact left.adds block old
    · exact Or.inr new

/-- A header that is added has passed its checks. -/
theorem acceptBlockHeader (state : ChainState) (block : CBlockIndex)
    (input : AcceptInput)
    (met : input.matchesCheckpoints = true → condition block) :
    Extends condition state (acceptBlockHeader state block input).1 := by
  rcases acceptBlockHeader_cases state block input with
    same | ⟨parent, header, rfl, unknown, passed, added⟩
  · rw [same]
    exact of_index rfl
  · rw [added, addToBlockIndex, if_neg unknown]
    constructor
    · intro member inside
      exact List.mem_cons_of_mem _ inside
    · intro member inside
      rcases List.mem_cons.mp inside with rfl | old
      · exact Or.inr (met (checkNewHeader_passed passed).2.2)
      · exact Or.inl old

theorem processNewBlockHeaders
    {headers : List (CBlockIndex × AcceptInput)} (state : ChainState)
    (met : ∀ block input, (block, input) ∈ headers →
      input.matchesCheckpoints = true → condition block) :
    Extends condition state
      (processNewBlockHeaders headers state).1 := by
  induction headers generalizing state with
  | nil => exact of_index rfl
  | cons first rest induction =>
    have headed := acceptBlockHeader state first.1 first.2
      (met first.1 first.2 List.mem_cons_self)
    rw [Node.processNewBlockHeaders]
    split
    · next found =>
      rw [found] at headed
      exact headed
    · next found =>
      rw [found] at headed
      apply headed.trans
      apply induction
      intro block input later
      exact met block input (List.mem_cons_of_mem first later)

end Extends

/-! ## Calls under a lock -/

theorem chain_of_underMain {node next : NodeState}
    {change : ChainState → ChainState}
    (taken : underMain node change = some next) :
    next.chain = change node.chain := by
  rw [(underMain_eq_some taken).2]

theorem chain_of_underMutex {node next : NodeState} {block : CBlockIndex}
    {change : ChainState → ChainState}
    (taken : underMutex node block change = some next) :
    next.chain = change node.chain := by
  rw [(underMutex_eq_some taken).2]

/-! ## Nodes -/

/-- All that a node handles is indexed. -/
structure NodeIndexed (genesis : CBlockHeader) (node : NodeState) :
    Prop where
  indexed : WellIndexed genesis node.chain node.abc.cached
  unlinked : ∀ pair ∈ node.chain.blocksUnlinked,
    pair.2 ∈ node.chain.index

theorem IndexClosed.isLowerSet {state : ChainState}
    (closed : IndexClosed state) :
    IsLowerSet {block | block ∈ state.index} := by
  intro block ancestor below member
  exact closed block member ancestor below

/-- A header that is added to the index has an indexed parent. -/
theorem WellIndexed.acceptBlockHeader
    {genesis : CBlockHeader} {chain : ChainState}
    {cached : Option CBlockIndex}
    (indexed : WellIndexed genesis chain cached) (block : CBlockIndex)
    (input : AcceptInput) :
    WellIndexed genesis (acceptBlockHeader chain block input).1 cached := by
  rcases acceptBlockHeader_cases chain block input with
    same | ⟨parent, header, rfl, unknown, passed, added⟩
  · rw [same]
    exact indexed
  · have parentKnown := (checkNewHeader_passed passed).1
    rw [added, addToBlockIndex, if_neg unknown]
    constructor
    · intro member inside
      rcases List.mem_cons.mp inside with rfl | old
      · exact Branch.le_child_of_le (indexed.root parent parentKnown) header
      · exact indexed.root member old
    · intro member inside ancestor below
      rcases List.mem_cons.mp inside with rfl | old
      · rcases (Branch.le_child_iff _ _ _).mp below with rfl | lower
        · exact List.mem_cons_self
        · exact List.mem_cons_of_mem _
            (indexed.closed parent parentKnown ancestor lower)
      · exact List.mem_cons_of_mem _
          (indexed.closed member old ancestor below)
    · exact List.mem_cons_of_mem _ indexed.tip
    · intro member candidate
      exact List.mem_cons_of_mem _ (indexed.candidates member candidate)
    · intro member found
      exact List.mem_cons_of_mem _ (indexed.cached member found)

namespace NodeIndexed

variable {config : Config} {genesis : CBlockHeader} {node next : NodeState}

theorem within (indexed : NodeIndexed genesis node) :
    Within {block | block ∈ node.chain.index} node.chain :=
  ⟨indexed.indexed.candidates, indexed.unlinked⟩

/-- The same index, with a tip, candidates and waiting blocks from it. -/
theorem of_within {chain : ChainState} {abc : AbcPhase}
    {accepted : List (CBlockIndex × CBlockIndex)}
    (indexed : WellIndexed genesis chain abc.cached)
    (within : Within {block | block ∈ chain.index} chain) :
    NodeIndexed genesis ⟨chain, abc, accepted⟩ :=
  ⟨indexed, within.unlinked⟩

section

variable (indexed : NodeIndexed genesis node)

include indexed

theorem acceptBlockHeader (block : CBlockIndex) (input : AcceptInput) :
    NodeIndexed genesis
      { node with
        chain := (acceptBlockHeader node.chain block input).1 } := by
  constructor
  · exact indexed.indexed.acceptBlockHeader block input
  · intro pair waiting
    have headed : Extends (fun _ => True) node.chain _ :=
      Extends.acceptBlockHeader node.chain block input fun _ => trivial
    have same := (acceptBlockHeader_facts node.chain block input).2.2.2.2.1
    apply headed.keeps
    apply indexed.unlinked
    rw [← same]
    exact waiting

theorem processNewBlockHeaders (headers : List (CBlockIndex × AcceptInput)) :
    NodeIndexed genesis
      { node with
        chain := (processNewBlockHeaders headers node.chain).1 } := by
  induction headers generalizing node with
  | nil => exact indexed
  | cons first rest induction =>
    have headed := indexed.acceptBlockHeader first.1 first.2
    rw [Node.processNewBlockHeaders]
    split
    · next found =>
      rw [found] at headed
      exact headed
    · next found =>
      rw [found] at headed
      exact induction headed

theorem acceptBlock (config : Config) (block : CBlockIndex)
    (input : AcceptInput) (accepted : List (CBlockIndex × CBlockIndex)) :
    NodeIndexed genesis
      ⟨(acceptBlock config node.chain block input).1, node.abc,
        accepted⟩ := by
  have headed := indexed.acceptBlockHeader block input
  rw [Node.acceptBlock]
  split
  · next found =>
    rw [found] at headed
    exact ⟨headed.indexed, headed.unlinked⟩
  · next headedChain found =>
    rw [found] at headed
    have known := mem_index_of_acceptBlockHeader found
    have body := headed.within.acceptBlockBody
      headed.indexed.closed.isLowerSet config known input
    obtain ⟨index, tip⟩ :=
      acceptBlockBody_keeps config headedChain block input
    apply of_within
    · apply headed.indexed.of_index index
      · rw [tip]
        exact headed.indexed.tip
      · exact body.candidates
      · exact headed.indexed.cached
    · rw [index]
      exact body

/-- A command that keeps the index and the waiting blocks. -/
theorem of_command {chain : ChainState} {abc : AbcPhase}
    {accepted : List (CBlockIndex × CBlockIndex)}
    (wellIndexed : WellIndexed genesis chain abc.cached)
    (index : chain.index = node.chain.index)
    (unlinked : chain.blocksUnlinked = node.chain.blocksUnlinked) :
    NodeIndexed genesis ⟨chain, abc, accepted⟩ := by
  constructor
  · exact wellIndexed
  · intro pair waiting
    show pair.2 ∈ chain.index
    rw [index]
    apply indexed.unlinked
    rw [← unlinked]
    exact waiting

theorem clearWhere (config : Config) (selected : CBlockIndex → Bool)
    (change : BlockStatus → BlockStatus) :
    NodeIndexed genesis
      { node with chain := clearWhere config node.chain selected change } := by
  obtain ⟨index, _, _, _, unlinked⟩ :=
    clearWhere_fields config node.chain selected change
  exact indexed.of_command (indexed.indexed.clearWhere config selected change)
    index unlinked

theorem invalidateBlock (idle : node.abc = .idle) (config : Config)
    (input : WalkInput) (block : CBlockIndex) :
    NodeIndexed genesis
      { node with
        chain := (invalidateBlock config input node.chain block).1 } := by
  have wellIndexed := indexed.indexed
  rw [idle] at wellIndexed
  have invalidated := wellIndexed.invalidateBlock config input block
  cases linked : CBlockIndex.pprev block with
  | none =>
    rw [Node.invalidateBlock, linked]
    exact indexed
  | some pprev =>
    have retreats :=
      invalidateBlock_retreats config input node.chain linked
    apply indexed.of_command
    · rw [idle]
      exact invalidated
    · exact retreats.marks.index
    · exact retreats.marks.unlinked

theorem parkBlock (idle : node.abc = .idle) (config : Config)
    (input : WalkInput) (block : CBlockIndex) :
    NodeIndexed genesis
      { node with
        chain := (parkBlock config input node.chain block).1 } := by
  have invalidated := indexed.invalidateBlock idle config input block
  obtain ⟨index, tip, candidates, _, _, unlinked⟩ :=
    parkBlock_fields config input node.chain block
  apply invalidated.of_command
  · apply invalidated.indexed.of_index index
    · rw [tip]
      exact invalidated.indexed.tip
    · rw [candidates]
      exact invalidated.indexed.candidates
    · exact invalidated.indexed.cached
  · exact index
  · exact unlinked

theorem restart (config : Config) {coinsTip : CBlockIndex}
    (known : coinsTip ∈ node.chain.index) :
    NodeIndexed genesis
      { node with
        chain := restart config node.chain coinsTip
        abc := .idle } := by
  have wellIndexed :
      WellIndexed genesis (Node.restart config node.chain coinsTip) none := by
    refine indexed.indexed.of_index rfl known ?_ ?_
    · intro member candidate
      exact (mem_candidates_restart candidate).1
    · intro member found
      cases found
  constructor
  · exact wellIndexed
  · intro pair waiting
    obtain ⟨block, member, found⟩ := List.mem_filterMap.mp waiting
    cases linked : CBlockIndex.pprev block with
    | none => simp [linked] at found
    | some parent =>
      simp only [linked] at found
      split at found
      · rw [Option.some_inj] at found
        rw [← found]
        exact member
      · cases found

theorem pass (config : Config) (input : PassInput) {startingTip : CBlockIndex}
    {cached : Option CBlockIndex} {connected : Bool}
    (locked : node.abc = .locked startingTip cached connected) :
    NodeIndexed genesis
      { node with
        chain := (abcPass config input node.chain startingTip cached
          connected).1
        abc := (abcPass config input node.chain startingTip cached
          connected).2 } := by
  have wellIndexed := indexed.indexed
  rw [locked] at wellIndexed
  have passed := wellIndexed.abcPass config input startingTip connected
  have weakens :=
    (wellIndexed.above.abcPass config input startingTip connected).2
  apply of_within passed
  rw [weakens.index]
  exact indexed.within.of_weakens wellIndexed.closed.isLowerSet weakens

theorem arrival {event : Event} (taken : ArrivalStep config node event next) :
    NodeIndexed genesis next := by
  cases taken with
  | accept block input => exact indexed.acceptBlock config block input _
  | phase event abc cached =>
    apply indexed.of_command _ rfl rfl
    apply indexed.indexed.of_index rfl indexed.indexed.tip
      indexed.indexed.candidates
    intro block found
    exact indexed.indexed.cached block (cached block found)
  | pass input startingTip cached connected locked =>
    exact indexed.pass config input locked

end

/-- A call under `cs_main`. -/
theorem underMain {change : ChainState → ChainState}
    (changed : NodeIndexed genesis { node with chain := change node.chain })
    (taken : underMain node change = some next) :
    NodeIndexed genesis next := by
  obtain ⟨-, rfl⟩ := underMain_eq_some taken
  exact changed

/-- A call under the chainstate mutex. -/
theorem underMutex {block : CBlockIndex}
    {change : ChainState → ChainState}
    (changed : node.abc = .idle →
      NodeIndexed genesis { node with chain := change node.chain })
    (taken : underMutex node block change = some next) :
    NodeIndexed genesis next := by
  obtain ⟨⟨idle, -⟩, rfl⟩ := underMutex_eq_some taken
  exact changed idle

theorem finalizeBlock (indexed : NodeIndexed genesis node)
    (block : CBlockIndex) (checkpointConflict persisted : Bool) :
    NodeIndexed genesis
      { node with
        chain := (finalizeBlock node.chain block checkpointConflict
          persisted).1 } := by
  rcases finalizeBlock_cases node.chain block checkpointConflict persisted
    with ⟨_, same⟩ | ⟨pinned, _⟩
  · rw [same]
    exact indexed
  · rw [pinned]
    exact ⟨⟨indexed.indexed.root, indexed.indexed.closed,
      indexed.indexed.tip, indexed.indexed.candidates,
      indexed.indexed.cached⟩, indexed.unlinked⟩

theorem unfinalizeBlock (indexed : NodeIndexed genesis node)
    (persisted : Bool) :
    NodeIndexed genesis
      { node with chain := unfinalizeBlock node.chain persisted } := by
  rw [Node.unfinalizeBlock]
  split
  · exact indexed
  · exact ⟨⟨indexed.indexed.root, indexed.indexed.closed,
      indexed.indexed.tip, indexed.indexed.candidates,
      indexed.indexed.cached⟩, indexed.unlinked⟩

/-- Every critical section keeps to the index. -/
theorem step (indexed : NodeIndexed genesis node) {event : Event}
    (taken : step config node event = some next) :
    NodeIndexed genesis next := by
  cases event with
  | acceptBlock | activateBestChain | beginIteration | pass | interrupt =>
    exact indexed.arrival (arrivalStep_of_step rfl taken)
  | finalizeBlock block checkpointConflict persisted =>
    rw [Node.step] at taken
    refine underMain ?_ taken
    exact indexed.finalizeBlock block checkpointConflict persisted
  | unfinalizeBlock persisted =>
    rw [Node.step] at taken
    refine underMain ?_ taken
    exact indexed.unfinalizeBlock persisted
  | invalidateBlock block input =>
    rw [Node.step] at taken
    refine underMutex (fun idle => ?_) taken
    exact indexed.invalidateBlock idle config input block
  | parkBlock block input =>
    rw [Node.step] at taken
    refine underMutex (fun idle => ?_) taken
    exact indexed.parkBlock idle config input block
  | unparkBlock block =>
    refine underMain ?_ taken
    split
    · rw [unparkBlock]
      split
      · exact indexed.clearWhere config _ _
      · exact indexed
    · exact indexed
  | resetBlockFailureFlags block =>
    refine underMain ?_ taken
    split
    · exact indexed.clearWhere config _ _
    · exact indexed
  | restart coinsTip =>
    rw [Node.step] at taken
    split at taken
    · next known =>
      rw [← Option.some_inj.mp taken]
      exact indexed.restart config known
    · cases taken

theorem nodeStep (indexed : NodeIndexed genesis node) {event : NodeEvent}
    (taken : nodeStep config node event = some next) :
    NodeIndexed genesis next := by
  cases event with
  | processNewBlockHeaders headers =>
    rw [Node.nodeStep] at taken
    refine underMain ?_ taken
    exact indexed.processNewBlockHeaders headers
  | core event => exact indexed.step taken

end NodeIndexed

/-! ## What a section adds to the index -/

/-- The block and the verdicts that a section hands to `AcceptBlockHeader`. -/
def NodeEvent.Delivers (block : CBlockIndex) (input : AcceptInput) :
    NodeEvent → Prop
  | .processNewBlockHeaders headers => (block, input) ∈ headers
  | .core (.acceptBlock delivered verdicts) =>
    block = delivered ∧ input = verdicts
  | .core _ => False

/-- The operator commands and a restart do not touch the index. -/
theorem index_step_of_command
    {config : Config} {node next : NodeState} {event : Event}
    (command : event.isArrival = false)
    (taken : step config node event = some next) :
    next.chain.index = node.chain.index := by
  cases event with
  | acceptBlock | activateBestChain | beginIteration | pass | interrupt =>
    cases command
  | finalizeBlock block checkpointConflict persisted =>
    rw [step] at taken
    rw [chain_of_underMain taken]
    rcases finalizeBlock_cases node.chain block checkpointConflict
      persisted with ⟨_, same⟩ | ⟨pinned, _⟩
    · rw [same]
    · rw [pinned]
  | unfinalizeBlock persisted =>
    rw [step] at taken
    rw [chain_of_underMain taken, unfinalizeBlock]
    split <;> rfl
  | invalidateBlock block input =>
    rw [step] at taken
    rw [chain_of_underMutex taken]
    exact index_invalidateBlock config input node.chain block
  | parkBlock block input =>
    rw [step] at taken
    rw [chain_of_underMutex taken,
      (parkBlock_fields config input node.chain block).1]
    exact index_invalidateBlock config input node.chain block
  | unparkBlock block =>
    rw [step] at taken
    rw [chain_of_underMain taken]
    split
    · rw [unparkBlock]
      split
      · exact (clearWhere_fields config node.chain _ _).1
      · rfl
    · rfl
  | resetBlockFailureFlags block =>
    rw [step] at taken
    rw [chain_of_underMain taken]
    split
    · exact (clearWhere_fields config node.chain _ _).1
    · rfl
  | restart coinsTip =>
    rw [step] at taken
    split at taken
    · rw [← Option.some_inj.mp taken]
      rfl
    · cases taken

theorem index_step_acceptBlock
    {config : Config} {node next : NodeState} {block : CBlockIndex}
    {input : AcceptInput}
    (taken : step config node (.acceptBlock block input) = some next) :
    next.chain.index =
      (acceptBlockHeader node.chain block input).1.index := by
  rw [step] at taken
  split at taken
  · cases taken
  · rw [← Option.some_inj.mp taken]
    exact index_acceptBlock config node.chain block input

/-- The index never loses an entry, and gains only delivered headers that have
passed their checks. -/
theorem NodeIndexed.extends_nodeStep
    {config : Config} {genesis : CBlockHeader} {node next : NodeState}
    {condition : CBlockIndex → Prop} {event : NodeEvent}
    (indexed : NodeIndexed genesis node)
    (met : ∀ block input, event.Delivers block input →
      input.matchesCheckpoints = true → condition block)
    (taken : Node.nodeStep config node event = some next) :
    Extends condition node.chain next.chain := by
  cases event with
  | processNewBlockHeaders headers =>
    rw [Node.nodeStep] at taken
    rw [chain_of_underMain taken]
    exact Extends.processNewBlockHeaders node.chain met
  | core event =>
    rw [Node.nodeStep] at taken
    cases arrives : event.isArrival with
    | false => exact .of_index (index_step_of_command arrives taken)
    | true =>
      cases arrivalStep_of_step arrives taken with
      | accept block input =>
        have headed := Extends.acceptBlockHeader node.chain block
          input (met block input ⟨rfl, rfl⟩)
        exact headed.trans
          (.of_index (index_acceptBlock config node.chain block input))
      | phase event abc cached => exact .of_index rfl
      | pass input startingTip cached connected locked =>
        have wellIndexed := indexed.indexed
        rw [locked] at wellIndexed
        exact .of_index
          (wellIndexed.above.abcPass config input startingTip
            connected).2.index

/-- An idle node whose index contains the ancestors of its entries. -/
theorem nodeIndexed_storedNode
    {tip : CBlockIndex} {index : List CBlockIndex}
    (stored : CBlockIndex → Bool) (known : tip ∈ index)
    (root : ∀ block ∈ index, firstBlock ≤ block)
    (closed : ∀ block ∈ index, ∀ ancestor ∈ branchAbove none block,
      ancestor ∈ index) :
    NodeIndexed (Branch.label firstBlock) (storedNode index stored tip) := by
  constructor
  · constructor
    · exact root
    · intro block member ancestor below
      exact closed block member ancestor (mem_branchAbove_none below)
    · exact known
    · intro block candidate
      rw [List.mem_singleton.mp candidate]
      exact known
    · intro block found
      cases found
  · intro pair waiting
    cases waiting

/--
Along every run, all that a node handles stays indexed.  The index loses no
entry, and each entry it gains was delivered by an event of the run and matched
the checkpoints.
-/
theorem run_indexed
    {config : Config} {genesis : CBlockHeader} {node final : NodeState}
    {events : List NodeEvent} (indexed : NodeIndexed genesis node)
    (taken : run (nodeStep config) node events = some final) :
    NodeIndexed genesis final ∧
      Extends
        (fun block => ∃ event ∈ events, ∃ input,
          event.Delivers block input ∧ input.matchesCheckpoints = true)
        node.chain final.chain := by
  induction events generalizing node with
  | nil =>
    cases taken
    exact ⟨indexed, .of_index rfl⟩
  | cons event rest induction =>
    obtain ⟨next, stepped, remaining⟩ := run_cons_eq_some taken
    obtain ⟨kept, later⟩ := induction (indexed.nodeStep stepped) remaining
    refine ⟨kept, .trans (indexed.extends_nodeStep ?_ stepped)
      ⟨later.keeps, fun block member => ?_⟩⟩
    · intro block input delivered matched
      exact ⟨event, List.mem_cons_self, input, delivered, matched⟩
    · obtain old | ⟨other, inside, found⟩ := later.adds block member
      · exact .inl old
      · exact .inr ⟨other, List.mem_cons_of_mem _ inside, found⟩

theorem run_of_header_indexed :
    ∃ final, run (nodeStep mainConfig)
        (storedNode [firstBlock] (fun _ => true) firstBlock)
        [.processNewBlockHeaders [(line firstBlock 1 1, validBlock)]] =
          some final ∧
      NodeIndexed (Branch.label firstBlock) final := by
  refine Exists.imp (fun final taken => ⟨taken, ?_⟩) ⟨_, rfl⟩
  exact (run_indexed
    (nodeIndexed_storedNode _ (by decide) (by decide) (by decide)) taken).1

end B3Chain.Node
