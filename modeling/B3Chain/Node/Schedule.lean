import B3Chain.Machine.Run
import B3Chain.Node.Operator

/-!
# Interleavings of a node

The critical sections of a running node as events of one machine.  An
`AcceptBlock` call and the calls that need `cs_main` only can fall between two
iterations of `ActivateBestChain`, but not into one; the calls that need the
chainstate mutex wait until no `ActivateBestChain` is running.

`InvalidateBlock`, and `ParkBlock` with it, holds the chainstate mutex but gives
`cs_main` back between two disconnections.  Here its walk is one event, and what
others do under `cs_main` in the middle of a walk is outside the model.

`accepted` is a history variable: each stored block with the tip that its
reorganisation check has seen.  No transition reads it.
-/

namespace B3Chain.Node

open B3Chain.Chain
open B3Chain.Consensus
open B3Chain.Machine
open B3Chain.Tree

/-- The state of a node. -/
structure NodeState where
  chain : ChainState
  abc : AbcPhase
  accepted : List (CBlockIndex × CBlockIndex)

/-- The critical sections. -/
inductive Event where
  | acceptBlock (block : CBlockIndex) (input : AcceptInput)
  /-- `ActivateBestChain` is entered. -/
  | activateBestChain
  /-- It takes `cs_main` for an iteration. -/
  | beginIteration
  /-- A pass of the inner loop of an iteration. -/
  | pass (input : PassInput)
  /-- It stops between two iterations because of a shutdown. -/
  | interrupt
  | finalizeBlock (block : CBlockIndex) (checkpointConflict persisted : Bool)
  | unfinalizeBlock (persisted : Bool)
  | invalidateBlock (block : CBlockIndex) (input : WalkInput)
  | parkBlock (block : CBlockIndex) (input : WalkInput)
  | unparkBlock (block : CBlockIndex)
  | resetBlockFailureFlags (block : CBlockIndex)
  /-- A restart after a shutdown that has flushed the index. -/
  | restart (coinsTip : CBlockIndex)

namespace AbcPhase

/-- The cached `pindexMostWork`. -/
def cached : AbcPhase → Option CBlockIndex
  | .idle => none
  | .unlocked pindexMostWork => pindexMostWork
  | .locked _ pindexMostWork _ => pindexMostWork

/-- `cs_main` is held by an iteration. -/
def holdsMain : AbcPhase → Bool
  | .locked _ _ _ => true
  | _ => false

end AbcPhase

/-- A call that needs `cs_main` only. -/
def underMain (node : NodeState) (change : ChainState → ChainState) :
    Option NodeState :=
  if node.abc.holdsMain then none
  else some { node with chain := change node.chain }

/-- A call on an indexed block that needs the chainstate mutex. -/
def underMutex (node : NodeState) (block : CBlockIndex)
    (change : ChainState → ChainState) : Option NodeState :=
  if node.abc = .idle ∧ block ∈ node.chain.index then
    some { node with chain := change node.chain }
  else none

theorem underMain_eq_some {node next : NodeState}
    {change : ChainState → ChainState}
    (taken : underMain node change = some next) :
    node.abc.holdsMain = false ∧
      next = { node with chain := change node.chain } := by
  rw [underMain] at taken
  split at taken
  · cases taken
  · next free =>
    exact ⟨Bool.eq_false_of_not_eq_true free, (Option.some_inj.mp taken).symm⟩

theorem underMutex_eq_some {node next : NodeState} {block : CBlockIndex}
    {change : ChainState → ChainState}
    (taken : underMutex node block change = some next) :
    (node.abc = .idle ∧ block ∈ node.chain.index) ∧
      next = { node with chain := change node.chain } := by
  rw [underMutex] at taken
  split at taken
  · next enabled => exact ⟨enabled, (Option.some_inj.mp taken).symm⟩
  · cases taken

/-- One critical section; `none` when it cannot run in this state. -/
def step (config : Config) (node : NodeState) : Event → Option NodeState
  | .acceptBlock block input =>
    if node.abc.holdsMain then none
    else
      let result := acceptBlock config node.chain block input
      some
        { node with
          chain := result.1
          accepted :=
            if result.2 = .stored then
              (block, node.chain.tip) :: node.accepted
            else node.accepted }
  | .activateBestChain =>
    if node.abc = .idle then some { node with abc := .unlocked none }
    else none
  | .beginIteration =>
    match node.abc with
    | .unlocked pindexMostWork =>
      some { node with
        abc := .locked node.chain.tip pindexMostWork false }
    | _ => none
  | .pass input =>
    match node.abc with
    | .locked startingTip pindexMostWork blocksConnected =>
      let result :=
        abcPass config input node.chain startingTip pindexMostWork
          blocksConnected
      some { node with chain := result.1, abc := result.2 }
    | _ => none
  | .interrupt =>
    match node.abc with
    | .unlocked _ => some { node with abc := .idle }
    | _ => none
  | .finalizeBlock block checkpointConflict persisted =>
    underMain node fun chain =>
      (finalizeBlock chain block checkpointConflict persisted).1
  | .unfinalizeBlock persisted =>
    underMain node fun chain => unfinalizeBlock chain persisted
  | .invalidateBlock block input =>
    underMutex node block fun chain =>
      (invalidateBlock config input chain block).1
  | .parkBlock block input =>
    underMutex node block fun chain =>
      (parkBlock config input chain block).1
  | .unparkBlock block =>
    underMain node fun chain =>
      if block ∈ chain.index then unparkBlock config chain block else chain
  | .resetBlockFailureFlags block =>
    underMain node fun chain =>
      if block ∈ chain.index then resetBlockFailureFlags config chain block
      else chain
  | .restart coinsTip =>
    if coinsTip ∈ node.chain.index then
      some
        { node with
          chain := restart config node.chain coinsTip
          abc := .idle }
    else none

/-! ## One pass -/

/-- The candidate a pass moves to, if there is anything to do. -/
def passTarget (config : Config) (node : NodeState) : Option CBlockIndex :=
  match node.abc with
  | .locked _ pindexMostWork _ =>
    match chooseMostWork config node.chain pindexMostWork with
    | (searched, some best) =>
      if best = searched.tip then none else some best
    | (_, none) => none
  | _ => none

/-- The number of blocks a pass disconnects. -/
def passDisconnected (config : Config) (node : NodeState)
    (input : PassInput) : Nat :=
  match node.abc with
  | .locked _ pindexMostWork _ =>
    match chooseMostWork config node.chain pindexMostWork with
    | (searched, some best) =>
      if best = searched.tip then 0
      else (activateBestChainStep config input searched best).disconnected
    | (_, none) => 0
  | _ => 0

theorem cached_leaveIteration
    {state : ChainState} {cached : Option CBlockIndex} {connected : Bool}
    {best : CBlockIndex}
    (found : (leaveIteration state cached connected).cached = some best) :
    cached = some best := by
  rw [leaveIteration] at found
  split at found
  · cases found
  · split at found
    · cases found
    · exact found

/-- The chain state after a pass. -/
theorem abcPass_chain
    (config : Config) (input : PassInput) (state : ChainState)
    (startingTip : CBlockIndex) (cached : Option CBlockIndex)
    (connected : Bool) :
    (abcPass config input state startingTip cached connected).1 =
      match chooseMostWork config state cached with
      | (searched, none) => searched
      | (searched, some best) =>
        if best = searched.tip then searched
        else (activateBestChainStep config input searched best).state := by
  rw [abcPass]
  rcases chooseMostWork config state cached with ⟨searched, _ | best⟩
  · rfl
  · simp only []
    split
    · rfl
    · split
      · split <;> rfl
      · rfl

/-- A pass caches only the candidate it has worked on. -/
theorem abcPass_cached
    {config : Config} {input : PassInput} {state : ChainState}
    {startingTip : CBlockIndex} {cached : Option CBlockIndex}
    {connected : Bool} {best : CBlockIndex}
    (found :
      (abcPass config input state startingTip cached connected).2.cached =
        some best) :
    (chooseMostWork config state cached).2 = some best := by
  rw [abcPass] at found
  split at found
  · cases cached_leaveIteration found
  · next searched chosen equal =>
    rw [equal]
    have kept :
        ∀ invalidFound : Bool,
          (if invalidFound then none else some chosen) = some best →
            some chosen = some best := by
      intro invalidFound keeps
      cases invalidFound with
      | true => cases keeps
      | false => exact keeps
    simp only [] at found
    split at found
    · exact cached_leaveIteration found
    · split at found
      · split at found
        · exact kept _ found
        · change (leaveIteration _ _ true).cached = some best at found
          exact kept _ (cached_leaveIteration found)
      · cases found

/-! ## Branches above a block -/

/-- All that activation can move to lies above `base`. -/
structure Above (base : CBlockIndex) (chain : ChainState)
    (cached : Option CBlockIndex) : Prop where
  tip : base ≤ chain.tip
  candidates : ∀ block ∈ chain.setBlockIndexCandidates, base ≤ block
  cached : ∀ block, cached = some block → base ≤ block

/-- What a pass works on was a candidate or cached. -/
theorem Above.chosen
    {base : CBlockIndex} {state : ChainState} {cached : Option CBlockIndex}
    (above : Above base state cached) {config : Config} {best : CBlockIndex}
    (chosen : (chooseMostWork config state cached).2 = some best) :
    base ≤ best := by
  rcases (chooseMostWork_spec config state cached).2.2 best chosen with
    candidate | inCache
  · exact above.candidates best candidate
  · exact above.cached best inCache

/-- A pass moves the tip down, or towards what it works on. -/
theorem Above.moves
    {base : CBlockIndex} {state : ChainState} {cached : Option CBlockIndex}
    (above : Above base state cached) (config : Config) (input : PassInput)
    (startingTip : CBlockIndex) (connected : Bool) :
    Weakens state
        (abcPass config input state startingTip cached connected).1 ∧
      base ≤
        (abcPass config input state startingTip cached connected).1.tip ∧
      ∃ reached,
        (reached = state.tip ∨
          (chooseMostWork config state cached).2 = some reached) ∧
        (abcPass config input state startingTip cached connected).1.tip ≤
          reached := by
  have onBest (best : CBlockIndex)
      (found : (chooseMostWork config state cached).2 = some best) :
      base ≤ best :=
    above.chosen found
  obtain ⟨weakens, tip, -⟩ := chooseMostWork_spec config state cached
  rw [abcPass_chain]
  split
  · next searched chosen =>
    rw [chosen] at weakens tip
    have same : searched.tip = state.tip := tip
    exact ⟨weakens, same ▸ above.tip, state.tip, .inl rfl, same.le⟩
  · next searched best chosen =>
    rw [chosen] at weakens tip onBest ⊢
    have same : searched.tip = state.tip := tip
    have onTip : base ≤ searched.tip := same ▸ above.tip
    split
    · exact ⟨weakens, onTip, state.tip, .inl rfl, same.le⟩
    · obtain ⟨fork, forked, aboveFork⟩ :=
        exists_findFork onTip (onBest best rfl)
      obtain ⟨stepWeakens, overFork, moved, _⟩ :=
        activateBestChainStep_spec config input searched best fork forked
      refine ⟨weakens.trans stepWeakens, le_trans aboveFork overFork, ?_⟩
      rcases moved with back | forward
      · exact ⟨state.tip, .inl rfl, same ▸ back⟩
      · exact ⟨best, .inr rfl, forward⟩

/-- A pass stays above every block that its candidates are above. -/
theorem Above.abcPass
    {base : CBlockIndex} {state : ChainState} {cached : Option CBlockIndex}
    (above : Above base state cached) (config : Config) (input : PassInput)
    (startingTip : CBlockIndex) (connected : Bool) :
    Above base
        (Node.abcPass config input state startingTip cached connected).1
        (Node.abcPass config input state startingTip cached
          connected).2.cached ∧
      Weakens state
        (Node.abcPass config input state startingTip cached connected).1 := by
  obtain ⟨weakens, onTip, _⟩ :=
    above.moves config input startingTip connected
  exact ⟨⟨onTip, fun block candidate =>
      above.candidates block (weakens.candidates block candidate),
    fun best found => above.chosen (abcPass_cached found)⟩, weakens⟩

/-- Acceptance stays above every block that the accepted block is above. -/
theorem Above.acceptBlock
    {base : CBlockIndex} {state : ChainState} {cached : Option CBlockIndex}
    (above : Above base state cached) (config : Config)
    (block : CBlockIndex) (input : AcceptInput)
    (linked : UnlinkedLinked state)
    (blockAbove :
      (Node.acceptBlock config state block input).2 = .stored →
        base ≤ block) :
    Above base (Node.acceptBlock config state block input).1 cached := by
  have facts := acceptBlock_facts config state block input linked
  refine ⟨?_, fun member inside => ?_, above.cached⟩
  · rw [facts.admits.tip]
    exact above.tip
  · by_cases stored : (Node.acceptBlock config state block input).2 = .stored
    · rcases facts.admits.candidates member inside with old | higher
      · exact above.candidates member old
      · exact le_trans (blockAbove stored) higher
    · exact above.candidates member (facts.kept stored member inside)

/-! ## Block arrival -/

/-- The events of block arrival and activation, without the operator. -/
def Event.isArrival : Event → Bool
  | .acceptBlock _ _ => true
  | .activateBestChain => true
  | .beginIteration => true
  | .pass _ => true
  | .interrupt => true
  | _ => false

/-- What an arrival event can do. -/
inductive ArrivalStep (config : Config) (node : NodeState) :
    Event → NodeState → Prop where
  | accept (block : CBlockIndex) (input : AcceptInput) :
      ArrivalStep config node (.acceptBlock block input)
        { node with
          chain := (acceptBlock config node.chain block input).1
          accepted :=
            if (acceptBlock config node.chain block input).2 = .stored then
              (block, node.chain.tip) :: node.accepted
            else node.accepted }
  | phase (event : Event) (abc : AbcPhase)
      (cached : ∀ block, abc.cached = some block →
        node.abc.cached = some block) :
      ArrivalStep config node event { node with abc := abc }
  | pass (input : PassInput) (startingTip : CBlockIndex)
      (cached : Option CBlockIndex) (connected : Bool)
      (locked : node.abc = .locked startingTip cached connected) :
      ArrivalStep config node (.pass input)
        { node with
          chain := (abcPass config input node.chain startingTip cached
            connected).1
          abc := (abcPass config input node.chain startingTip cached
            connected).2 }

theorem arrivalStep_of_step
    {config : Config} {node next : NodeState} {event : Event}
    (arrival : event.isArrival = true)
    (taken : step config node event = some next) :
    ArrivalStep config node event next := by
  cases event with
  | acceptBlock block input =>
    rw [step] at taken
    split at taken
    · cases taken
    · rw [Option.some_inj] at taken
      exact taken ▸ .accept block input
  | activateBestChain | interrupt =>
    rw [step] at taken
    split at taken
    · rw [Option.some_inj] at taken
      exact taken ▸ .phase _ _ fun block found => nomatch found
    · cases taken
  | beginIteration =>
    rw [step] at taken
    split at taken
    · next cached unlocked =>
      rw [Option.some_inj] at taken
      refine taken ▸ .phase _ _ fun block found => ?_
      rw [unlocked]
      exact found
    · cases taken
  | pass input =>
    rw [step] at taken
    split at taken
    · next startingTip cached connected locked =>
      rw [Option.some_inj] at taken
      exact taken ▸ .pass input startingTip cached connected locked
    · cases taken
  | finalizeBlock | unfinalizeBlock | invalidateBlock | parkBlock
  | unparkBlock | resetBlockFailureFlags | restart => cases arrival

/-- Everything grows from one genesis block. -/
structure Grounded (genesis : CBlockIndex) (node : NodeState) : Prop where
  above : Above genesis node.chain node.abc.cached
  index : ∀ block ∈ node.chain.index, genesis ≤ block
  unlinked : UnlinkedLinked node.chain

/-- A block that was stored descends from genesis. -/
theorem genesis_le_of_stored
    {config : Config} {genesis block : CBlockIndex} {state : ChainState}
    {input : AcceptInput}
    (index : ∀ member ∈ state.index, genesis ≤ member)
    (linked : UnlinkedLinked state)
    (stored : (acceptBlock config state block input).2 = .stored) :
    genesis ≤ block := by
  have facts := acceptBlock_facts config state block input linked
  rcases facts.admits.index block (facts.indexed stored) with
    old | ⟨_, parent, known, child⟩
  · exact index block old
  · exact le_trans (index parent known) (lt_of_pprev child).le

theorem UnlinkedLinked.of_admits
    {block : CBlockIndex} {before after : ChainState}
    (linked : UnlinkedLinked before) (admits : Admits block before after) :
    UnlinkedLinked after := by
  intro pair member
  rcases admits.unlinked pair member with old | new
  · exact linked pair old
  · exact new

theorem Grounded.arrival
    {config : Config} {genesis : CBlockIndex} {node next : NodeState}
    {event : Event} (grounded : Grounded genesis node)
    (taken : ArrivalStep config node event next) :
    Grounded genesis next := by
  cases taken with
  | accept block input =>
    have facts :=
      acceptBlock_facts config node.chain block input grounded.unlinked
    refine ⟨?_, fun member inside => ?_,
      grounded.unlinked.of_admits facts.admits⟩
    · exact grounded.above.acceptBlock config block input grounded.unlinked
        (genesis_le_of_stored grounded.index grounded.unlinked)
    · rcases facts.admits.index member inside with
        old | ⟨rfl, parent, known, child⟩
      · exact grounded.index member old
      · exact le_trans (grounded.index parent known) (lt_of_pprev child).le
  | phase event abc cached =>
    exact ⟨⟨grounded.above.tip, grounded.above.candidates,
      fun block found => grounded.above.cached block (cached block found)⟩,
      grounded.index, grounded.unlinked⟩
  | pass input startingTip cached connected locked =>
    have above : Above genesis node.chain cached := by
      have known := grounded.above
      rw [locked] at known
      exact known
    obtain ⟨passed, weakens⟩ :=
      above.abcPass config input startingTip connected
    refine ⟨passed, fun member inside => ?_, fun pair inside => ?_⟩
    · rw [weakens.index] at inside
      exact grounded.index member inside
    · rcases weakens.unlinked pair inside with old | new
      · exact grounded.unlinked pair old
      · exact new.1

/-! ## Nodes on the main network -/

/-- The root of the example trees. -/
def firstBlock : CBlockIndex :=
  .root ⟨0, 0, 0, Network.genesisBits .main, 0⟩

/-- A line of blocks of equal work on top of `base`; lines from one base are
told apart by their version. -/
def line (base : CBlockIndex) (version : Nat) : Nat → CBlockIndex
  | 0 => base
  | count + 1 =>
    .child (line base version count)
      ⟨version, 0, count, Network.genesisBits .main, 0⟩

/-- A number that tells the blocks of the example trees apart. -/
def rank (block : CBlockIndex) : Nat :=
  8 * CBlockIndex.nHeight block + (Branch.label block).nVersion

/-- A node of the main network that has left initial block download. -/
def mainConfig : Config where
  params := Network.params .main
  address := rank
  minimumChainWork := 0
  isInitialBlockDownload := false

/-- A chain state with the data of all `stored` blocks and nothing but the tip
to activate. -/
def storedState (index : List CBlockIndex) (stored : CBlockIndex → Bool)
    (tip : CBlockIndex) : ChainState where
  index := index
  entry block :=
    if stored block then
      { status :=
          { validity :=
              if block ≤ tip then blockValidScripts
              else blockValidTransactions
            haveData := true
            failedValid := false
            failedChild := false
            parked := false }
        nTx := 1
        chainTxCount := CBlockIndex.nHeight block + 1
        nSequenceId := rank block }
    else Entry.fresh
  tip := tip
  setBlockIndexCandidates := [tip]
  blocksUnlinked := []
  nBlockSequenceId := 10000
  finalizedBlock := none
  persistedPin := none

/-- An idle node with such a chain state. -/
def storedNode (index : List CBlockIndex) (stored : CBlockIndex → Bool)
    (tip : CBlockIndex) : NodeState :=
  ⟨storedState index stored tip, .idle, []⟩

theorem grounded_storedNode
    {genesis tip : CBlockIndex} {index : List CBlockIndex}
    (stored : CBlockIndex → Bool) (onTip : genesis ≤ tip)
    (onIndex : ∀ block ∈ index, genesis ≤ block) :
    Grounded genesis (storedNode index stored tip) := by
  refine ⟨⟨onTip, fun block member => ?_, fun block found => nomatch found⟩,
    onIndex, fun pair member => nomatch member⟩
  rw [List.mem_singleton.mp member]
  exact onTip

/-- A requested block that passes every check outside the block index. -/
def validBlock : AcceptInput where
  checkBlockHeader := none
  contextualCheckBlockHeader := none
  matchesCheckpoints := true
  minPowChecked := true
  fRequested := true
  checkBlock := none
  contextualCheckBlock := none
  diskOk := true
  vtxSize := 1

/-- Every block connects and the disk works. -/
def connectAll : PassInput :=
  ⟨fun _ => .connected, fun _ => true⟩

/-- A walk that nothing stops. -/
def walkFreely : WalkInput :=
  ⟨fun _ => true, fun _ => false⟩

end B3Chain.Node
