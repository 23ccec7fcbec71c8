import B3Chain.Node.PadRequests

/-!
# Which pads are built for known parents

Headers, connected blocks and new tips ask only for pads of indexed blocks, and
a cache of such pads stays one.  So the pads that a node builds are those of
known parents exactly as long as each block that goes into `CheckBlock` first
thing has a parent in the index.
-/

namespace B3Chain.Node

open B3Chain.Cache
open B3Chain.Chain
open B3Chain.Consensus
open B3Chain.Crypto
open B3Chain.Linked
open B3Chain.Machine
open B3Chain.Pow
open B3Chain.Tree

variable {hashes : HashFunctions} {config : Config}

/-! ## The keys of known blocks -/

variable {key : Lane} {pindex : CBlockIndex} {block : CBlock}
  {cache : PadCache Lane Pad}

theorem KnownHash.mono {index larger : List CBlockIndex}
    (known : KnownHash hashes index key)
    (grows : ∀ block ∈ index, block ∈ larger) :
    KnownHash hashes larger key := by
  obtain ⟨block, member, hashed⟩ := known
  exact ⟨block, grows block member, hashed⟩

/-- The parent of an indexed block is indexed. -/
theorem knownHash_prevBlockHash {state : ChainState}
    (closed : IndexClosed state) {parent : CBlockIndex}
    (known : pindex ∈ state.index)
    (linked : CBlockIndex.pprev pindex = some parent) :
    KnownHash hashes state.index (prevBlockHash hashes pindex) := by
  refine ⟨parent, closed pindex known parent (lt_of_pprev linked).le, ?_⟩
  rw [prevBlockHash, linked]

/-- Each use is for a key that is known at its moment, and the index of that
moment lies in `index`. -/
def UsesKnown (hashes : HashFunctions) (index : List CBlockIndex)
    (uses : List PadUse) : Prop :=
  ∀ use ∈ uses, KnownHash hashes use.index use.key ∧
    ∀ block ∈ use.index, block ∈ index

namespace UsesKnown

variable {index larger : List CBlockIndex}

theorem nil : UsesKnown hashes index [] := by
  intro use member
  cases member

theorem append {left right : List PadUse}
    (first : UsesKnown hashes index left)
    (second : UsesKnown hashes index right) :
    UsesKnown hashes index (left ++ right) := by
  intro use member
  rcases List.mem_append.mp member with early | late
  · exact first use early
  · exact second use late

theorem mono {uses : List PadUse} (known : UsesKnown hashes index uses)
    (grows : ∀ block ∈ index, block ∈ larger) :
    UsesKnown hashes larger uses := by
  intro use member
  obtain ⟨found, inside⟩ := known use member
  exact ⟨found, fun block there => grows block (inside block there)⟩

/-- One use at the moment of `index`. -/
theorem single (known : KnownHash hashes index key) (pins : Bool) :
    UsesKnown hashes index [⟨index, key, pins⟩] := by
  intro use member
  rw [List.mem_singleton.mp member]
  exact ⟨known, fun block there => there⟩

theorem powUses (known : KnownHash hashes index key) (config : Config)
    (nBits : Nat) :
    UsesKnown hashes index (powUses config index key nBits) := by
  rw [Node.powUses]
  split
  · exact single known false
  · exact nil

theorem checkBlockUses (known : KnownHash hashes index key) (config : Config)
    (nBits : Nat) (block : CBlock) (fCheckPOW : Bool) :
    UsesKnown hashes index
      (checkBlockUses config index key nBits block fCheckPOW) := by
  rw [Node.checkBlockUses]
  split
  · exact nil
  · exact powUses known config nBits

/-- A header is verified only if its parent has been found. -/
theorem headerUses (state : ChainState) (pindex : CBlockIndex) :
    UsesKnown hashes state.index
      (headerUses hashes config state pindex) := by
  cases pindex with
  | root header => exact nil
  | child parent header =>
    rw [Node.headerUses]
    split
    · exact nil
    · split
      · exact nil
      · next found =>
        split
        · exact nil
        · exact powUses ⟨parent, not_not.mp found, rfl⟩ config _

theorem headersUses (headers : List (CBlockIndex × AcceptInput))
    (state : ChainState) :
    UsesKnown hashes (processNewBlockHeaders headers state).1.index
      (headersUses hashes config headers state) := by
  induction headers generalizing state with
  | nil => exact nil
  | cons first rest induction =>
    have headed : Extends (fun _ => True) state _ :=
      Extends.acceptBlockHeader state first.1 first.2 fun _ => trivial
    rw [Node.headersUses, processNewBlockHeaders]
    rcases found : acceptBlockHeader state first.1 first.2 with
      ⟨after, _ | rejection⟩
    · rw [found] at headed
      have later : Extends (fun _ => True) after
          (processNewBlockHeaders rest after).1 :=
        Extends.processNewBlockHeaders after fun _ _ _ _ => trivial
      apply append
      · apply (headerUses state first.1).mono
        intro block member
        exact later.keeps block (headed.keeps block member)
      · exact induction after
    · rw [found] at headed
      apply append
      · exact (headerUses state first.1).mono headed.keeps
      · exact nil

/-! ## Tips and connected blocks -/

variable {state : ChainState}

theorem tipKeys (closed : IndexClosed state) (count : Nat)
    {tip : CBlockIndex} (known : tip ∈ state.index) :
    ∀ key ∈ tipKeys hashes count tip, KnownHash hashes state.index key := by
  induction count generalizing tip with
  | zero =>
    intro key member
    cases member
  | succ count induction =>
    rw [Node.tipKeys]
    split
    · intro key member
      cases member
    · next parent linked =>
      have parentKnown : parent ∈ state.index :=
        closed tip known parent (lt_of_pprev linked).le
      intro key member
      rcases List.mem_cons.mp member with rfl | later
      · exact ⟨parent, parentKnown, rfl⟩
      · exact induction parentKnown key later

theorem tipUses (closed : IndexClosed state) {tip : CBlockIndex}
    (known : tip ∈ state.index) :
    UsesKnown hashes state.index (tipUses hashes state.index tip) := by
  intro use member
  obtain ⟨key, pinned, rfl⟩ := List.mem_map.mp member
  exact ⟨tipKeys closed 3 known key pinned, fun block there => there⟩

theorem retreatUses (closed : IndexClosed state) (stop : CBlockIndex)
    {tip : CBlockIndex} (known : tip ∈ state.index) :
    UsesKnown hashes state.index
      (retreatUses hashes state.index stop tip) := by
  induction tip with
  | root header => exact nil
  | child parent header induction =>
    have parentKnown : parent ∈ state.index :=
      closed _ known parent (Branch.parent_lt_child parent header).le
    rw [Node.retreatUses]
    split
    · exact nil
    · exact (tipUses closed parentKnown).append (induction parentKnown)

theorem connectUses (closed : IndexClosed state)
    (blocks : CBlockIndex → CBlock) (calls : CBlockIndex → ConnectCall)
    (input : PassInput) (oldTip : CBlockIndex) {path : List CBlockIndex}
    (known : ∀ block ∈ path, block ∈ state.index) :
    UsesKnown hashes state.index
      (connectUses hashes config state.index blocks calls input oldTip
        path) := by
  induction path with
  | nil => exact nil
  | cons pindexConnect rest induction =>
    have connectKnown := known pindexConnect List.mem_cons_self
    rw [Node.connectUses]
    apply append
    · split
      · cases linked : CBlockIndex.pprev pindexConnect with
        | none =>
          simp only [Node.checkBlockUses, Option.isSome_none,
            Bool.not_false, Bool.or_true, if_true]
          exact nil
        | some parent =>
          exact checkBlockUses
            (knownHash_prevBlockHash closed connectKnown linked) config
            _ _ _
      · exact nil
    · split
      · apply (tipUses closed connectKnown).append
        split
        · exact nil
        · apply induction
          intro block member
          exact known block (List.mem_cons_of_mem _ member)
      · exact nil

end UsesKnown

/-! ## The keys of a section -/

/-- What a section does to the node, if it does anything. -/
theorem padNodeStep_cases {node next : NodeState} {event : PadEvent}
    (taken : padNodeStep hashes config node event = some next) :
    next = node ∨ ∃ inner, nodeStep config node inner = some next := by
  cases event with
  | processNewBlockHeaders headers =>
    rw [padNodeStep] at taken
    exact Or.inr ⟨_, taken⟩
  | timed event =>
    cases event with
    | processNewBlock pindex block delivery first clocks =>
      rw [padNodeStep, timedStep] at taken
      split at taken
      · cases taken
      · split at taken
        · exact Or.inl (Option.some_inj.mp taken).symm
        · exact Or.inr ⟨.core _, (nodeStep_core _ _ _).trans taken⟩
    | acceptBlock | activateBestChain | beginIteration | pass
    | interrupt =>
      rw [padNodeStep, timedStep] at taken
      exact Or.inr ⟨.core _, (nodeStep_core _ _ _).trans taken⟩
  | processUnlinked hashPrevBlock header block =>
    rw [padNodeStep] at taken
    exact Or.inl (underMain_eq_some taken).2
  | command event =>
    rw [padNodeStep] at taken
    split at taken
    · cases taken
    · exact Or.inr ⟨.core _, (nodeStep_core _ _ _).trans taken⟩

section Sections

variable {genesis : CBlockHeader} {node next : NodeState}
  {event : PadEvent}

theorem NodeIndexed.padNodeStep (indexed : NodeIndexed genesis node)
    (taken : padNodeStep hashes config node event = some next) :
    NodeIndexed genesis next ∧
      ∀ block ∈ node.chain.index, block ∈ next.chain.index := by
  rcases padNodeStep_cases taken with rfl | ⟨inner, stepped⟩
  · exact ⟨indexed, fun block member => member⟩
  · have extended : Extends (fun _ => True) node.chain next.chain :=
      indexed.extends_nodeStep (fun _ _ _ _ => trivial) stepped
    exact ⟨indexed.nodeStep stepped, extended.keeps⟩

/-- A pass moves to an indexed block. -/
theorem NodeIndexed.passTarget (indexed : NodeIndexed genesis node)
    {best : CBlockIndex} (found : passTarget config node = some best) :
    best ∈ node.chain.index := by
  rw [Node.passTarget] at found
  split at found
  · next startingTip cached connected locked =>
    have wellIndexed := indexed.indexed
    rw [locked] at wellIndexed
    have known := (chooseMostWork_spec config node.chain cached).2.2
    split at found
    · next searched chosen equal =>
      split at found
      · cases found
      · rw [Option.some_inj] at found
        rw [equal, found] at known
        rcases known best rfl with candidate | inCache
        · exact wellIndexed.candidates best candidate
        · exact wellIndexed.cached best inCache
    · cases found
  · cases found

theorem NodeIndexed.passUses (indexed : NodeIndexed genesis node)
    (blocks : CBlockIndex → CBlock) (calls : CBlockIndex → ConnectCall)
    (input : PassInput) :
    UsesKnown hashes node.chain.index
      (passUses hashes config node blocks calls input) := by
  have closed := indexed.indexed.closed
  rw [Node.passUses]
  split
  · exact .nil
  · next best found =>
    have known := indexed.passTarget found
    apply UsesKnown.append
    · exact UsesKnown.retreatUses closed _ indexed.indexed.tip
    · split
      · apply UsesKnown.connectUses closed
        intro block member
        exact closed best known block
          (le_of_mem_branchAbove (List.mem_reverse.mp member))
      · exact .nil

/-- `AcceptBlock` asks for the pad of an indexed block, unless it checks
genesis. -/
theorem NodeIndexed.acceptUses (indexed : NodeIndexed genesis node)
    {input : AcceptInput}
    (resolves : CBlockIndex.pprev pindex = none →
      reachesCheckBlock config node.chain pindex input = true →
      Resolved hashes config node.chain.index (prevBlockHash hashes pindex)
        (CBlockIndex.nBits pindex) block) :
    UsesKnown hashes (Node.acceptBlockHeader node.chain pindex input).1.index
      (acceptUses hashes config node.chain pindex block input) := by
  have headed := indexed.acceptBlockHeader pindex input
  have grows : Extends (fun _ => True) node.chain _ :=
    Extends.acceptBlockHeader node.chain pindex input fun _ => trivial
  rw [Node.acceptUses]
  apply UsesKnown.append
  · exact (UsesKnown.headerUses node.chain pindex).mono grows.keeps
  · split
    · next reached =>
      cases linked : CBlockIndex.pprev pindex with
      | none =>
        rcases resolves linked reached with checked | invalid | known
        · rw [checkBlockUses, checked]
          exact .nil
        · rw [checkBlockUses, powUses, invalid]
          split <;> exact .nil
        · exact UsesKnown.checkBlockUses (known.mono grows.keeps) config
            _ _ _
      | some parent =>
        have known : pindex ∈
            (Node.acceptBlockHeader node.chain pindex input).1.index := by
          rw [reachesCheckBlock] at reached
          split at reached
          · cases reached
          · next found =>
            rw [found]
            exact mem_index_of_acceptBlockHeader found
        exact UsesKnown.checkBlockUses
          (knownHash_prevBlockHash headed.indexed.closed known linked)
          config _ _ _
    · exact .nil

/-- A block with a resolved parent. -/
theorem Resolved.checkBlockUses {index : List CBlockIndex} {nBits : Nat}
    (resolved : Resolved hashes config index key nBits block) :
    UsesKnown hashes index
      (checkBlockUses config index key nBits block true) := by
  rcases resolved with checked | invalid | known
  · rw [Node.checkBlockUses, checked]
    exact .nil
  · rw [Node.checkBlockUses, powUses, invalid]
    split <;> exact .nil
  · exact UsesKnown.checkBlockUses known config _ _ _

/-- `ProcessNewBlock` asks for known keys if the parent is resolved. -/
theorem NodeIndexed.processUses (indexed : NodeIndexed genesis node)
    (delivery : Delivery) (first : Nat → Int) (clocks : Clocks)
    (resolved : Resolved hashes config node.chain.index
      (prevBlockHash hashes pindex) (CBlockIndex.nBits pindex) block) :
    ∃ bound,
      UsesKnown hashes bound
        (processUses hashes config node.chain pindex block delivery first
          clocks) ∧
      ∀ next, timedStep hashes config node
          (.processNewBlock pindex block delivery first clocks) =
            some next →
        ∀ member ∈ bound, member ∈ next.chain.index := by
  have checked := resolved.checkBlockUses
  rw [Node.processUses, timedStep]
  rcases checkBlock hashes config.params pindex block true true first with
    _ | rejection
  · let input := acceptInput hashes config node.chain pindex
      { block with fChecked := true } delivery clocks
    have grows : Extends (fun _ => True) node.chain _ :=
      Extends.acceptBlockHeader node.chain pindex input fun _ => trivial
    have accepted :
        UsesKnown hashes (Node.acceptBlockHeader node.chain pindex input).1.index
          (Node.acceptUses hashes config node.chain pindex
            { block with fChecked := true } input) :=
      indexed.acceptUses fun _ _ => Or.inl rfl
    refine ⟨_, (checked.mono grows.keeps).append accepted, ?_⟩
    intro next taken member inside
    simp only [] at taken
    split at taken
    · cases taken
    · rw [index_step_acceptBlock taken]
      exact inside
  · refine ⟨_, checked.append .nil, ?_⟩
    intro next taken member inside
    simp only [] at taken
    split at taken
    · cases taken
    · rw [← Option.some_inj.mp taken]
      exact inside

/-- If the parents are resolved, a section asks for known keys only, each at a
moment whose index is part of the index it leaves. -/
theorem NodeIndexed.padUses (indexed : NodeIndexed genesis node)
    (resolves : ResolvesParents hashes config ⟨node, cache⟩ event) :
    ∃ bound, UsesKnown hashes bound (padUses hashes config node event) ∧
      ∀ next, Node.padNodeStep hashes config node event = some next →
        ∀ block ∈ bound, block ∈ next.chain.index := by
  have grows : ∀ next, Node.padNodeStep hashes config node event = some next →
      ∀ block ∈ node.chain.index, block ∈ next.chain.index := by
    intro next taken
    exact (indexed.padNodeStep taken).2
  have closed := indexed.indexed.closed
  have onTip := indexed.indexed.tip
  cases event with
  | processNewBlockHeaders headers =>
    refine ⟨_, UsesKnown.headersUses _ node.chain, ?_⟩
    intro next taken block member
    rw [Node.padNodeStep, Node.nodeStep] at taken
    rw [chain_of_underMain taken]
    exact member
  | timed event =>
    cases event with
    | acceptBlock pindex block delivery clocks =>
      refine ⟨_, indexed.acceptUses resolves, ?_⟩
      intro next taken block member
      rw [Node.padNodeStep, timedStep] at taken
      rw [index_step_acceptBlock taken]
      exact member
    | processNewBlock pindex block delivery first clocks =>
      obtain ⟨bound, known, inside⟩ :=
        indexed.processUses delivery first clocks resolves
      refine ⟨bound, known, ?_⟩
      intro next taken
      rw [Node.padNodeStep] at taken
      exact inside next taken
    | pass blocks calls disconnect clock =>
      exact ⟨_, indexed.passUses blocks calls _, grows⟩
    | activateBestChain | beginIteration | interrupt =>
      exact ⟨_, .nil, grows⟩
  | processUnlinked hashPrevBlock header block =>
    exact ⟨_, Resolved.checkBlockUses resolves, grows⟩
  | command event =>
    cases event with
    | invalidateBlock | parkBlock =>
      exact ⟨_, UsesKnown.retreatUses closed _ onTip, grows⟩
    | acceptBlock | activateBestChain | beginIteration | pass | interrupt
    | finalizeBlock | unfinalizeBlock | unparkBlock
    | resetBlockFailureFlags | restart => exact ⟨_, .nil, grows⟩

end Sections

/-! ## The cache -/

/-- A use inserts at most its own key. -/
theorem refines_useStep (hashes : HashFunctions) {depth capacity : Nat}
    {tiers : Tiers Lane} (refines : Refines cache depth capacity tiers)
    (use : PadUse) :
    ∃ after held, useStep hashes cache use = some after ∧
      Refines after depth capacity held ∧
      ∀ key ∈ after.map, key = use.key ∨ key ∈ cache.map := by
  obtain ⟨after, taken, final⟩ :=
    refines.call (initScratchpad hashes.blake3) use.call
  refine ⟨after, _, taken, final, ?_⟩
  intro key member
  have held := (final.represents.mem_map key).mp member
  rw [refines.represents.mem_map]
  rw [PadUse.call] at held
  split at held
  · rcases Tiers.holds_protect_iff.mp held with same | requested
    · exact Or.inl same
    · exact Tiers.eq_or_holds_of_request requested
  · exact Tiers.eq_or_holds_of_request held

/-- A sequence of uses runs through and inserts only its keys. -/
theorem refines_uses (hashes : HashFunctions) {depth capacity : Nat}
    {tiers : Tiers Lane} (refines : Refines cache depth capacity tiers)
    (uses : List PadUse) :
    ∃ after held, run (useStep hashes) cache uses = some after ∧
      Refines after depth capacity held ∧
      ∀ key ∈ after.map, (∃ use ∈ uses, use.key = key) ∨
        key ∈ cache.map := by
  induction uses generalizing cache tiers with
  | nil => exact ⟨cache, tiers, rfl, refines, fun key member => Or.inr member⟩
  | cons use rest induction =>
    obtain ⟨next, held, taken, kept, inserted⟩ :=
      refines_useStep hashes refines use
    obtain ⟨after, final, remaining, ended, later⟩ := induction kept
    refine ⟨after, final, ?_, ended, ?_⟩
    · rw [run, taken, Option.bind_some, remaining]
    · intro key member
      rcases later key member with ⟨other, inside, same⟩ | before
      · exact Or.inl ⟨other, List.mem_cons_of_mem use inside, same⟩
      · rcases inserted key before with rfl | old
        · exact Or.inl ⟨use, List.mem_cons_self, rfl⟩
        · exact Or.inr old

/-! ## Runs -/

/-- All that the node handles is indexed, and the cache holds only pads of
indexed blocks. -/
structure PadSound (hashes : HashFunctions) (genesis : CBlockHeader)
    (state : PadNode) : Prop where
  indexed : NodeIndexed genesis state.node
  refines : ∃ depth capacity tiers,
    Refines state.cache depth capacity tiers
  known : ∀ key ∈ state.cache.map,
    KnownHash hashes state.node.chain.index key

namespace PadSound

variable {genesis : CBlockHeader} {state next : PadNode} {event : PadEvent}
  {depth : Nat}

theorem new (indexed : NodeIndexed genesis state.node)
    (fresh : state.cache = PadCache.new depth kDefaultPinnedCapacity) :
    PadSound hashes genesis state := by
  refine ⟨indexed, ?_, ?_⟩
  · rw [fresh]
    exact ⟨_, _, _, new_refines depth kDefaultPinnedCapacity⟩
  · intro key member
    rw [fresh] at member
    exact absurd member (AList.notMem_empty key)

/-- The cache a section starts with holds only pads of indexed blocks. -/
theorem cacheBefore (sound : PadSound hashes genesis state) (depth : Nat)
    (event : PadEvent) :
    PadSound hashes genesis
      ⟨state.node, cacheBefore depth state event⟩ := by
  unfold Node.cacheBefore
  split
  · exact new sound.indexed rfl
  · exact sound

theorem step (sound : PadSound hashes genesis state)
    (resolves : ResolvesParents hashes config state event)
    (taken : padStep hashes config depth state event = some next) :
    PadSound hashes genesis next := by
  have before := sound.cacheBefore depth event
  obtain ⟨places, capacity, tiers, refines⟩ := before.refines
  obtain ⟨bound, known, inside⟩ := sound.indexed.padUses resolves
  obtain ⟨after, held, ran, kept, keys⟩ :=
    refines_uses hashes refines
      (padUses hashes config state.node event)
  rw [padStep] at taken
  obtain ⟨node, stepped, finished⟩ := Option.bind_eq_some_iff.mp taken
  rw [ran, Option.map_some, Option.some_inj] at finished
  obtain ⟨indexed, grows⟩ := sound.indexed.padNodeStep stepped
  rw [← finished]
  refine ⟨indexed, ⟨_, _, _, kept⟩, ?_⟩
  intro key member
  rcases keys key member with ⟨use, asked, rfl⟩ | old
  · obtain ⟨found, within⟩ := known use asked
    apply found.mono
    intro block there
    exact inside node stepped block (within block there)
  · exact (before.known key old).mono grows

end PadSound

/-! ## Which blocks cost the pad of an unknown parent -/

section Agreement

variable {genesis : CBlockHeader} {state : PadNode} {event : PadEvent}

/-- A block that is hashed for the pad of a known parent is resolved. -/
theorem resolved_of_builds {index : List CBlockIndex} {nBits : Nat}
    {rest : List PadUse}
    (cached : ∀ held ∈ cache.map, KnownHash hashes index held)
    (builds : Along (useStep hashes)
      (fun cache use => use.key ∉ cache.map →
        KnownHash hashes use.index use.key) cache
      (checkBlockUses config index key nBits block true ++ rest)) :
    Resolved hashes config index key nBits block := by
  cases checked : block.fChecked with
  | true => exact Or.inl checked
  | false =>
    cases valid : (deriveTarget nBits config.params.powLimit).isSome with
    | false => exact Or.inr (Or.inl valid)
    | true =>
      rw [checkBlockUses, checked, powUses, valid] at builds
      by_cases held : key ∈ cache.map
      · exact Or.inr (Or.inr (cached key held))
      · exact Or.inr (Or.inr (builds.1 held))

/-- The index does not change when the header of genesis is accepted. -/
theorem acceptBlockHeader_genesis (chain : ChainState) (input : AcceptInput)
    (unlinked : CBlockIndex.pprev pindex = none) :
    (acceptBlockHeader chain pindex input).1 = chain := by
  rcases acceptBlockHeader_cases chain pindex input with
    same | ⟨parent, header, rfl, _⟩
  · exact same
  · cases unlinked

theorem PadSound.resolves_iff (sound : PadSound hashes genesis state)
    (depth : Nat) :
    ResolvesParents hashes config state event ↔
      BuildsKnown hashes config depth state event := by
  constructor
  · intro resolves
    obtain ⟨bound, known, _⟩ := sound.indexed.padUses resolves
    apply along_of_forall
    intro use member cache _
    exact (known use member).1
  · intro builds
    have cached := (sound.cacheBefore depth event).known
    cases event with
    | timed event =>
      cases event with
      | processNewBlock pindex block delivery first clocks =>
        exact resolved_of_builds cached builds
      | acceptBlock pindex block delivery clocks =>
        intro unlinked reached
        rw [BuildsKnown, padUses, acceptUses, reached, if_pos rfl,
          acceptBlockHeader_genesis _ _ unlinked] at builds
        cases pindex with
        | root header =>
          rw [headerUses, List.nil_append,
            ← List.append_nil (checkBlockUses _ _ _ _ _ _)] at builds
          exact resolved_of_builds cached builds
        | child parent header => cases unlinked
      | activateBestChain | beginIteration | pass | interrupt =>
        exact trivial
    | processUnlinked hashPrevBlock header block =>
      rw [BuildsKnown, padUses,
        ← List.append_nil (checkBlockUses _ _ _ _ _ _)] at builds
      exact resolved_of_builds cached builds
    | processNewBlockHeaders | command => exact trivial

end Agreement

/-- In every run from an empty cache, each pad is built for a block that is in
the index at that moment exactly as long as the parent of each block that
`CheckBlock` is called for is resolved. -/
theorem builds_known_pads_iff_parents_resolved
    (hashes : HashFunctions) (config : Config) (genesis : CBlockHeader)
    (depth : Nat) (start : PadNode) (events : List PadEvent)
    (indexed : NodeIndexed genesis start.node)
    (fresh : start.cache = PadCache.new depth kDefaultPinnedCapacity) :
    Along (padStep hashes config depth) (ResolvesParents hashes config)
        start events ↔
      Along (padStep hashes config depth) (BuildsKnown hashes config depth)
        start events := by
  apply along_iff_of_invariant (PadSound hashes genesis)
  · intro state event next sound resolves taken
    exact sound.step resolves taken
  · intro state event sound
    exact sound.resolves_iff depth
  · exact PadSound.new indexed fresh

/-! ## A block with an unknown parent -/

/-- A header on the main network with the given nonce. -/
def mainHeader (nonce : Nat) : CBlockHeader :=
  ⟨1, 0, 0, Network.genesisBits .main, nonce⟩

/-- A block on top of the first block, and one on top of it. -/
def firstChild : CBlockIndex := .child firstBlock (mainHeader 1)

def secondChild : CBlockIndex := .child firstChild (mainHeader 2)

/-- A block without transactions. -/
def emptyBlock : CBlock where
  vtx := []
  serializeSize := 81
  blockMerkleRoot := 0
  mutated := false
  checkSignetBlockSolution := true
  contextualCheckBlock := none
  connectRules := none
  fChecked := false

/-- A node that knows its first block, with an empty cache. -/
def bareNode : PadNode where
  node := storedNode [firstBlock] (fun block => decide (block = firstBlock))
    firstBlock
  cache := PadCache.new 8 kDefaultPinnedCapacity

theorem nodeIndexed_bareNode :
    NodeIndexed (Branch.label firstBlock) bareNode.node :=
  nodeIndexed_storedNode _ (by decide) (by decide) (by decide)

/-- A delivered block, on clocks that stand still. -/
def deliver (pindex : CBlockIndex) : PadEvent :=
  .timed (.processNewBlock pindex emptyBlock plainDelivery (fun _ => 0)
    ⟨fun _ => 0, fun _ => 0⟩)

theorem known_parent_builds_known_pad :
    Along (padStep nonceHashes mainConfig 8)
      (BuildsKnown nonceHashes mainConfig 8) bareNode
      [deliver firstChild] := by
  apply (builds_known_pads_iff_parents_resolved nonceHashes mainConfig
    (Branch.label firstBlock) 8 bareNode [deliver firstChild]
    nodeIndexed_bareNode rfl).mp
  constructor
  · exact Or.inr (Or.inr ⟨firstBlock, List.mem_cons_self, rfl⟩)
  · intro next taken
    exact trivial

/-- A block without transactions is refused whatever its hash is. -/
theorem checkBlock_emptyBlock (hashes : HashFunctions)
    (pindex : CBlockIndex) (elapsed : Nat → Int) :
    ∃ rejection,
      checkBlock hashes mainConfig.params pindex emptyBlock true true
        elapsed = some rejection := by
  rw [checkBlock]
  cases checkBlockHeader hashes mainConfig.params pindex true .tip
    elapsed with
  | some rejection => exact ⟨rejection, rfl⟩
  | none =>
    have signet : mainConfig.params.signetBlocks = false := rfl
    simp only [checkContents, signet, Bool.false_and, Bool.false_eq_true,
      if_false, if_true]
    cases checkMerkleRoot (Branch.label pindex) emptyBlock with
    | some rejection => exact ⟨rejection, rfl⟩
    | none => exact ⟨_, rfl⟩

/-- A peer delivers a block without transactions whose parent nobody has
heard of: the pad of that parent is built and kept, and nothing else
happens. -/
theorem unknown_parent_costs_a_pad :
    ¬ KnownHash nonceHashes bareNode.node.chain.index
        (prevBlockHash nonceHashes secondChild) ∧
      ∃ next,
        padStep nonceHashes mainConfig 8 bareNode (deliver secondChild) =
          some next ∧
        next.node = bareNode.node ∧
        prevBlockHash nonceHashes secondChild ∈ next.cache.map ∧
        ¬ BuildsKnown nonceHashes mainConfig 8 bareNode
          (deliver secondChild) := by
  have unknown : ¬ KnownHash nonceHashes bareNode.node.chain.index
      (prevBlockHash nonceHashes secondChild) := by
    rintro ⟨block, member, same⟩
    rw [List.mem_singleton.mp member] at same
    exact absurd (congrFun same 0) (by decide +kernel)
  have valid : (deriveTarget (CBlockIndex.nBits secondChild)
      mainConfig.params.powLimit).isSome = true := by
    decide +kernel
  obtain ⟨rejection, refused⟩ :=
    checkBlock_emptyBlock nonceHashes secondChild fun _ => 0
  have uses : padUses nonceHashes mainConfig bareNode.node
      (deliver secondChild) =
        [⟨[firstBlock], prevBlockHash nonceHashes secondChild, false⟩] := by
    simp only [padUses, deliver, processUses, refused, checkBlockUses,
      powUses, valid]
    rfl
  obtain ⟨pad, after, built, held⟩ :=
    (new_refines 8 kDefaultPinnedCapacity).getOrBuild
      (initScratchpad nonceHashes.blake3)
      (prevBlockHash nonceHashes secondChild)
  refine ⟨unknown, ⟨bareNode.node, after⟩, ?_, rfl, ?_, ?_⟩
  · have kept : padNodeStep nonceHashes mainConfig bareNode.node
        (deliver secondChild) = some bareNode.node := by
      simp only [padNodeStep, deliver, timedStep, refused]
      rfl
    have asked : run (useStep nonceHashes)
        (cacheBefore 8 bareNode (deliver secondChild))
        [⟨[firstBlock], prevBlockHash nonceHashes secondChild, false⟩] =
          some after := by
      rw [run, useStep, PadUse.call, if_neg Bool.false_ne_true, Cache.call]
      show ((((PadCache.new 8 kDefaultPinnedCapacity).getOrBuild
        (initScratchpad nonceHashes.blake3)
        (prevBlockHash nonceHashes secondChild)).map Prod.snd).bind _) = _
      rw [built]
      rfl
    rw [padStep, kept, uses, Option.bind_some, asked, Option.map_some]
  · exact (held.represents.mem_map _).mpr Tiers.holds_request
  · intro builds
    rw [BuildsKnown, uses] at builds
    exact unknown (builds.1 (AList.notMem_empty _))

end B3Chain.Node
