import B3Chain.Cache.History
import B3Chain.Pow.HeaderCheck

/-!
# Which pads a new tip protects

`UpdateTip` pins the pads that mined the new tip and its two predecessors: the
pads keyed by the parent of the tip, by its grandparent and by the block before
that.  A child of the tip is verified with the pad keyed by the tip itself, and
that pad is never pinned; a flood of requests drops it again.
-/

namespace B3Chain.Cache

open B3Chain.Chain
open B3Chain.Crypto
open B3Chain.Linked
open B3Chain.Machine
open B3Chain.Pow
open B3Chain.Words

universe u v

variable {Key : Type u} {Pad : Type v} [DecidableEq Key]

/-! ## Pinning along the chain -/

/-- The loop of `UpdateTip` over the tip and its predecessors. -/
def pinWalk (build : Key → Pad) (hash : CBlockIndex → Key) :
    Nat → Option CBlockIndex → PadCache Key Pad → Option (PadCache Key Pad)
  | 0, _, cache => some cache
  | _ + 1, none, cache => some cache
  | count + 1, some w, cache =>
    match CBlockIndex.pprev w with
    | none => pinWalk build hash count none cache
    | some parent =>
      (cache.pin build (hash parent)).bind fun pinned =>
        pinWalk build hash count (some parent) pinned.2

/-- What `UpdateTip` does to the cache. -/
def updateTip (build : Key → Pad) (hash : CBlockIndex → Key)
    (cache : PadCache Key Pad) (pindexNew : CBlockIndex) :
    Option (PadCache Key Pad) :=
  pinWalk build hash 3 (some pindexNew) cache

variable {depth capacity : Nat} {tiers : Tiers Key} {cache : PadCache Key Pad}

theorem pin_pinned (bounded : tiers.Bounded depth capacity) (key : Key) :
    (callTiers depth capacity tiers (.pin key)).pinned =
      (key :: tiers.pinned.erase key).take capacity := by
  have requested : (tiers.request depth key).Bounded depth capacity :=
    bounded.request
  rw [callTiers, Tiers.protect_pinned requested, Tiers.request_pinned]

/-- Three pins of different keys fill the protected tier. -/
theorem pinned_of_three_pins (bounded : tiers.Bounded depth 3)
    {first second third : Key} (distinct : [first, second, third].Nodup) :
    (callsTiers depth 3 tiers [.pin first, .pin second, .pin third]).pinned =
      [third, second, first] := by
  have kept : ∀ {held : Tiers Key} (key : Key), held.Bounded depth 3 →
      (callTiers depth 3 held (.pin key)).Bounded depth 3 :=
    fun key within => within.request.protect Tiers.holds_request
  simp only [List.nodup_cons, List.mem_cons, List.not_mem_nil, or_false,
    not_or] at distinct
  obtain ⟨⟨firstSecond, firstThird⟩, secondThird, -⟩ := distinct
  simp only [callsTiers, List.foldl_cons, List.foldl_nil]
  rw [pin_pinned (kept second (kept first bounded)),
    pin_pinned (kept first bounded), pin_pinned bounded]
  simp [List.take_succ_cons, List.erase_cons_tail, firstSecond, firstThird,
    secondThird]

/-- `UpdateTip` on a tip with three predecessors. -/
theorem Refines.updateTip (refines : Refines cache depth capacity tiers)
    (build : Key → Pad) (hash : CBlockIndex → Key)
    {tip first second third : CBlockIndex}
    (tipParent : CBlockIndex.pprev tip = some first)
    (firstParent : CBlockIndex.pprev first = some second)
    (secondParent : CBlockIndex.pprev second = some third) :
    ∃ next, Cache.updateTip build hash cache tip = some next ∧
      Refines next depth capacity
        (callsTiers depth capacity tiers
          [.pin (hash first), .pin (hash second), .pin (hash third)]) := by
  obtain ⟨_, one, pinnedOne, refinesOne⟩ := refines.pin build (hash first)
  obtain ⟨_, two, pinnedTwo, refinesTwo⟩ :=
    refinesOne.pin build (hash second)
  obtain ⟨_, three, pinnedThree, refinesThree⟩ :=
    refinesTwo.pin build (hash third)
  refine ⟨three, ?_, ?_⟩
  · simp only [Cache.updateTip, pinWalk, tipParent, firstParent, secondParent,
      pinnedOne, pinnedTwo, pinnedThree, Option.bind_some]
  · rw [callsTiers, List.foldl_cons, List.foldl_cons, List.foldl_cons,
      List.foldl_nil]
    exact refinesThree

/-! ## Floods -/

/-- A sequence of `GetOrBuild` calls. -/
def requestCalls (keys : List Key) : List (Call Key) :=
  keys.map .getOrBuild

theorem Refines.requests (refines : Refines cache depth capacity tiers)
    (build : Key → Pad) (keys : List Key) :
    ∃ next, run (Cache.call build) cache (requestCalls keys) = some next ∧
      Refines next depth capacity (tiers.requests depth keys) := by
  have walked := refines.calls build (requestCalls keys)
  rw [callsTiers, requestCalls, List.foldl_map] at walked
  exact walked

/-- Pinned keys stay resident under every sequence of requests. -/
theorem Refines.pinned_stays (refines : Refines cache depth capacity tiers)
    (build : Key → Pad) (requests : List Key) :
    ∃ later, run (Cache.call build) cache (requestCalls requests) =
        some later ∧ ∀ key ∈ tiers.pinned, key ∈ later.map := by
  obtain ⟨later, asked, held⟩ := refines.requests build requests
  refine ⟨later, asked, fun key pinned =>
    (held.represents.mem_map key).mpr (.inr ?_)⟩
  rw [Tiers.requests_pinned]
  exact pinned

/-- A key that is not pinned can be flooded out whenever it was built. -/
theorem Refines.loose_dropped [Fintype Key]
    (refines : Refines cache depth capacity tiers) (build : Key → Pad)
    (many : 2 * depth + 1 ≤ Fintype.card Key) {key : Key}
    (loose : key ∉ tiers.pinned) (requests : List Key) :
    ∃ flood built flooded, key ∉ flood ∧
      run (Cache.call build) cache (requestCalls (requests ++ [key])) =
        some built ∧
      key ∈ built.map ∧
      run (Cache.call build) built (requestCalls flood) = some flooded ∧
      key ∉ flooded.map := by
  obtain ⟨built, asked, held⟩ := refines.requests build (requests ++ [key])
  have still :
      key ∉ (tiers.requests depth (requests ++ [key])).pinned := by
    rw [Tiers.requests_pinned]
    exact loose
  obtain ⟨flood, other, dropped⟩ :=
    Tiers.exists_flood held.bounded many still
  obtain ⟨flooded, asking, final⟩ := held.requests build flood
  refine ⟨flood, built, flooded, other, asked, ?_, asking, ?_⟩
  · rw [held.represents.mem_map, Tiers.requests, List.foldl_append]
    exact Tiers.holds_request
  · rw [final.represents.mem_map]
    exact dropped

theorem card_lane : Fintype.card Lane = 2 ^ 256 := by
  have byte : Fintype.card Byte = 2 ^ 8 :=
    (Fintype.card_congr
      ⟨BitVec.toFin, BitVec.ofFin, fun _ => rfl, fun _ => rfl⟩).trans
      (Fintype.card_fin _)
  rw [Fintype.card_fun, byte, Fintype.card_fin]
  norm_num

theorem exists_three_predecessors {tip : CBlockIndex}
    (high : 3 ≤ CBlockIndex.nHeight tip) :
    ∃ first second third,
      CBlockIndex.pprev tip = some first ∧
      CBlockIndex.pprev first = some second ∧
      CBlockIndex.pprev second = some third ∧
      third < second ∧ second < first ∧ first < tip := by
  rcases tip with _ | ⟨_ | ⟨_ | ⟨third, c⟩, b⟩, a⟩
  · simp [CBlockIndex.nHeight] at high
  · simp [CBlockIndex.nHeight] at high
  · simp [CBlockIndex.nHeight] at high
  · exact ⟨_, _, third, rfl, rfl, rfl, Tree.Branch.parent_lt_child _ _,
      Tree.Branch.parent_lt_child _ _, Tree.Branch.parent_lt_child _ _⟩

/--
After `UpdateTip` the pads keyed by the parent and the grandparent of the tip
stay resident under every sequence of requests.  The pad keyed by the tip, built
at any later time, is dropped by some sequence of requests for other keys.
-/
theorem tip_pad_is_never_protected (hashes : HashFunctions)
    {depth : Nat} (deep : 4 ≤ depth) (sized : depth < 2 ^ 64)
    (history : List (Call Lane)) {tip : CBlockIndex}
    (high : 3 ≤ CBlockIndex.nHeight tip)
    (distinct : Set.InjOn (getBlockHash hashes) (Set.Iic tip)) :
    ∃ parent grandparent updated,
      CBlockIndex.pprev tip = some parent ∧
      CBlockIndex.pprev parent = some grandparent ∧
      ((run (call (initScratchpad hashes.blake3))
          (PadCache.new depth kDefaultPinnedCapacity) history).bind
        fun cache => updateTip (initScratchpad hashes.blake3)
          (getBlockHash hashes) cache tip) = some updated ∧
      (∀ requests, ∃ later,
        run (call (initScratchpad hashes.blake3)) updated
          (requestCalls requests) = some later ∧
        ∀ ancestor ∈ [parent, grandparent],
          getBlockHash hashes ancestor ∈ later.map) ∧
      (∀ requests, ∃ flood built flooded,
        getBlockHash hashes tip ∉ flood ∧
        run (call (initScratchpad hashes.blake3)) updated
          (requestCalls (requests ++ [getBlockHash hashes tip])) =
            some built ∧
        getBlockHash hashes tip ∈ built.map ∧
        run (call (initScratchpad hashes.blake3)) built
          (requestCalls flood) = some flooded ∧
        getBlockHash hashes tip ∉ flooded.map) := by
  obtain ⟨first, second, third, tipParent, firstParent, secondParent,
    thirdBelow, secondBelow, firstBelow⟩ := exists_three_predecessors high
  have different : ∀ {lower upper : CBlockIndex}, lower < upper →
      upper ≤ tip →
      getBlockHash hashes lower ≠ getBlockHash hashes upper :=
    fun below inside equal =>
      below.ne (distinct (below.le.trans inside) inside equal)
  have keys : [getBlockHash hashes first, getBlockHash hashes second,
      getBlockHash hashes third].Nodup := by
    simp only [List.nodup_cons, List.mem_cons, List.not_mem_nil, or_false,
      not_or, not_false_eq_true, List.nodup_nil, and_true]
    exact ⟨⟨(different secondBelow firstBelow.le).symm,
      (different (thirdBelow.trans secondBelow) firstBelow.le).symm⟩,
      (different thirdBelow (secondBelow.trans firstBelow).le).symm⟩
  have depthEq : effectiveDepth depth = depth := if_pos (by omega)
  have capacityEq : min kDefaultPinnedCapacity (depth - 1) = 3 := by
    rw [kDefaultPinnedCapacity]
    omega
  have fresh : Refines
      (PadCache.new depth kDefaultPinnedCapacity : PadCache Lane Crypto.Pad)
      (effectiveDepth depth)
      (min kDefaultPinnedCapacity (effectiveDepth depth - 1)) ⟨[], []⟩ :=
    new_refines depth kDefaultPinnedCapacity
  rw [depthEq, capacityEq] at fresh
  obtain ⟨cache, ran, refines⟩ :=
    fresh.calls (initScratchpad hashes.blake3) history
  obtain ⟨updated, ended, after⟩ :=
    refines.updateTip (initScratchpad hashes.blake3) (getBlockHash hashes)
      tipParent firstParent secondParent
  have pinned := pinned_of_three_pins refines.bounded keys
  refine ⟨first, second, updated, tipParent, firstParent, ?_, ?_, ?_⟩
  · rw [ran, Option.bind_some, ended]
  · intro requests
    obtain ⟨later, asked, held⟩ :=
      after.pinned_stays (initScratchpad hashes.blake3) requests
    rw [pinned] at held
    refine ⟨later, asked, fun ancestor member => held _ ?_⟩
    rcases List.mem_pair.mp member with rfl | rfl <;> simp
  · apply after.loose_dropped (initScratchpad hashes.blake3)
      (by rw [card_lane]; omega)
    rw [pinned]
    simp only [List.mem_cons, List.not_mem_nil, or_false, not_or]
    exact ⟨(different (thirdBelow.trans (secondBelow.trans firstBelow))
      le_rfl).symm, (different (secondBelow.trans firstBelow) le_rfl).symm,
      (different firstBelow le_rfl).symm⟩

/-! ## A short chain -/

/-- A hash function that tells headers apart by the lowest nonce byte. -/
def nonceHashes : HashFunctions where
  blake3 := fun _ _ => 0
  sha256d := fun bytes index => if index = 0 then bytes 76 else 0

def nonceHeader (nonce : Nat) : CBlockHeader where
  nVersion := 1
  hashMerkleRoot := 0
  nTime := 0
  nBits := 0
  nNonce := nonce

/-- A chain of four blocks. -/
def nonceChain : CBlockIndex :=
  .child (.child (.child (.root (nonceHeader 1)) (nonceHeader 2))
    (nonceHeader 3)) (nonceHeader 4)

/-- The key with the given lowest byte. -/
def byteKey (byte : Byte) : Lane :=
  fun index => if index = 0 then byte else 0

theorem nonceChain_distinct :
    Set.InjOn (getBlockHash nonceHashes) (Set.Iic nonceChain) := by
  intro left leftBelow right rightBelow equal
  simp only [Set.mem_Iic, nonceChain, Tree.Branch.le_child_iff,
    Tree.Branch.le_root_iff] at leftBelow rightBelow
  have lowest : getBlockHash nonceHashes left 0 =
      getBlockHash nonceHashes right 0 := by
    rw [equal]
  rcases leftBelow with rfl | rfl | rfl | rfl <;>
    rcases rightBelow with rfl | rfl | rfl | rfl <;>
    first
    | rfl
    | exact absurd lowest (by decide +kernel)

/--
In a cache of depth eight the pad of a new tip at height three is built after
`UpdateTip` has run, and eight requests for other keys drop it.
-/
theorem eight_requests_drop_the_tip_pad :
    let build := initScratchpad nonceHashes.blake3
    let tipHash := getBlockHash nonceHashes nonceChain
    let flood := (List.range 8).map fun count => byteKey (16 + count)
    let updated := updateTip build (getBlockHash nonceHashes)
      (PadCache.new 8 kDefaultPinnedCapacity) nonceChain
    let built := updated.bind fun cache =>
      run (call build) cache (requestCalls [tipHash])
    let flooded := built.bind fun cache =>
      run (call build) cache (requestCalls flood)
    tipHash ∉ flood ∧
      (built.map fun cache => decide (tipHash ∈ cache.map)) = some true ∧
      (flooded.map fun cache => decide (tipHash ∈ cache.map)) =
        some false := by
  decide +kernel

/-- The theorem at the short chain, after a flood that ran before it. -/
theorem nonceChain_tip_pad :
    ∃ parent grandparent updated,
      CBlockIndex.pprev nonceChain = some parent ∧
      CBlockIndex.pprev parent = some grandparent ∧
      ((run (call (initScratchpad nonceHashes.blake3))
          (PadCache.new 8 kDefaultPinnedCapacity)
          [.getOrBuild (byteKey 9), .pin (byteKey 8)]).bind
        fun cache => updateTip (initScratchpad nonceHashes.blake3)
          (getBlockHash nonceHashes) cache nonceChain) = some updated ∧
      (∀ requests, ∃ later,
        run (call (initScratchpad nonceHashes.blake3)) updated
          (requestCalls requests) = some later ∧
        ∀ ancestor ∈ [parent, grandparent],
          getBlockHash nonceHashes ancestor ∈ later.map) ∧
      (∀ requests, ∃ flood built flooded,
        getBlockHash nonceHashes nonceChain ∉ flood ∧
        run (call (initScratchpad nonceHashes.blake3)) updated
          (requestCalls
            (requests ++ [getBlockHash nonceHashes nonceChain])) =
            some built ∧
        getBlockHash nonceHashes nonceChain ∈ built.map ∧
        run (call (initScratchpad nonceHashes.blake3)) built
          (requestCalls flood) = some flooded ∧
        getBlockHash nonceHashes nonceChain ∉ flooded.map) :=
  tip_pad_is_never_protected nonceHashes (by decide) (by decide) _
    (by decide) nonceChain_distinct

end B3Chain.Cache
