import B3Chain.Cache.Representation

/-!
# Histories of the cache

Every sequence of complete calls runs through, keeps the representation
invariant and acts on the keys as the same sequence of operations of the
two-tier store.
-/

namespace B3Chain.Cache

open B3Chain.Linked
open B3Chain.Machine

universe u v

variable {Key : Type u} {Pad : Type v}

/-! ## Refinement -/

/-- The cache represents a store that keeps within its bounds. -/
structure Refines (cache : PadCache Key Pad) (depth capacity : Nat)
    (tiers : Tiers Key) : Prop where
  represents : cache.Represents depth capacity tiers
  bounded : tiers.Bounded depth capacity

/-- The depth the constructor settles on. -/
def effectiveDepth (depth : Nat) : Nat := if depth > 0 then depth else 1

theorem new_refines (depth capacity : Nat) :
    Refines (PadCache.new depth capacity : PadCache Key Pad)
      (effectiveDepth depth) (min capacity (effectiveDepth depth - 1))
      ⟨[], []⟩ where
  represents :=
    ⟨rfl, rfl, ⟨List.Perm.refl _, List.nodup_nil,
      by simp [PadCache.listed, PadCache.new]⟩, rfl⟩
  bounded := by
    have positive : 0 < effectiveDepth depth := by
      rw [effectiveDepth]
      split <;> omega
    exact ⟨by omega, Nat.zero_le _, Nat.zero_le _⟩

theorem Refines.clear {cache : PadCache Key Pad} {depth capacity : Nat}
    {tiers : Tiers Key} (refines : Refines cache depth capacity tiers) :
    Refines cache.clear depth capacity ⟨[], []⟩ where
  represents := refines.represents.clear
  bounded := ⟨refines.bounded.reserve, Nat.zero_le _, Nat.zero_le _⟩

variable [DecidableEq Key]

/-- A call as an operation of the two-tier store. -/
def callTiers (depth capacity : Nat) (tiers : Tiers Key) :
    Call Key → Tiers Key
  | .getOrBuild key => tiers.request depth key
  | .pin key => (tiers.request depth key).protect capacity key
  | .unpin key => tiers.release depth key
  | .clear => ⟨[], []⟩

/-- The store after a sequence of calls. -/
def callsTiers (depth capacity : Nat) (tiers : Tiers Key)
    (calls : List (Call Key)) : Tiers Key :=
  calls.foldl (callTiers depth capacity) tiers

namespace Refines

variable {cache : PadCache Key Pad} {depth capacity : Nat}
  {tiers : Tiers Key}

section

variable (refines : Refines cache depth capacity tiers)

include refines

theorem getOrBuild (build : Key → Pad) (key : Key) :
    ∃ pad next, cache.getOrBuild build key = some (pad, next) ∧
      Refines next depth capacity (tiers.request depth key) := by
  obtain ⟨pad, next, taken, after⟩ :=
    refines.represents.getOrBuild refines.bounded.room build key
  exact ⟨pad, next, taken, after, refines.bounded.request⟩

theorem pin (build : Key → Pad) (key : Key) :
    ∃ pad next, cache.pin build key = some (pad, next) ∧
      Refines next depth capacity
        ((tiers.request depth key).protect capacity key) := by
  obtain ⟨pad, built, taken, after⟩ := refines.getOrBuild build key
  obtain ⟨next, promoted, final⟩ :=
    after.represents.promote Tiers.holds_request
  refine ⟨pad, next, ?_, final, after.bounded.protect Tiers.holds_request⟩
  rw [PadCache.pin, taken, Option.bind_some, promoted, Option.map_some]

theorem unpin (key : Key) :
    ∃ next, cache.unpin key = some next ∧
      Refines next depth capacity (tiers.release depth key) := by
  obtain ⟨next, taken, after⟩ :=
    refines.represents.unpin refines.bounded.room.le key
  exact ⟨next, taken, after, refines.bounded.release⟩

/-- One complete call. -/
theorem call (build : Key → Pad) (next : Call Key) :
    ∃ after, Cache.call build cache next = some after ∧
      Refines after depth capacity
        (callTiers depth capacity tiers next) := by
  cases next with
  | getOrBuild key =>
    obtain ⟨pad, after, taken, final⟩ := refines.getOrBuild build key
    exact ⟨after, by rw [Cache.call, taken, Option.map_some], final⟩
  | pin key =>
    obtain ⟨pad, after, taken, final⟩ := refines.pin build key
    exact ⟨after, by rw [Cache.call, taken, Option.map_some], final⟩
  | unpin key => exact refines.unpin key
  | clear => exact ⟨cache.clear, rfl, refines.clear⟩

/-- A sequence of complete calls. -/
theorem calls (build : Key → Pad) (calls : List (Call Key)) :
    ∃ after, run (Cache.call build) cache calls = some after ∧
      Refines after depth capacity
        (callsTiers depth capacity tiers calls) := by
  induction calls generalizing cache tiers with
  | nil => exact ⟨cache, rfl, refines⟩
  | cons next rest induction =>
    obtain ⟨after, taken, kept⟩ := refines.call build next
    obtain ⟨final, remaining, ended⟩ := induction kept
    exact ⟨final, by rw [run, taken, Option.bind_some, remaining], ended⟩

end

end Refines

/-! ## The representation invariant -/

/-- What the map and the two lists say about each other, and their bounds. -/
structure PadCache.Consistent (cache : PadCache Key Pad) : Prop where
  keys : cache.map.keys.Perm
    (cache.lru.map Cell.value ++ cache.pinned.map Cell.value)
  nodup : (cache.lru.map Cell.value ++ cache.pinned.map Cell.value).Nodup
  iterators : ∀ key entry, cache.map.lookup key = some entry →
    ⟨entry.lruIt, key⟩ ∈ if entry.pinned then cache.pinned else cache.lru
  addresses : ((cache.lru ++ cache.pinned).map Cell.address).Nodup
  size_le : cache.size ≤ cache.depth
  pinned_le : cache.pinned.length ≤ cache.pinnedCapacity
  capacity_le : cache.pinnedCapacity ≤ cache.depth - 1
  evictable : cache.size ≥ cache.depth → cache.lru ≠ []

theorem Refines.consistent {cache : PadCache Key Pad}
    {depth capacity : Nat} {tiers : Tiers Key}
    (refines : Refines cache depth capacity tiers) : cache.Consistent := by
  obtain ⟨represents, bounded⟩ := refines
  have size := represents.size_eq
  have pins := bounded.pinned_le
  have reserve := bounded.reserve
  have total := bounded.size_le
  obtain ⟨rfl, rfl, links, rfl⟩ := represents
  refine ⟨?_, ?_, ?_, ?_, ?_, ?_, ?_, ?_⟩
  · exact (PadCache.listed_values cache) ▸ links.keys
  · exact (PadCache.listed_values cache) ▸ links.values_nodup
  · intro key entry found
    have member := links.lookup found
    cases flag : entry.pinned <;>
      simpa [flag, PadCache.listed] using member
  · have nodup := links.addresses
    rw [PadCache.listed, List.map_append, List.map_map, List.map_map] at nodup
    rw [List.map_append]
    exact nodup
  · omega
  · simpa [PadCache.tiers] using pins
  · omega
  · intro full empty
    simp only [PadCache.tiers, empty, List.map_nil, List.length_nil] at *
    omega

/--
After every sequence of complete calls on a cache of any depth and pinned
capacity, the cache is consistent, and it stays within its bounds: no call
reaches for a missing victim, entry or iterator.  `GetOrBuild` keeps the pinned
keys pinned, and the key of `Pin` or `Unpin` is not lost by the call.
-/
theorem consistent_after_every_history (build : Key → Pad)
    (depth pinnedCapacity : Nat) (calls : List (Call Key)) :
    ∃ cache : PadCache Key Pad,
      run (call build) (PadCache.new depth pinnedCapacity) calls =
        some cache ∧
      cache.Consistent ∧
      cache.depth = effectiveDepth depth ∧
      cache.pinnedCapacity = min pinnedCapacity (effectiveDepth depth - 1) ∧
      (∀ key, ∃ pad next, cache.getOrBuild build key = some (pad, next) ∧
        key ∈ next.map ∧
        ∀ other ∈ cache.pinned.map Cell.value,
          other ∈ next.pinned.map Cell.value) ∧
      (∀ key, ∃ pad next, cache.pin build key = some (pad, next) ∧
        key ∈ next.map) ∧
      (∀ key, ∃ next, cache.unpin key = some next ∧
        (key ∈ cache.map → key ∈ next.map)) := by
  obtain ⟨cache, taken, refines⟩ :=
    (new_refines depth pinnedCapacity).calls build calls
  refine ⟨cache, taken, refines.consistent, refines.represents.depth_eq,
    refines.represents.capacity_eq, fun key => ?_, fun key => ?_,
    fun key => ?_⟩
  · obtain ⟨pad, next, got, after⟩ := refines.getOrBuild build key
    refine ⟨pad, next, got, (after.represents.mem_map key).mpr
      Tiers.holds_request, fun other member => ?_⟩
    have before := congrArg Tiers.pinned refines.represents.tiers_eq
    have later := congrArg Tiers.pinned after.represents.tiers_eq
    rw [Tiers.request_pinned] at later
    have same : next.pinned.map Cell.value = cache.pinned.map Cell.value :=
      later.trans before.symm
    exact same ▸ member
  · obtain ⟨pad, next, got, after⟩ := refines.pin build key
    exact ⟨pad, next, got,
      (after.represents.mem_map key).mpr
        (Tiers.holds_protect_iff.mpr (.inl rfl))⟩
  · obtain ⟨next, got, after⟩ := refines.unpin key
    refine ⟨next, got, fun member => (after.represents.mem_map key).mpr ?_⟩
    exact Tiers.holds_release refines.bounded
      ((refines.represents.mem_map key).mp member)

end B3Chain.Cache
