import B3Chain.Linked.Cells
import B3Chain.Linked.Tiers

/-!
# The scratchpad cache

`b3pow::Cache` of `crypto/b3pow_cache.cpp`: a map from parent hashes to pads
with two linked lists of keys, `m_lru` for the entries that may be evicted and
`m_pinned` for those that may not.  Each entry stores the iterator of its key
in the list it is on; an iterator is the address of a cell.

A critical section is one function.  It has no result where the code would run
into undefined behaviour: the back of an empty list, a stale iterator, an
entry that is assumed to be in the map and is not.
-/

namespace B3Chain.Cache

open B3Chain.Linked

universe u v

/-- `Cache::Entry`. -/
structure Entry (Pad : Type v) where
  pad : Pad
  lruIt : Nat
  pinned : Bool
deriving DecidableEq

/-- The members of `b3pow::Cache`; `nextCell` is the next free address. -/
structure PadCache (Key : Type u) (Pad : Type v) where
  depth : Nat
  pinnedCapacity : Nat
  lru : List (Cell Key)
  pinned : List (Cell Key)
  map : AList fun _ : Key => Entry Pad
  nextCell : Nat

/-- `Cache::kDefaultPinnedCapacity`. -/
def kDefaultPinnedCapacity : Nat := 3

variable {Key : Type u} {Pad : Type v}

namespace PadCache

/-- The constructor. -/
def new (depth pinnedCapacity : Nat) : PadCache Key Pad :=
  let depth := if depth > 0 then depth else 1
  { depth
    pinnedCapacity := min pinnedCapacity (depth - 1)
    lru := []
    pinned := []
    map := ∅
    nextCell := 0 }

/-- `Cache::size`. -/
def size (cache : PadCache Key Pad) : Nat :=
  cache.map.keys.length

variable [DecidableEq Key]

/-! ## Eviction -/

/-- The loop of `EvictForInsert`, with `m_lru` given back to front. -/
def evictWalk (depth : Nat) :
    List (Cell Key) → (AList fun _ : Key => Entry Pad) →
      Option (List (Cell Key) × AList fun _ : Key => Entry Pad)
  | [], map => if map.keys.length ≥ depth then none else some ([], map)
  | victim :: newer, map =>
    if map.keys.length ≥ depth then
      evictWalk depth newer (map.erase victim.value)
    else some (victim :: newer, map)

/-- `Cache::EvictForInsert`. -/
def evictForInsert (cache : PadCache Key Pad) : Option (PadCache Key Pad) :=
  (evictWalk cache.depth cache.lru.reverse cache.map).map fun left =>
    { cache with lru := left.1.reverse, map := left.2 }

/-- Push a key to the front of `m_lru` and store its iterator. -/
def linkRecent (cache : PadCache Key Pad) (key : Key) (pad : Pad) :
    PadCache Key Pad :=
  { cache with
    lru := ⟨cache.nextCell, key⟩ :: cache.lru
    map := cache.map.insert key ⟨pad, cache.nextCell, false⟩
    nextCell := cache.nextCell + 1 }

/-- Push a key to the front of `m_pinned` and store its iterator. -/
def linkPinned (cache : PadCache Key Pad) (key : Key) (pad : Pad) :
    PadCache Key Pad :=
  { cache with
    pinned := ⟨cache.nextCell, key⟩ :: cache.pinned
    map := cache.map.insert key ⟨pad, cache.nextCell, true⟩
    nextCell := cache.nextCell + 1 }

/-! ## Critical sections -/

/-- The second section of `GetOrBuild`, entered with a freshly built pad. -/
def insertBuilt (cache : PadCache Key Pad) (key : Key) (fresh : Pad) :
    Option (Pad × PadCache Key Pad) :=
  match cache.map.lookup key with
  | some entry =>
    -- another thread inserted the key since the probe
    if entry.pinned then some (entry.pad, cache)
    else
      (moveToFront cache.lru entry.lruIt).map fun lru =>
        (entry.pad, { cache with lru })
  | none =>
    cache.evictForInsert.map fun evicted =>
      (fresh, evicted.linkRecent key fresh)

/-- The demotion loop of `Pin`, with `m_pinned` given back to front. -/
def demoteWalk :
    List (Cell Key) → PadCache Key Pad → Option (PadCache Key Pad)
  | [], cache => some { cache with pinned := [] }
  | oldest :: newer, cache =>
    if (oldest :: newer).length > cache.pinnedCapacity then
      match cache.map.lookup oldest.value with
      | none => none
      | some entry =>
        demoteWalk newer (cache.linkRecent oldest.value entry.pad)
    else some { cache with pinned := (oldest :: newer).reverse }

/-- The second section of `Pin`. -/
def promote (cache : PadCache Key Pad) (key : Key) :
    Option (PadCache Key Pad) :=
  match cache.map.lookup key with
  | none => none
  | some entry =>
    if entry.pinned then
      (moveToFront cache.pinned entry.lruIt).map fun pinned =>
        { cache with pinned }
    else
      (unlink cache.lru entry.lruIt).bind fun lru =>
        let moved := { cache with lru }.linkPinned key entry.pad
        demoteWalk moved.pinned.reverse moved

/-- `Cache::Unpin`. -/
def unpin (cache : PadCache Key Pad) (key : Key) :
    Option (PadCache Key Pad) :=
  match cache.map.lookup key with
  | none => some cache
  | some entry =>
    if entry.pinned then
      (unlink cache.pinned entry.lruIt).bind fun pinned =>
        ({ cache with pinned }.linkRecent key entry.pad).evictForInsert
    else some cache

/-- `Cache::Clear`. -/
def clear (cache : PadCache Key Pad) : PadCache Key Pad :=
  { cache with map := ∅, lru := [], pinned := [] }

/-! ## Complete calls -/

/-- `Cache::GetOrBuild`, undisturbed by other threads. -/
def getOrBuild (build : Key → Pad) (cache : PadCache Key Pad) (key : Key) :
    Option (Pad × PadCache Key Pad) :=
  match cache.map.lookup key with
  | some entry => some (entry.pad, cache)
  | none => cache.insertBuilt key (build key)

/-- `Cache::Pin`, undisturbed by other threads. -/
def pin (build : Key → Pad) (cache : PadCache Key Pad) (key : Key) :
    Option (Pad × PadCache Key Pad) :=
  (cache.getOrBuild build key).bind fun built =>
    (built.2.promote key).map fun promoted => (built.1, promoted)

end PadCache

/-- A call of the cache. -/
inductive Call (Key : Type u) where
  | getOrBuild (key : Key)
  | pin (key : Key)
  | unpin (key : Key)
  | clear
deriving DecidableEq, Repr

/-- The cache after a complete call. -/
def call [DecidableEq Key] (build : Key → Pad) (cache : PadCache Key Pad) :
    Call Key → Option (PadCache Key Pad)
  | .getOrBuild key => (cache.getOrBuild build key).map Prod.snd
  | .pin key => (cache.pin build key).map Prod.snd
  | .unpin key => cache.unpin key
  | .clear => some cache.clear

end B3Chain.Cache
