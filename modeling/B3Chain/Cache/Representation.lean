import B3Chain.Cache.PadCache
import B3Chain.Machine.Run

/-!
# The cache represents a two-tier store

What ties the map to the two lists: each entry's flag and iterator name
exactly one cell, that cell holds the entry's key, and there are no other
cells.  Every critical section keeps this, and on the keys alone it does what
the two-tier store does.
-/

namespace B3Chain.Cache

open B3Chain.Linked

universe u v

variable {Key : Type u} {Pad : Type v}

/-- The cell an entry of the map points to, with the list it should be on. -/
def record (item : Sigma fun _ : Key => Entry Pad) : Bool × Cell Key :=
  (item.2.pinned, ⟨item.2.lruIt, item.1⟩)

/-- The map and the listed cells describe each other. -/
structure Links (listed : List (Bool × Cell Key))
    (map : AList fun _ : Key => Entry Pad) (nextCell : Nat) : Prop where
  records : (map.entries.map record).Perm listed
  addresses : (listed.map fun item => item.2.address).Nodup
  allocated : ∀ item ∈ listed, item.2.address < nextCell

namespace Links

variable {listed rest : List (Bool × Cell Key)}
  {map : AList fun _ : Key => Entry Pad} {nextCell : Nat}

theorem perm {other : List (Bool × Cell Key)}
    (links : Links listed map nextCell) (same : listed.Perm other) :
    Links other map nextCell where
  records := links.records.trans same
  addresses := (same.map _).nodup_iff.mp links.addresses
  allocated := fun item member =>
    links.allocated item (same.mem_iff.mpr member)

/-- The keys of the map are the listed keys. -/
theorem keys (links : Links listed map nextCell) :
    map.keys.Perm (listed.map fun item => item.2.value) := by
  have same := links.records.map fun item => item.2.value
  rw [List.map_map] at same
  exact same

theorem values_nodup (links : Links listed map nextCell) :
    (listed.map fun item => item.2.value).Nodup :=
  links.keys.nodup_iff.mp map.keys_nodup

variable [DecidableEq Key]

/-- An entry names a listed cell that holds its key. -/
theorem lookup (links : Links listed map nextCell)
    {key : Key} {entry : Entry Pad}
    (found : map.lookup key = some entry) :
    (entry.pinned, (⟨entry.lruIt, key⟩ : Cell Key)) ∈ listed := by
  apply links.records.mem_iff.mp
  exact List.mem_map_of_mem (f := record) (AList.mem_lookup_iff.mp found)

/-- A listed cell is named by the entry of its key. -/
theorem lookup_of_mem (links : Links listed map nextCell)
    {item : Bool × Cell Key} (member : item ∈ listed) :
    ∃ entry, map.lookup item.2.value = some entry ∧
      entry.pinned = item.1 ∧ entry.lruIt = item.2.address := by
  obtain ⟨⟨key, entry⟩, inside, equal⟩ :=
    List.mem_map.mp (links.records.mem_iff.mpr member)
  subst equal
  exact ⟨entry, AList.mem_lookup_iff.mpr inside, rfl, rfl⟩

/-- Unlink a cell and drop its entry. -/
theorem erase {item : Bool × Cell Key}
    (links : Links (item :: rest) map nextCell) :
    Links rest (map.erase item.2.value) nextCell := by
  obtain ⟨entry, found, flag, address⟩ :=
    links.lookup_of_mem List.mem_cons_self
  have inside := AList.mem_lookup_iff.mp found
  obtain ⟨other, before, after, _, split, erased⟩ :=
    List.exists_of_kerase
      (List.mem_keys_of_mem inside)
  have same : other = entry :=
    map.nodupKeys.eq_of_mk_mem (by rw [split]; simp) inside
  subst same
  refine ⟨?_, ?_, ?_⟩
  · have records := links.records
    rw [split, List.map_append, List.map_cons] at records
    have middle := List.perm_middle.symm.trans records
    have first : record ⟨item.2.value, other⟩ = item :=
      Prod.ext flag (by rw [record, address])
    rw [first, List.perm_cons, ← List.map_append, ← erased] at middle
    exact middle
  · exact (List.nodup_cons.mp links.addresses).2
  · exact fun item member =>
      links.allocated item (List.mem_cons_of_mem _ member)

/-- Link a new cell for a key that has no entry. -/
theorem link (links : Links listed map nextCell) {key : Key}
    (absent : key ∉ map) (pad : Pad) (flag : Bool) :
    Links ((flag, ⟨nextCell, key⟩) :: listed)
      (map.insert key ⟨pad, nextCell, flag⟩) (nextCell + 1) where
  records := by
    rw [AList.entries_insert_of_notMem absent, List.map_cons]
    exact links.records.cons _
  addresses := by
    rw [List.map_cons, List.nodup_cons]
    refine ⟨?_, links.addresses⟩
    intro member
    obtain ⟨item, inside, equal⟩ := List.mem_map.mp member
    exact absurd equal (Nat.ne_of_lt (links.allocated item inside))
  allocated := by
    intro item member
    rcases List.mem_cons.mp member with rfl | inside
    · exact Nat.lt_succ_self nextCell
    · exact Nat.lt_succ_of_lt (links.allocated item inside)

/-- Replace the cell of a key by a new one. -/
theorem relink {item : Bool × Cell Key}
    (links : Links (item :: rest) map nextCell) (pad : Pad) (flag : Bool) :
    Links ((flag, ⟨nextCell, item.2.value⟩) :: rest)
      (map.insert item.2.value ⟨pad, nextCell, flag⟩) (nextCell + 1) := by
  have absent : item.2.value ∉ map.erase item.2.value := by
    rw [AList.mem_erase]
    exact fun inside => inside.1 rfl
  have same : map.insert item.2.value ⟨pad, nextCell, flag⟩ =
      (map.erase item.2.value).insert item.2.value
        ⟨pad, nextCell, flag⟩ := by
    apply AList.ext
    rw [AList.entries_insert_of_notMem absent, AList.entries_insert]
    rfl
  rw [same]
  exact links.erase.link absent pad flag

end Links

/-! ## The keys in the two lists -/

namespace PadCache

/-- All cells with the list they are on. -/
def listed (cache : PadCache Key Pad) : List (Bool × Cell Key) :=
  cache.lru.map (Prod.mk false) ++ cache.pinned.map (Prod.mk true)

/-- The keys of the two lists. -/
def tiers (cache : PadCache Key Pad) : Tiers Key :=
  ⟨cache.lru.map Cell.value, cache.pinned.map Cell.value⟩

/-- The cache is a well-linked implementation of the store `tiers`. -/
structure Represents (cache : PadCache Key Pad) (depth capacity : Nat)
    (tiers : Tiers Key) : Prop where
  depth_eq : cache.depth = depth
  capacity_eq : cache.pinnedCapacity = capacity
  links : Links cache.listed cache.map cache.nextCell
  tiers_eq : cache.tiers = tiers

variable {cache : PadCache Key Pad} {depth capacity : Nat}
  {tiers : Tiers Key}

theorem listed_values (cache : PadCache Key Pad) :
    (cache.listed.map fun item => item.2.value) =
      cache.tiers.recent ++ cache.tiers.pinned := by
  simp [listed, PadCache.tiers, Function.comp_def]

namespace Represents

section

variable (represents : cache.Represents depth capacity tiers)

include represents

theorem keys :
    cache.map.keys.Perm (tiers.recent ++ tiers.pinned) := by
  rw [← represents.tiers_eq, ← cache.listed_values]
  exact represents.links.keys

theorem nodup :
    (tiers.recent ++ tiers.pinned).Nodup :=
  represents.keys.nodup_iff.mp cache.map.keys_nodup

theorem size_eq :
    cache.size = tiers.recent.length + tiers.pinned.length := by
  rw [size, represents.keys.length_eq, List.length_append]

theorem mem_map (key : Key) : key ∈ cache.map ↔ tiers.Holds key := by
  rw [AList.mem_keys, represents.keys.mem_iff, List.mem_append]
  rfl

theorem lru_addresses :
    (cache.lru.map Cell.address).Nodup := by
  have nodup := represents.links.addresses
  rw [listed, List.map_append, List.map_map] at nodup
  exact nodup.of_append_left

theorem pinned_addresses :
    (cache.pinned.map Cell.address).Nodup := by
  have nodup := represents.links.addresses
  rw [listed, List.map_append, List.map_map, List.map_map] at nodup
  exact nodup.of_append_right

end

variable [DecidableEq Key]

section

variable (represents : cache.Represents depth capacity tiers)

include represents

/-- An entry that is not pinned points into `m_lru`. -/
theorem mem_lru {key : Key} {entry : Entry Pad}
    (found : cache.map.lookup key = some entry) (flag : entry.pinned = false) :
    (⟨entry.lruIt, key⟩ : Cell Key) ∈ cache.lru := by
  have member := represents.links.lookup found
  rw [flag, listed, List.mem_append] at member
  simpa using member

/-- A pinned entry points into `m_pinned`. -/
theorem mem_pinned {key : Key} {entry : Entry Pad}
    (found : cache.map.lookup key = some entry) (flag : entry.pinned = true) :
    (⟨entry.lruIt, key⟩ : Cell Key) ∈ cache.pinned := by
  have member := represents.links.lookup found
  rw [flag, listed, List.mem_append] at member
  simpa using member

/-- The flag of an entry says in which tier its key is. -/
theorem pinned_iff {key : Key} {entry : Entry Pad}
    (found : cache.map.lookup key = some entry) :
    entry.pinned = true ↔ key ∈ tiers.pinned := by
  have nodup := represents.nodup
  have values := represents.tiers_eq
  constructor
  · intro flag
    rw [← values]
    exact List.mem_map_of_mem (f := Cell.value)
      (represents.mem_pinned found flag)
  · intro member
    by_contra flag
    rw [Bool.not_eq_true] at flag
    have recent : key ∈ tiers.recent := by
      rw [← values]
      exact List.mem_map_of_mem (f := Cell.value)
        (represents.mem_lru found flag)
    exact List.disjoint_of_nodup_append nodup recent member

/-- A key that is not held gets a new cell in front of `m_lru`. -/
theorem linkRecent {key : Key} (absent : key ∉ cache.map) (pad : Pad) :
    (cache.linkRecent key pad).Represents depth capacity
      { tiers with recent := key :: tiers.recent } where
  depth_eq := represents.depth_eq
  capacity_eq := represents.capacity_eq
  links := represents.links.link absent pad false
  tiers_eq := by
    rw [← represents.tiers_eq]
    rfl

end

end Represents

theorem Represents.clear
    (represents : cache.Represents depth capacity tiers) :
    cache.clear.Represents depth capacity ⟨[], []⟩ where
  depth_eq := represents.depth_eq
  capacity_eq := represents.capacity_eq
  links :=
    ⟨List.Perm.refl _, List.nodup_nil, by simp [listed, PadCache.clear]⟩
  tiers_eq := rfl

/-! ## Eviction -/

theorem evictWalk_links [DecidableEq Key]
    {pinned : List (Bool × Cell Key)} {nextCell : Nat}
    (room : pinned.length < depth) (back : List (Cell Key))
    (map : AList fun _ : Key => Entry Pad)
    (links :
      Links (back.reverse.map (Prod.mk false) ++ pinned) map nextCell) :
    ∃ left remaining, evictWalk depth back map = some (left, remaining) ∧
      Links (left.reverse.map (Prod.mk false) ++ pinned) remaining
        nextCell ∧
      left.reverse = back.reverse.take (depth - 1 - pinned.length) := by
  have count := links.keys.length_eq
  rw [List.length_map, List.length_append, List.length_map,
    List.length_reverse] at count
  induction back generalizing map with
  | nil =>
    refine ⟨[], map, ?_, links, by simp⟩
    rw [List.length_nil] at count
    rw [evictWalk, if_neg (by omega)]
  | cons victim newer induction =>
    rw [List.length_cons] at count
    rw [evictWalk]
    by_cases full : map.keys.length ≥ depth
    · have front :
          ((victim :: newer).reverse.map (Prod.mk false) ++ pinned).Perm
            ((false, victim) ::
              (newer.reverse.map (Prod.mk false) ++ pinned)) := by
        rw [List.reverse_cons, List.map_append, List.append_assoc]
        exact List.perm_middle
      have erased := (links.perm front).erase
      have smaller := erased.keys.length_eq
      rw [List.length_map, List.length_append, List.length_map,
        List.length_reverse] at smaller
      obtain ⟨left, remaining, walked, kept, taken⟩ :=
        induction _ erased smaller
      refine ⟨left, remaining, by rw [if_pos full, walked], kept, ?_⟩
      rw [taken, List.reverse_cons, List.take_append_of_le_length]
      rw [List.length_reverse]
      omega
    · refine ⟨victim :: newer, map, by rw [if_neg full], links, ?_⟩
      rw [List.take_of_length_le]
      rw [List.length_reverse, List.length_cons]
      omega

/-- `EvictForInsert` makes room, and never needs a pinned victim. -/
theorem Represents.evictForInsert [DecidableEq Key]
    (represents : cache.Represents depth capacity tiers)
    (room : tiers.pinned.length < depth) :
    ∃ next, cache.evictForInsert = some next ∧
      next.Represents depth capacity (tiers.makeRoom depth) := by
  obtain ⟨rfl, rfl, links, rfl⟩ := represents
  have length : (cache.pinned.map (Prod.mk true)).length =
      cache.tiers.pinned.length := by
    simp [PadCache.tiers]
  obtain ⟨left, remaining, walked, kept, taken⟩ :=
    evictWalk_links (length ▸ room) cache.lru.reverse cache.map
      (by rw [List.reverse_reverse]; exact links)
  rw [List.reverse_reverse, length] at taken
  refine ⟨{ cache with lru := left.reverse, map := remaining }, ?_, rfl, rfl,
    kept, ?_⟩
  · rw [PadCache.evictForInsert, walked]
    rfl
  · rw [PadCache.tiers, taken, List.map_take]
    rfl

/-! ## Moves between the lists -/

/-- The cell of a key in a list without repetitions, cut out. -/
theorem exists_cut [DecidableEq Key] {cells : List (Cell Key)}
    {cell : Cell Key} (addresses : (cells.map Cell.address).Nodup)
    (values : (cells.map Cell.value).Nodup) (member : cell ∈ cells) :
    ∃ others, detach cell.address cells = some (cell, others) ∧
      cells.Perm (cell :: others) ∧
      others.map Cell.value = (cells.map Cell.value).erase cell.value := by
  obtain ⟨before, after, rfl, found⟩ := detach_of_mem addresses member
  refine ⟨before ++ after, found, List.perm_middle, ?_⟩
  rw [List.map_append, List.map_cons] at values
  have absent : cell.value ∉ before.map Cell.value := by
    intro inside
    exact List.disjoint_of_nodup_append values inside List.mem_cons_self
  rw [List.map_append, List.map_append, List.map_cons,
    List.erase_append_right _ absent, List.erase_cons_head]

variable [DecidableEq Key]

section

variable {key : Key} {entry : Entry Pad}
  (represents : cache.Represents depth capacity tiers)

include represents

theorem Represents.refreshRecent (found : cache.map.lookup key = some entry)
    (flag : entry.pinned = false) :
    ∃ lru, moveToFront cache.lru entry.lruIt = some lru ∧
      { cache with lru }.Represents depth capacity
        { tiers with recent := key :: tiers.recent.erase key } := by
  have addresses := represents.lru_addresses
  have member := represents.mem_lru found flag
  have nodup := represents.nodup.of_append_left
  obtain ⟨rfl, rfl, links, rfl⟩ := represents
  obtain ⟨others, cut, same, values⟩ := exists_cut addresses nodup member
  refine ⟨⟨entry.lruIt, key⟩ :: others, by rw [moveToFront, cut]; rfl, rfl,
    rfl, ?_, ?_⟩
  · exact links.perm ((same.map _).append_right _)
  · simp only [PadCache.tiers, List.map_cons, values]

theorem Represents.refreshPinned (found : cache.map.lookup key = some entry)
    (flag : entry.pinned = true) :
    ∃ pinned, moveToFront cache.pinned entry.lruIt = some pinned ∧
      { cache with pinned }.Represents depth capacity
        { tiers with pinned := key :: tiers.pinned.erase key } := by
  have addresses := represents.pinned_addresses
  have member := represents.mem_pinned found flag
  have nodup := represents.nodup.of_append_right
  obtain ⟨rfl, rfl, links, rfl⟩ := represents
  obtain ⟨others, cut, same, values⟩ := exists_cut addresses nodup member
  refine ⟨⟨entry.lruIt, key⟩ :: others, by rw [moveToFront, cut]; rfl, rfl,
    rfl, ?_, ?_⟩
  · exact links.perm ((same.map _).append_left _)
  · simp only [PadCache.tiers, List.map_cons, values]

theorem Represents.movePinned (found : cache.map.lookup key = some entry)
    (flag : entry.pinned = false) (pad : Pad) :
    ∃ lru, unlink cache.lru entry.lruIt = some lru ∧
      ({ cache with lru }.linkPinned key pad).Represents depth capacity
        ⟨tiers.recent.erase key, key :: tiers.pinned⟩ := by
  have addresses := represents.lru_addresses
  have member := represents.mem_lru found flag
  have nodup := represents.nodup.of_append_left
  obtain ⟨rfl, rfl, links, rfl⟩ := represents
  obtain ⟨others, cut, same, values⟩ := exists_cut addresses nodup member
  refine ⟨others, by rw [unlink, cut]; rfl, rfl, rfl, ?_, ?_⟩
  · have front := links.perm ((same.map (Prod.mk false)).append_right _)
    rw [List.map_cons, List.cons_append] at front
    exact (front.relink pad true).perm List.perm_middle.symm
  · simp only [PadCache.tiers, PadCache.linkPinned, List.map_cons, values]

theorem Represents.moveRecent (found : cache.map.lookup key = some entry)
    (flag : entry.pinned = true) (pad : Pad) :
    ∃ pinned, unlink cache.pinned entry.lruIt = some pinned ∧
      ({ cache with pinned }.linkRecent key pad).Represents depth capacity
        ⟨key :: tiers.recent, tiers.pinned.erase key⟩ := by
  have addresses := represents.pinned_addresses
  have member := represents.mem_pinned found flag
  have nodup := represents.nodup.of_append_right
  obtain ⟨rfl, rfl, links, rfl⟩ := represents
  obtain ⟨others, cut, same, values⟩ := exists_cut addresses nodup member
  refine ⟨others, by rw [unlink, cut]; rfl, rfl, rfl, ?_, ?_⟩
  · have front := links.perm
      (((same.map (Prod.mk true)).append_left _).trans List.perm_middle)
    exact front.relink pad false
  · simp only [PadCache.tiers, PadCache.linkRecent, List.map_cons, values]

end

/-- The demotion loop sends the oldest pinned keys back to `m_lru`. -/
theorem demoteWalk_represents (back : List (Cell Key))
    (cache : PadCache Key Pad) (recent : List Key)
    (represents : { cache with pinned := back.reverse }.Represents depth
      capacity ⟨recent, back.reverse.map Cell.value⟩) :
    ∃ next, demoteWalk back cache = some next ∧
      next.Represents depth capacity
        ⟨(back.reverse.map Cell.value).drop capacity ++ recent,
          (back.reverse.map Cell.value).take capacity⟩ := by
  induction back generalizing cache recent with
  | nil => exact ⟨{ cache with pinned := [] }, rfl, by simpa using represents⟩
  | cons oldest newer induction =>
    have fixed := represents.capacity_eq
    rw [demoteWalk]
    by_cases crowded :
        (oldest :: newer).length > cache.pinnedCapacity
    · have member : (true, oldest) ∈
          { cache with pinned := (oldest :: newer).reverse }.listed := by
        simp [listed]
      obtain ⟨entry, found, -, -⟩ :=
        represents.links.lookup_of_mem member
      have demoted :
          { cache.linkRecent oldest.value entry.pad with
            pinned := newer.reverse }.Represents depth capacity
            ⟨oldest.value :: recent, newer.reverse.map Cell.value⟩ := by
        refine ⟨represents.depth_eq, represents.capacity_eq, ?_, ?_⟩
        · have links := represents.links
          rw [listed, List.reverse_cons, List.map_append,
            ← List.append_assoc] at links
          have front := links.perm (List.perm_append_singleton _ _)
          exact front.relink entry.pad false
        · have same : cache.lru.map Cell.value = recent :=
            congrArg Tiers.recent represents.tiers_eq
          rw [← same]
          rfl
      obtain ⟨next, walked, final⟩ := induction _ _ demoted
      refine ⟨next, ?_, ?_⟩
      · rw [if_pos crowded]
        simp only [found]
        exact walked
      · have short : capacity ≤ (newer.reverse.map Cell.value).length := by
          rw [List.length_cons] at crowded
          rw [List.length_map, List.length_reverse, ← fixed]
          exact Nat.lt_succ_iff.mp crowded
        rw [List.reverse_cons, List.map_append,
          List.drop_append_of_le_length short,
          List.take_append_of_le_length short, List.append_assoc]
        exact final
    · have short :
          ((oldest :: newer).reverse.map Cell.value).length ≤ capacity := by
        rw [List.length_map, List.length_reverse, ← fixed]
        exact Nat.le_of_not_lt crowded
      refine ⟨{ cache with pinned := (oldest :: newer).reverse }, ?_, ?_⟩
      · rw [if_neg crowded]
      · rw [List.drop_eq_nil_of_le short, List.take_of_length_le short]
        exact represents

section

variable (represents : cache.Represents depth capacity tiers)

include represents

theorem Represents.demote :
    ∃ next, demoteWalk cache.pinned.reverse cache = some next ∧
      next.Represents depth capacity
        ⟨tiers.pinned.drop capacity ++ tiers.recent,
          tiers.pinned.take capacity⟩ := by
  obtain ⟨rfl, rfl, links, rfl⟩ := represents
  have whole :
      { cache with pinned := cache.pinned.reverse.reverse }.Represents
        cache.depth cache.pinnedCapacity
        ⟨cache.tiers.recent,
          cache.pinned.reverse.reverse.map Cell.value⟩ := by
    rw [List.reverse_reverse]
    exact ⟨rfl, rfl, links, rfl⟩
  have walked := demoteWalk_represents cache.pinned.reverse cache _ whole
  rw [List.reverse_reverse] at walked
  exact walked

/-! ## The sections and calls on the keys -/

/-- The probe of `GetOrBuild` finds exactly the keys that are held. -/
theorem Represents.lookup_isSome (key : Key) :
    (cache.map.lookup key).isSome ↔ tiers.Holds key :=
  AList.lookup_isSome.trans (represents.mem_map key)

/-- The second section of `GetOrBuild` on a key that is not held. -/
theorem Represents.insertBuilt_absent (room : tiers.pinned.length < depth)
    {key : Key} (absent : ¬tiers.Holds key) (fresh : Pad) :
    ∃ next, cache.insertBuilt key fresh = some (fresh, next) ∧
      next.Represents depth capacity (tiers.enter depth key) := by
  have missing : cache.map.lookup key = none := by
    rw [AList.lookup_eq_none, represents.mem_map]
    exact absent
  obtain ⟨evicted, made, after⟩ := represents.evictForInsert room
  refine ⟨evicted.linkRecent key fresh, ?_, after.linkRecent ?_ fresh⟩
  · rw [insertBuilt, missing]
    simp only [made, Option.map_some]
  · rw [after.mem_map]
    rintro (recent | pinned)
    · exact absent (.inl (List.mem_of_mem_take recent))
    · exact absent (.inr pinned)

/-- The second section of `GetOrBuild` on a key inserted in the meantime. -/
theorem Represents.insertBuilt_present {key : Key} (held : tiers.Holds key)
    (fresh : Pad) :
    ∃ pad next, cache.insertBuilt key fresh = some (pad, next) ∧
      next.Represents depth capacity (tiers.refresh key) := by
  obtain ⟨entry, found⟩ :=
    Option.isSome_iff_exists.mp ((represents.lookup_isSome key).mpr held)
  have nodup := represents.nodup
  rw [insertBuilt, found]
  cases flag : entry.pinned with
  | true =>
    have pinned := (represents.pinned_iff found).mp flag
    have notRecent : key ∉ tiers.recent := fun recent =>
      List.disjoint_of_nodup_append nodup recent pinned
    refine ⟨entry.pad, cache, by simp [flag], ?_⟩
    rw [Tiers.refresh, if_neg notRecent]
    exact represents
  | false =>
    have notPinned : key ∉ tiers.pinned := fun pinned => by
      rw [(represents.pinned_iff found).mpr pinned] at flag
      exact Bool.noConfusion flag
    have recent : key ∈ tiers.recent := held.resolve_right notPinned
    obtain ⟨lru, moved, after⟩ := represents.refreshRecent found flag
    refine ⟨entry.pad, { cache with lru }, by simp [flag, moved], ?_⟩
    rw [Tiers.refresh, if_pos recent]
    exact after

/-- `GetOrBuild` on the keys. -/
theorem Represents.getOrBuild (room : tiers.pinned.length < depth)
    (build : Key → Pad) (key : Key) :
    ∃ pad next, cache.getOrBuild build key = some (pad, next) ∧
      next.Represents depth capacity (tiers.request depth key) := by
  rw [PadCache.getOrBuild, Tiers.request]
  by_cases held : tiers.Holds key
  · obtain ⟨entry, found⟩ :=
      Option.isSome_iff_exists.mp ((represents.lookup_isSome key).mpr held)
    rw [found, if_pos held]
    exact ⟨entry.pad, cache, rfl, represents⟩
  · have missing : cache.map.lookup key = none := by
      rw [AList.lookup_eq_none, represents.mem_map]
      exact held
    obtain ⟨next, inserted, after⟩ :=
      represents.insertBuilt_absent room held (build key)
    rw [missing, if_neg held]
    exact ⟨build key, next, inserted, after⟩

/-- The second section of `Pin` on a key that is held. -/
theorem Represents.promote {key : Key} (held : tiers.Holds key) :
    ∃ next, cache.promote key = some next ∧
      next.Represents depth capacity (tiers.protect capacity key) := by
  obtain ⟨entry, found⟩ :=
    Option.isSome_iff_exists.mp ((represents.lookup_isSome key).mpr held)
  rw [PadCache.promote, found, Tiers.protect]
  cases flag : entry.pinned with
  | true =>
    obtain ⟨pinned, moved, after⟩ := represents.refreshPinned found flag
    rw [if_pos ((represents.pinned_iff found).mp flag)]
    exact ⟨{ cache with pinned }, by simp [flag, moved], after⟩
  | false =>
    have notPinned : key ∉ tiers.pinned := fun pinned => by
      rw [(represents.pinned_iff found).mpr pinned] at flag
      exact Bool.noConfusion flag
    obtain ⟨lru, cut, after⟩ :=
      represents.movePinned found flag entry.pad
    obtain ⟨next, walked, final⟩ := after.demote
    rw [if_neg notPinned]
    exact ⟨next, by simpa [flag, cut] using walked, final⟩

/-- `Unpin` on the keys. -/
theorem Represents.unpin (room : tiers.pinned.length ≤ depth) (key : Key) :
    ∃ next, cache.unpin key = some next ∧
      next.Represents depth capacity (tiers.release depth key) := by
  rw [PadCache.unpin, Tiers.release]
  cases found : cache.map.lookup key with
  | none =>
    rw [AList.lookup_eq_none, represents.mem_map] at found
    rw [if_neg fun pinned => found (.inr pinned)]
    exact ⟨cache, rfl, represents⟩
  | some entry =>
    cases flag : entry.pinned with
    | true =>
      have pinned := (represents.pinned_iff found).mp flag
      obtain ⟨cells, cut, after⟩ :=
        represents.moveRecent found flag entry.pad
      have fewer : (tiers.pinned.erase key).length < depth := by
        rw [List.length_erase_of_mem pinned]
        have positive := List.length_pos_of_mem pinned
        omega
      obtain ⟨next, evicted, final⟩ := after.evictForInsert fewer
      rw [if_pos pinned]
      exact ⟨next, by simpa [flag, cut] using evicted, final⟩
    | false =>
      rw [if_neg]
      · exact ⟨cache, by simp [flag], represents⟩
      · intro pinned
        rw [(represents.pinned_iff found).mpr pinned] at flag
        exact Bool.noConfusion flag

end

end PadCache

end B3Chain.Cache
