import B3Chain.Cache.History

/-!
# Threads that share the cache

Each region between taking and giving back the mutex is one step.  `GetOrBuild`
probes, builds the pad without the lock and inserts it; `Pin` then promotes the
key in a section of its own.  Between the sections of one call other threads may
take any number of steps.

`Pin` looks its key up again when it promotes it, and only assumes that the key
is there.  It is there exactly if no section has evicted it since it was last
inserted.
-/

namespace B3Chain.Cache

open B3Chain.Linked
open B3Chain.Machine

universe u v w

/-- Where a thread is between two critical sections. -/
inductive Phase (Key : Type u) where
  | idle
  | building (key : Key) (pinning : Bool)
  | promoting (key : Key)
deriving DecidableEq, Repr

/-- What a thread does next: enter a new call, or its next section. -/
inductive Action (Key : Type u) where
  | getOrBuild (key : Key)
  | pin (key : Key)
  | unpin (key : Key)
  | resume
deriving DecidableEq, Repr

/-- The shared cache and the threads. -/
structure System (Thread : Type w) (Key : Type u) (Pad : Type v) where
  cache : PadCache Key Pad
  phase : Thread → Phase Key

variable {Thread : Type w} {Key : Type u} {Pad : Type v}

/-- A fresh cache and no call in progress. -/
def System.start (depth pinnedCapacity : Nat) : System Thread Key Pad where
  cache := PadCache.new depth pinnedCapacity
  phase := fun _ => .idle

/-- Every key that a `Pin` is about to promote is in the map. -/
def System.PinsFound (system : System Thread Key Pad) : Prop :=
  ∀ thread key, system.phase thread = .promoting key →
    key ∈ system.cache.map

/-! ## Evictions -/

/-- The key at the back of `m_lru`, when the cache is full. -/
def PadCache.victim (cache : PadCache Key Pad) : Option Key :=
  if cache.size ≥ cache.depth then
    cache.lru.getLast?.map Cell.value
  else none

theorem PadCache.Represents.victim_eq
    {cache : PadCache Key Pad} {depth capacity : Nat} {tiers : Tiers Key}
    (represents : cache.Represents depth capacity tiers) :
    cache.victim = tiers.victim depth := by
  rw [PadCache.victim, Tiers.victim, represents.size_eq, represents.depth_eq,
    ← represents.tiers_eq, PadCache.tiers, List.getLast?_map]

/-! ## Waiting pins -/

/-- The cache keeps its representation and its bounds. -/
def System.Sound (depth capacity : Nat) (system : System Thread Key Pad) :
    Prop :=
  ∃ tiers, Refines system.cache depth capacity tiers

/-! ## Critical sections -/

/-- The section runs `EvictForInsert`. -/
def Evicts (system : System Thread Key Pad) (event : Thread × Action Key) :
    Prop :=
  match system.phase event.1, event.2 with
  | .building key _, .resume => key ∉ system.cache.map
  | .idle, .unpin key => key ∈ system.cache.pinned.map Cell.value
  | _, _ => False

/-- The section does not evict a key that some `Pin` is about to promote. -/
def Spares (system : System Thread Key Pad) (event : Thread × Action Key) :
    Prop :=
  Evicts system event → ∀ thread key,
    system.phase thread = .promoting key → system.cache.victim ≠ some key

/-- The section inserts the key. -/
def Inserts (system : System Thread Key Pad) (event : Thread × Action Key)
    (key : Key) : Prop :=
  ∃ pinning, system.phase event.1 = .building key pinning ∧ event.2 = .resume

/-- The section is the second one of a `Pin` of the key. -/
def LooksUp (system : System Thread Key Pad) (event : Thread × Action Key)
    (key : Key) : Prop :=
  system.phase event.1 = .promoting key ∧ event.2 = .resume

/-- The keys evicted and not inserted since, as a record of the run. -/
def evictedSince (system : System Thread Key Pad)
    (event : Thread × Action Key) (gone : Set Key) : Set Key :=
  { key | ¬Inserts system event key ∧
    (key ∈ gone ∨ (Evicts system event ∧ system.cache.victim = some key)) }

/-- All that a section can do. -/
structure SectionDone (depth capacity : Nat) (system : System Thread Key Pad)
    (event : Thread × Action Key) (next : System Thread Key Pad) :
    Prop where
  sound : next.Sound depth capacity
  mem : ∀ key, key ∈ next.cache.map ↔ Inserts system event key ∨
    (key ∈ system.cache.map ∧
      ¬(Evicts system event ∧ system.cache.victim = some key))
  begins : ∀ other key, next.phase other = .promoting key →
    system.phase other = .promoting key ∨ key ∈ next.cache.map
  waits : ∀ other key, system.phase other = .promoting key →
    ¬(other = event.1 ∧ event.2 = .resume) →
      next.phase other = .promoting key

section

variable {system next : System Thread Key Pad} {event : Thread × Action Key}
  {depth capacity : Nat}

/-- A section that does nothing. -/
theorem SectionDone.of_skip (sound : system.Sound depth capacity)
    (none : ∀ key, ¬Inserts system event key) (calm : ¬Evicts system event) :
    SectionDone depth capacity system event system where
  sound := sound
  mem key := by simp [none key, calm]
  begins _ _ := .inl
  waits _ _ waiting _ := waiting

/-- It spares the keys of the pins that wait exactly if they are still there
afterwards. -/
theorem SectionDone.spares_iff
    (done : SectionDone depth capacity system event next)
    (found : system.PinsFound) : Spares system event ↔ next.PinsFound := by
  constructor
  · intro spares other key waiting
    rcases done.begins other key waiting with before | present
    · exact (done.mem key).mpr (.inr ⟨found other key before, fun both =>
        spares both.1 other key before both.2⟩)
    · exact present
  · intro kept evicts other key waiting victim
    have apart : ¬(other = event.1 ∧ event.2 = .resume) := by
      rintro ⟨rfl, resumed⟩
      simp [Evicts, waiting, resumed] at evicts
    rcases (done.mem key).mp (kept other key
      (done.waits other key waiting apart)) with ⟨pinning, built, resumed⟩ | old
    · simp only [Evicts, built, resumed] at evicts
      exact evicts (found other key waiting)
    · exact old.2 ⟨evicts, victim⟩

end

variable [DecidableEq Thread]

/-- The system after a section of `thread` that ends in a new phase. -/
def System.goto (system : System Thread Key Pad) (thread : Thread)
    (cache : PadCache Key Pad) (phase : Phase Key) :
    System Thread Key Pad where
  cache := cache
  phase := Function.update system.phase thread phase

theorem goto_phase (system : System Thread Key Pad)
    (thread other : Thread) (cache : PadCache Key Pad) (phase : Phase Key) :
    (system.goto thread cache phase).phase other =
      if other = thread then phase else system.phase other :=
  Function.update_apply _ _ _ _

/-- A section that ends in a new phase of its thread. -/
theorem SectionDone.of_goto {system : System Thread Key Pad}
    {event : Thread × Action Key} {cache : PadCache Key Pad}
    {phase : Phase Key} {depth capacity : Nat} {tiers : Tiers Key}
    (refines : Refines cache depth capacity tiers)
    (mem : ∀ key, tiers.Holds key ↔ Inserts system event key ∨
      (key ∈ system.cache.map ∧
        ¬(Evicts system event ∧ system.cache.victim = some key)))
    (begins : ∀ key, phase = .promoting key → tiers.Holds key)
    (waits : ∀ key, system.phase event.1 = .promoting key →
      event.2 = .resume) :
    SectionDone depth capacity system event
      (system.goto event.1 cache phase) where
  sound := ⟨tiers, refines⟩
  mem key := (refines.represents.mem_map key).trans (mem key)
  begins other key waiting := by
    rw [goto_phase] at waiting
    split at waiting
    · exact .inr ((refines.represents.mem_map key).mpr (begins key waiting))
    · exact .inl waiting
  waits other key waiting apart := by
    rw [goto_phase, if_neg, waiting]
    rintro rfl
    exact apart ⟨rfl, waits key waiting⟩

variable [DecidableEq Key]

/-- One critical section; an action that its thread cannot take is skipped. -/
def threadStep (build : Key → Pad) (system : System Thread Key Pad)
    (event : Thread × Action Key) : Option (System Thread Key Pad) :=
  match system.phase event.1, event.2 with
  | .idle, .getOrBuild key =>
    if key ∈ system.cache.map then some system
    else some (system.goto event.1 system.cache (.building key false))
  | .idle, .pin key =>
    if key ∈ system.cache.map then
      some (system.goto event.1 system.cache (.promoting key))
    else some (system.goto event.1 system.cache (.building key true))
  | .idle, .unpin key =>
    (system.cache.unpin key).map fun cache =>
      system.goto event.1 cache .idle
  | .building key pinning, .resume =>
    (system.cache.insertBuilt key (build key)).map fun inserted =>
      system.goto event.1 inserted.2
        (if pinning then .promoting key else .idle)
  | .promoting key, .resume =>
    (system.cache.promote key).map fun cache =>
      system.goto event.1 cache .idle
  | _, _ => some system

section

variable {system : System Thread Key Pad} {depth capacity : Nat}

/-- The section of `Unpin`. -/
theorem unpin_done (build : Key → Pad) {thread : Thread}
    (sound : system.Sound depth capacity)
    (idle : system.phase thread = .idle) (key : Key) :
    ∃ next, threadStep build system (thread, .unpin key) = some next ∧
      SectionDone depth capacity system (thread, .unpin key) next := by
  obtain ⟨tiers, refines⟩ := sound
  obtain ⟨cache, taken, after⟩ := refines.unpin key
  refine ⟨system.goto thread cache .idle, by simp [threadStep, idle, taken],
    .of_goto after (fun other => ?_) (by simp) (by simp [idle])⟩
  have evicts : Evicts system (thread, .unpin key) ↔
      key ∈ tiers.pinned := by
    simp only [Evicts, idle]
    rw [← refines.represents.tiers_eq]
    rfl
  rw [evicts, refines.represents.mem_map, refines.represents.victim_eq]
  by_cases pinned : key ∈ tiers.pinned
  · rw [Tiers.holds_release_iff refines.bounded refines.represents.nodup
      pinned]
    simp [Inserts, pinned]
  · simp [Inserts, pinned, Tiers.release]

/-- The section that inserts a pad. -/
theorem insert_done (build : Key → Pad) {thread : Thread} {key : Key}
    {pinning : Bool} (sound : system.Sound depth capacity)
    (building : system.phase thread = .building key pinning) :
    ∃ next, threadStep build system (thread, .resume) = some next ∧
      SectionDone depth capacity system (thread, .resume) next := by
  obtain ⟨tiers, refines⟩ := sound
  have inserts (other : Key) :
      Inserts system (thread, .resume) other ↔ other = key := by
    simp [Inserts, building, eq_comm]
  have evicts : Evicts system (thread, .resume) ↔ ¬tiers.Holds key := by
    simp [Evicts, building, refines.represents.mem_map]
  have own (other : Key) : (if pinning then Phase.promoting key else .idle) =
      .promoting other → other = key := by
    cases pinning <;> simp [eq_comm]
  by_cases held : tiers.Holds key
  · obtain ⟨pad, cache, taken, after⟩ :=
      refines.represents.insertBuilt_present held (build key)
    refine ⟨system.goto thread cache
        (if pinning then .promoting key else .idle),
      by simp [threadStep, building, taken],
      .of_goto ⟨after, refines.bounded.refresh⟩ (fun other => ?_)
        (fun other ends => ?_) (by simp)⟩
    · rw [Tiers.holds_refresh_iff, inserts, evicts,
        refines.represents.mem_map]
      by_cases same : other = key <;> simp [same, held]
    · exact Tiers.holds_refresh_iff.mpr (own other ends ▸ held)
  · obtain ⟨cache, taken, after⟩ :=
      refines.represents.insertBuilt_absent refines.bounded.room held
        (build key)
    have entered (other : Key) : (tiers.enter depth key).Holds other ↔
        other = key ∨ (tiers.Holds other ∧ tiers.victim depth ≠ some other) :=
      refines.bounded.holds_enter_iff refines.represents.nodup
    refine ⟨system.goto thread cache
        (if pinning then .promoting key else .idle),
      by simp [threadStep, building, taken],
      .of_goto ⟨after, refines.bounded.enter⟩ (fun other => ?_)
        (fun other ends => ?_) (by simp)⟩
    · rw [entered, inserts, evicts, refines.represents.mem_map,
        refines.represents.victim_eq]
      simp [held]
    · exact (entered other).mpr (.inl (own other ends))

/-- Each section completes from a state in which its lookup finds the key. -/
theorem threadStep_done (build : Key → Pad) (event : Thread × Action Key)
    (sound : system.Sound depth capacity)
    (finds : ∀ key, LooksUp system event key → key ∈ system.cache.map) :
    ∃ next, threadStep build system event = some next ∧
      SectionDone depth capacity system event next := by
  obtain ⟨thread, action⟩ := event
  have refined := sound
  obtain ⟨tiers, refines⟩ := refined
  have held := refines.represents.mem_map
  cases phase : system.phase thread with
  | idle =>
    cases action with
    | getOrBuild key =>
      by_cases hit : key ∈ system.cache.map
      · exact ⟨system, by simp [threadStep, phase, hit],
          .of_skip sound (by simp [Inserts]) (by simp [Evicts, phase])⟩
      · exact ⟨_, by simp [threadStep, phase, hit]; rfl,
          .of_goto refines (by simp [Inserts, Evicts, phase, held])
            (by simp) (by simp [phase])⟩
    | pin key =>
      by_cases hit : key ∈ system.cache.map
      · refine ⟨_, by simp [threadStep, phase, hit]; rfl,
          .of_goto refines (by simp [Inserts, Evicts, phase, held]) ?_
            (by simp [phase])⟩
        rintro other ⟨⟩
        exact (held key).mp hit
      · exact ⟨_, by simp [threadStep, phase, hit]; rfl,
          .of_goto refines (by simp [Inserts, Evicts, phase, held])
            (by simp) (by simp [phase])⟩
    | unpin key => exact unpin_done build sound phase key
    | resume =>
      exact ⟨system, by simp [threadStep, phase],
        .of_skip sound (by simp [Inserts, phase]) (by simp [Evicts, phase])⟩
  | building key pinning =>
    cases action with
    | resume => exact insert_done build sound phase
    | _ =>
      exact ⟨system, by simp [threadStep, phase],
        .of_skip sound (by simp [Inserts]) (by simp [Evicts, phase])⟩
  | promoting key =>
    cases action with
    | resume =>
      have present := (held key).mp (finds key ⟨phase, rfl⟩)
      obtain ⟨cache, taken, after⟩ := refines.represents.promote present
      refine ⟨_, by simp [threadStep, phase, taken]; rfl,
        .of_goto ⟨after, refines.bounded.protect present⟩ (fun other => ?_)
          (by simp) (by simp)⟩
      rw [Tiers.holds_protect_iff, held]
      by_cases same : other = key <;>
        simp [Inserts, Evicts, phase, same, present]
    | _ =>
      exact ⟨system, by simp [threadStep, phase],
        .of_skip sound (by simp [Inserts]) (by simp [Evicts, phase])⟩

/-- The second section of `Pin` completes only if its lookup finds the key. -/
theorem LooksUp.mem_of_step {build : Key → Pad} {event : Thread × Action Key}
    {next : System Thread Key Pad} {key : Key}
    (looks : LooksUp system event key)
    (stepped : threadStep build system event = some next) :
    key ∈ system.cache.map := by
  by_contra absent
  simp [threadStep, looks.1, looks.2, PadCache.promote,
    AList.lookup_eq_none.mpr absent] at stepped

/--
In every run of any number of threads, every section completes and every key
that a `Pin` is about to promote is in the map, exactly if no section of the
run evicts a key that a `Pin` is about to promote.  At the lookup of a `Pin`
itself, its key is in the map exactly if it was not evicted since it was last
inserted.
-/
theorem pin_lookup_finds_key_iff (build : Key → Pad)
    (depth pinnedCapacity : Nat) (events : List (Thread × Action Key)) :
    (Along (threadStep build) Spares
        (System.start depth pinnedCapacity) events ↔
      Along (threadStep build)
        (fun system event => system.PinsFound ∧
          ∃ next, threadStep build system event = some next ∧
            next.PinsFound)
        (System.start depth pinnedCapacity) events) ∧
    Along (recording (threadStep build) evictedSince)
      (fun state event => ∀ key, LooksUp state.1 event key →
        (key ∈ state.1.cache.map ↔ key ∉ state.2))
      (System.start depth pinnedCapacity, ∅) events := by
  have fresh : (System.start depth pinnedCapacity :
      System Thread Key Pad).Sound (effectiveDepth depth)
        (min pinnedCapacity (effectiveDepth depth - 1)) :=
    ⟨_, new_refines depth pinnedCapacity⟩
  constructor
  · refine along_iff_of_invariant (fun system =>
      system.Sound (effectiveDepth depth)
        (min pinnedCapacity (effectiveDepth depth - 1)) ∧
        system.PinsFound) ?_ ?_ ⟨fresh, by rintro thread key ⟨⟩⟩
    · rintro system event next ⟨sound, found⟩ spares stepped
      obtain ⟨other, same, done⟩ := threadStep_done build event sound
        fun key looks => found event.1 key looks.1
      cases stepped.symm.trans same
      exact ⟨done.sound, (done.spares_iff found).mp spares⟩
    · rintro system event ⟨sound, found⟩
      obtain ⟨next, stepped, done⟩ := threadStep_done build event sound
        fun key looks => found event.1 key looks.1
      rw [done.spares_iff found]
      constructor
      · exact fun later => ⟨found, next, stepped, later⟩
      · rintro ⟨-, other, same, later⟩
        cases stepped.symm.trans same
        exact later
  · -- A waiting key is in the map or in the record, and never in both.
    refine along_of_kept (fun state =>
      state.1.Sound (effectiveDepth depth)
        (min pinnedCapacity (effectiveDepth depth - 1)) ∧
      (∀ key ∈ state.2, key ∉ state.1.cache.map) ∧
      ∀ thread key, state.1.phase thread = .promoting key →
        key ∈ state.1.cache.map ∨ key ∈ state.2) ?_ ?_
      ⟨fresh, by simp, by rintro thread key ⟨⟩⟩ events
    · rintro ⟨system, gone⟩ event _ ⟨sound, apart, waiting⟩ recorded
      obtain ⟨next, stepped, rfl⟩ := Option.map_eq_some_iff.mp recorded
      obtain ⟨other, same, done⟩ := threadStep_done build event sound
        fun key looks => looks.mem_of_step stepped
      cases stepped.symm.trans same
      refine ⟨done.sound, ?_, fun thread key promoting => ?_⟩
      · rintro key ⟨keeps, lost⟩ member
        rcases (done.mem key).mp member with inserted | ⟨old, kept⟩
        · exact keeps inserted
        · exact lost.elim (fun before => apart key before old) kept
      · by_cases present : key ∈ next.cache.map
        · exact .inl present
        · have absent := mt (done.mem key).mpr present
          have before := waiting thread key
            ((done.begins thread key promoting).resolve_right present)
          refine .inr ⟨fun inserted => absent (.inl inserted), ?_⟩
          by_contra none
          rw [not_or] at none
          exact absent (.inr ⟨before.resolve_right none.1, none.2⟩)
    · rintro ⟨system, gone⟩ event ⟨-, apart, waiting⟩ key looks
      exact ⟨fun present lost => apart key lost present,
        (waiting event.1 key looks.1).resolve_right⟩

/-- One thread builds a pad to pin it, another fills the cache meanwhile. -/
def evictionRace : List (Bool × Action Nat) :=
  [(true, .pin 0), (true, .resume),
    (false, .getOrBuild 1), (false, .resume),
    (false, .getOrBuild 2), (false, .resume),
    (false, .getOrBuild 3), (false, .resume),
    (false, .getOrBuild 4), (false, .resume),
    (false, .getOrBuild 5), (false, .resume),
    (false, .getOrBuild 6), (false, .resume),
    (false, .getOrBuild 7), (false, .resume),
    (false, .getOrBuild 8), (false, .resume)]

/--
With the mainnet depth eight requests of another thread evict the key between
the two sections of `Pin`, and the second section finds no entry.
-/
theorem evictionRace_misses :
    ∃ system : System Bool Nat Unit,
      run (threadStep fun _ => ()) (System.start 8 kDefaultPinnedCapacity)
        evictionRace = some system ∧
      system.phase true = .promoting 0 ∧ 0 ∉ system.cache.map ∧
      threadStep (fun _ => ()) system (true, .resume) = none := by
  refine ⟨_, rfl, rfl, by decide, by decide⟩

end

end B3Chain.Cache
