import B3Chain.Stratum.Submit
import B3Chain.Sv2.ChannelRuns

/-!
# Search spaces of channels

A channel can submit the extranonces that start with its fixed bytes.  The
spaces of two channels are disjoint exactly if neither's fixed bytes are a
front of the other's.  The pool draws the fixed bytes at random and never
compares them, so the spaces stay disjoint as long as each draw is apart from
the bytes of all channels that are open then.
-/

namespace B3Chain.Sv2

open Words Framing Machine

/-! ## Two channels -/

/-- The extranonces a channel can submit. -/
def searchSpace (ch : ChannelState) : Set (List Byte) :=
  { en | ∃ submitted, fullExtranonce ch submitted = .ok en }

/-- Neither is a front of the other. -/
def Apart (left right : List Byte) : Prop :=
  ¬ left <+: right ∧ ¬ right <+: left

instance decidableApart (left right : List Byte) :
    Decidable (Apart left right) :=
  inferInstanceAs (Decidable (_ ∧ _))

theorem Apart.symm {left right : List Byte} (apart : Apart left right) :
    Apart right left :=
  ⟨apart.2, apart.1⟩

theorem fullExtranonce_eq_ok_iff {ch : ChannelState}
    {submitted en : List Byte} :
    fullExtranonce ch submitted = .ok en ↔
      submitted.length = ch.extranonceSize ∧
        en = ch.extranoncePrefix ++ submitted := by
  rw [fullExtranonce]
  by_cases size : submitted.length = ch.extranonceSize
  · rw [if_neg (not_not.mpr size), Except.ok.injEq]
    exact ⟨fun same => ⟨size, same.symm⟩, fun found => found.2.symm⟩
  · rw [if_pos size]
    exact iff_of_false nofun fun found => size found.1

/-- The extranonces are the words of eight bytes that start so. -/
theorem mem_searchSpace_iff {ch : ChannelState} {en : List Byte} :
    en ∈ searchSpace ch ↔
      en.length = sv2ExtranonceTotal ∧ ch.extranoncePrefix <+: en := by
  have filled := ch.filled
  constructor
  · rintro ⟨submitted, found⟩
    obtain ⟨size, rfl⟩ := fullExtranonce_eq_ok_iff.mp found
    rw [List.length_append, size]
    exact ⟨filled, submitted, rfl⟩
  · rintro ⟨size, submitted, rfl⟩
    rw [List.length_append] at size
    exact ⟨submitted, fullExtranonce_eq_ok_iff.mpr ⟨by omega, rfl⟩⟩

/-- The words that start with the longer of two fronts have both. -/
theorem searchSpace_inter_nonempty {left right : ChannelState}
    (front : left.extranoncePrefix <+: right.extranoncePrefix) :
    ∃ en, en ∈ searchSpace left ∧ en ∈ searchSpace right := by
  have filled := right.filled
  let zeros : List Byte := List.replicate right.extranonceSize 0
  have size : (right.extranoncePrefix ++ zeros).length =
      sv2ExtranonceTotal := by
    rw [List.length_append, List.length_replicate]
    exact filled
  refine ⟨right.extranoncePrefix ++ zeros, ?_, ?_⟩
  · exact mem_searchSpace_iff.mpr
      ⟨size, front.trans (List.prefix_append _ _)⟩
  · exact mem_searchSpace_iff.mpr ⟨size, List.prefix_append _ _⟩

theorem disjoint_searchSpace_iff {left right : ChannelState} :
    Disjoint (searchSpace left) (searchSpace right) ↔
      Apart left.extranoncePrefix right.extranoncePrefix := by
  rw [Set.disjoint_left]
  constructor
  · intro disjoint
    constructor
    · intro front
      obtain ⟨en, first, second⟩ := searchSpace_inter_nonempty front
      exact disjoint first second
    · intro front
      obtain ⟨en, second, first⟩ := searchSpace_inter_nonempty front
      exact disjoint first second
  · intro apart en first second
    obtain front | front := List.prefix_or_prefix_of_prefix
      (mem_searchSpace_iff.mp first).2 (mem_searchSpace_iff.mp second).2
    · exact apart.1 front
    · exact apart.2 front

/-! ## The process -/

variable {Key : Type}

namespace Process

/-- A channel that is open. -/
def channel (process : Process Key) (place : Nat × Nat) :
    Option ChannelState :=
  process.miners[place.1]?.bind fun link =>
    if link.closed then none else link.conn.channels.get place.2

/-- No two open channels can submit the same extranonce. -/
def SpacesDisjoint (process : Process Key) : Prop :=
  ∀ left right : Nat × Nat, left ≠ right →
    ∀ ch other, process.channel left = some ch →
      process.channel right = some other →
        Disjoint (searchSpace ch) (searchSpace other)

/-- The fixed bytes of the channels that are open. -/
def openPrefixes (process : Process Key) : List (List Byte) :=
  process.miners.flatMap fun link =>
    if link.closed then []
    else link.conn.channels.all.map ChannelState.extranoncePrefix

/-- What is drawn for a channel is apart from the open ones. -/
def DrawsApart (setup : Setup) (process : Process Key) : Prop :=
  ∀ found ∈ process.opening setup, ∀ taken ∈ process.openPrefixes,
    Apart (setup.randomness.bytes process.drawn
      (prefixLenOf found.2.2.kind found.2.2.prefixLen)) taken

instance decidableDrawsApart (setup : Setup) (process : Process Key) :
    Decidable (process.DrawsApart setup) :=
  inferInstanceAs (Decidable (∀ found ∈ process.opening setup, _))

theorem opened_eq_channel (process : Process Key) (place : Nat × Nat) :
    process.opened place.1 place.2 =
      (process.channel place).map ChannelState.opened := by
  rw [opened, openedOn, channel]
  cases process.miners[place.1]? with
  | none => rfl
  | some link =>
    cases closed : link.closed with
    | false => simp [closed, MiningConn.opened]
    | true => simp [closed]

theorem mem_openPrefixes {process : Process Key} {connId id : Nat}
    {ch : ChannelState} (held : process.opened connId id = some ch) :
    ch.extranoncePrefix ∈ process.openPrefixes := by
  rw [opened, openedOn, Option.bind_eq_some_iff] at held
  obtain ⟨link, found, held⟩ := held
  split at held
  · cases held
  · next alive =>
      obtain ⟨current, listed, rfl⟩ := Option.map_eq_some_iff.mp held
      refine List.mem_flatMap.mpr ⟨link, List.mem_of_getElem? found, ?_⟩
      rw [if_neg alive]
      exact List.mem_map.mpr ⟨current,
        List.mem_map.mpr ⟨(id, current), mem_of_lookup listed, rfl⟩, rfl⟩

/-- The channels as they were opened have the same fixed bytes. -/
theorem spacesDisjoint_iff {process : Process Key} :
    process.SpacesDisjoint ↔
      ∀ left right : Nat × Nat, left ≠ right →
        ∀ ch other, process.opened left.1 left.2 = some ch →
          process.opened right.1 right.2 = some other →
            Apart ch.extranoncePrefix other.extranoncePrefix := by
  constructor
  · intro disjoint left right distinct ch other first second
    rw [opened_eq_channel, Option.map_eq_some_iff] at first second
    obtain ⟨ch, first, rfl⟩ := first
    obtain ⟨other, second, rfl⟩ := second
    exact disjoint_searchSpace_iff.mp
      (disjoint left right distinct ch other first second)
  · intro apart left right distinct ch other first second
    refine disjoint_searchSpace_iff.mpr
      (apart left right distinct ch.opened other.opened ?_ ?_)
    · rw [opened_eq_channel, first]
      rfl
    · rw [opened_eq_channel, second]
      rfl

/-- A channel that is opened has the bytes that were drawn. -/
theorem apart_of_opens {setup : Setup} {process : Process Key}
    (draws : process.DrawsApart setup) {connId id : Nat} {ch : ChannelState}
    (opens : process.Opens setup connId id ch) {place : Nat × Nat}
    {other : ChannelState}
    (held : process.opened place.1 place.2 = some other) :
    Apart ch.extranoncePrefix other.extranoncePrefix := by
  obtain ⟨conn, opts, opening, targetBE, -, -, rfl⟩ := opens
  exact draws _ opening _ (mem_openPrefixes held)

theorem spacesDisjoint_step {aead : Aead Key} {setup : Setup}
    {process next : Process Key} {event : Moment × Event Key}
    (disjoint : process.SpacesDisjoint) (draws : process.DrawsApart setup)
    (taken : step aead setup process event = some next) :
    next.SpacesDisjoint := by
  rw [spacesDisjoint_iff] at disjoint ⊢
  intro left right distinct ch other first second
  obtain oldLeft | newLeft := opened_step taken first
  · obtain oldRight | newRight := opened_step taken second
    · exact disjoint left right distinct ch other oldLeft oldRight
    · exact (apart_of_opens draws newRight oldLeft).symm
  · obtain oldRight | newRight := opened_step taken second
    · exact apart_of_opens draws newLeft oldRight
    · -- A round opens one channel, so the two are the same.
      obtain ⟨leftConnId, leftId⟩ := left
      obtain ⟨rightConnId, rightId⟩ := right
      obtain ⟨conn, opts, opening, -, -, place, -⟩ := newLeft
      obtain ⟨conn', opts', opening', -, -, place', -⟩ := newRight
      cases opening.symm.trans opening'
      cases place.trans place'.symm
      exact absurd rfl distinct

theorem spacesDisjoint_started :
    (started : Process Key).SpacesDisjoint := by
  intro left right distinct ch other first
  cases first

end Process

/--
If the bytes drawn for each channel are apart from those of every channel that
is open then, the search spaces of the open channels are disjoint in every
state that is reached.
-/
theorem search_spaces_disjoint {aead : Aead Key} {setup : Setup}
    {events : List (Moment × Event Key)} {final : Process Key}
    (draws : Along (Process.step aead setup)
      (fun process _ => process.DrawsApart setup) Process.started events)
    (taken : run (Process.step aead setup) Process.started events =
      some final) :
    final.SpacesDisjoint :=
  run_invariant (fun _ _ _ disjoint apart stepped =>
    Process.spacesDisjoint_step disjoint apart stepped)
    Process.spacesDisjoint_started draws taken

/-! ### Two channels with seven bytes to roll -/

/-- `SetupConnection` for mining, with empty texts. -/
def setupFrame : Sv2Frame where
  extensionType := 0
  channelMsg := false
  msgType := msgSetupConnection
  payload := [0, 2, 0, 2, 0, 0, 0, 0, 0, 0, 0, 0, 0, 0, 0, 0]

/-- `OpenExtendedMiningChannel` with a minimum extranonce size. -/
def openFrame (minExtranonceSize : Byte) : Sv2Frame where
  extensionType := 0
  channelMsg := false
  msgType := msgOpenExtChannel
  payload := List.replicate 41 0 ++ [minExtranonceSize, 0]

/-- A frame under a cipher without a key. -/
def plainSegment (frame : Sv2Frame) : List Byte :=
  writeSegment (frameBytes frame) ++ [0, 0]

/-- A cipher that does nothing. -/
def plainAead : Aead Unit where
  encrypt _ _ _ plaintext := plaintext
  decrypt _ _ _ ciphertext := some ciphertext

/-- A pool that draws one byte many times. -/
def drawingSetup (byte : Nat → Byte) : Setup where
  hashes := Stratum.constantHashes
  defaultDifficulty := 1
  randomness :=
    { bytes := fun draw size => List.replicate size (byte draw)
      length_bytes := fun _ _ => List.length_replicate }
  payoutScript := none
  tokenTtlMs := 0
  short_payoutScript := nofun

/-- A moment without a job. -/
def idleMoment : Moment where
  now := 0
  current := none

/-- A miner sets up a connection and opens two channels. -/
def twoChannels : List (Moment × Event Unit) :=
  [.accept ⟨none, 0⟩,
    .data 0 (plainSegment setupFrame ++
      (plainSegment (openFrame 7) ++ plainSegment (openFrame 7))),
    .next, .next, .next, .next, .next, .next].map fun event =>
      (idleMoment, event)

/-- Two channels whose fixed bytes differ. -/
theorem distinct_draws_keep_spaces_disjoint :
    ∃ final, run (Process.step plainAead
        (drawingSetup fun draw => BitVec.ofNat 8 draw)) Process.started
          twoChannels = some final ∧
      (final.channel (0, 1)).isSome ∧ (final.channel (0, 2)).isSome ∧
      final.SpacesDisjoint := by
  have checked : ((run (Process.step plainAead
      (drawingSetup fun draw => BitVec.ofNat 8 draw)) Process.started
        twoChannels).map fun final =>
          ((final.channel (0, 1)).isSome, (final.channel (0, 2)).isSome)) =
            some (true, true) := by
    decide +kernel
  obtain ⟨final, taken, both⟩ := Option.map_eq_some_iff.mp checked
  refine ⟨final, taken, congrArg Prod.fst both, congrArg Prod.snd both, ?_⟩
  exact search_spaces_disjoint (by decide +kernel) taken

/-- Two draws of the same byte open two channels with one search space. -/
theorem repeated_draw_shares_search_space :
    ∃ final, run (Process.step plainAead (drawingSetup fun _ => 0))
        Process.started twoChannels = some final ∧
      ¬ final.SpacesDisjoint := by
  have checked : ((run (Process.step plainAead (drawingSetup fun _ => 0))
      Process.started twoChannels).map fun final =>
        ((final.channel (0, 1)).map ChannelState.extranoncePrefix,
          (final.channel (0, 2)).map ChannelState.extranoncePrefix)) =
            some (some [0], some [0]) := by
    decide +kernel
  obtain ⟨final, taken, both⟩ := Option.map_eq_some_iff.mp checked
  obtain ⟨first, second⟩ := Prod.mk.inj both
  obtain ⟨ch, held, bytes⟩ := Option.map_eq_some_iff.mp first
  obtain ⟨other, otherHeld, otherBytes⟩ := Option.map_eq_some_iff.mp second
  refine ⟨final, taken, fun disjoint => ?_⟩
  have apart := disjoint_searchSpace_iff.mp
    (disjoint (0, 1) (0, 2) (by decide) ch other held otherHeld)
  rw [bytes, otherBytes] at apart
  exact apart.1 (List.prefix_refl _)

end B3Chain.Sv2
