import B3Chain.Machine.Run
import B3Chain.Words.LittleEndian

/-!
# The nonce search of the FPGA worker

For one job the worker submits batches of nonces, one after the other, and
counts the extranonce up when all nonces of one are done.  Extranonce and nonce
together are a number that only grows, so the batches follow each other without
gap or overlap.  But when a share cannot be acknowledged the worker leaves the
loop, takes the same job again and starts from zero.  No pair is searched twice
exactly if no batch is submitted after such a failure.
-/

namespace B3Chain.Firmware

open Words
open Machine

/-! ## The worker -/

/-- The number of nonces. -/
def nonceSpace : Nat := 2 ^ 32

/-- A batch given to the FPGA, and whether it was completed. -/
structure Batch where
  extranonce2 : List Byte
  nonceStart : Nat
  nonceCount : Nat
  completed : Bool
  deriving DecidableEq

/-- How a batch ends. -/
inductive Outcome
  | completed
  | ackFailed
  deriving DecidableEq

/-- The loop's variables, and the batches of the job so far. -/
structure Search where
  extranonce2 : List Byte
  nonceCursor : Nat
  batches : List Batch
  exhausted : Bool

/-- The loop that counts the extranonce up; `none` is the last carry. -/
def increment : List Byte → Option (List Byte)
  | [] => none
  | byte :: rest =>
    if byte + 1 = 0 then (increment rest).map fun carried => 0 :: carried
    else some ((byte + 1) :: rest)

/-- The job is taken and the loop is entered. -/
def Search.enter (extranonce2Size : Nat) (batches : List Batch) : Search where
  extranonce2 := List.replicate extranonce2Size 0
  nonceCursor := 0
  batches
  exhausted := false

/-- `nonce_count`. -/
def Search.nonceCount (nonceBatchSize : Nat) (search : Search) : Nat :=
  let remaining := nonceSpace - search.nonceCursor
  if nonceBatchSize < remaining then nonceBatchSize else remaining

/-- The batch the loop submits. -/
def Search.batch (nonceBatchSize : Nat) (search : Search)
    (outcome : Outcome) : Batch where
  extranonce2 := search.extranonce2
  nonceStart := search.nonceCursor
  nonceCount := search.nonceCount nonceBatchSize
  completed := outcome = .completed

/-- A round of the loop of `fpga_worker_task`.  After a failure the job is
still the same and is taken again. -/
def Search.step (nonceBatchSize : Nat) (search : Search)
    (outcome : Outcome) : Option Search :=
  if search.exhausted then none
  else
    let batches := search.batches ++ [search.batch nonceBatchSize outcome]
    let count := search.nonceCount nonceBatchSize
    match outcome with
    | .ackFailed => some (.enter search.extranonce2.length batches)
    | .completed =>
      if count = nonceSpace - search.nonceCursor then
        match increment search.extranonce2 with
        | none => some { search with batches, exhausted := true }
        | some extranonce2 =>
          some { search with batches, extranonce2, nonceCursor := 0 }
      else
        some
          { search with batches, nonceCursor := search.nonceCursor + count }

/-! ## What a search should do -/

/-- The pair of an extranonce and a nonce is in the batch. -/
def Batch.Has (batch : Batch) (extranonce2 : List Byte) (nonce : Nat) : Prop :=
  batch.extranonce2 = extranonce2 ∧ batch.nonceStart ≤ nonce ∧
    nonce < batch.nonceStart + batch.nonceCount

/-- No pair is in two batches. -/
def NoneTwice (batches : List Batch) : Prop :=
  batches.Pairwise fun first second =>
    ∀ extranonce2 nonce, first.Has extranonce2 nonce →
      ¬ second.Has extranonce2 nonce

/-- Before the extranonce changes, all nonces were completed for the old one. -/
def ChangesCovered (batches : List Batch) : Prop :=
  ∀ before first second after,
    batches = before ++ first :: second :: after →
      first.extranonce2 ≠ second.extranonce2 →
        ∀ nonce < nonceSpace, ∃ batch ∈ before ++ [first],
          batch.completed = true ∧ batch.Has first.extranonce2 nonce

/-! ## Batches that follow each other -/

/-- Extranonce and nonce as one number. -/
def place (extranonce2 : List Byte) (nonce : Nat) : Nat :=
  leValue extranonce2 * nonceSpace + nonce

/-- The place of the first pair of a batch. -/
def Batch.first (batch : Batch) : Nat :=
  place batch.extranonce2 batch.nonceStart

/-- The place behind the last pair of a batch. -/
def Batch.stop (batch : Batch) : Nat :=
  batch.first + batch.nonceCount

/-- Batches without gap or overlap, from the first place up to `stop`. -/
structure Tiled (size : Nat) (batches : List Batch) (stop : Nat) : Prop where
  ordered : batches.Pairwise fun first second => first.stop ≤ second.first
  sized : ∀ batch ∈ batches, batch.extranonce2.length = size
  fits : ∀ batch ∈ batches, 0 < batch.nonceCount ∧
    batch.nonceStart + batch.nonceCount ≤ nonceSpace
  below : ∀ batch ∈ batches, batch.stop ≤ stop
  covers : ∀ spot < stop, ∃ batch ∈ batches,
    batch.first ≤ spot ∧ spot < batch.stop

theorem leValue_inj {left right : List Byte}
    (sameLength : left.length = right.length)
    (same : leValue left = leValue right) : left = right := by
  rw [← leBytes_leValue left, ← leBytes_leValue right, sameLength, same]

/-- A pair with a smaller extranonce has a smaller place. -/
theorem place_lt {left right : List Byte} {nonce : Nat} (other : Nat)
    (small : nonce < nonceSpace) (less : leValue left < leValue right) :
    place left nonce < place right other := by
  have scaled := Nat.mul_le_mul_right nonceSpace (Nat.succ_le_of_lt less)
  rw [Nat.succ_mul] at scaled
  rw [place, place]
  omega

/-- A place of a batch is a pair of it. -/
theorem Batch.has_of_place {batch : Batch} {extranonce2 : List Byte}
    {nonce : Nat} (small : nonce < nonceSpace)
    (sized : batch.extranonce2.length = extranonce2.length)
    (fits : 0 < batch.nonceCount ∧
      batch.nonceStart + batch.nonceCount ≤ nonceSpace)
    (low : batch.first ≤ place extranonce2 nonce)
    (high : place extranonce2 nonce < batch.stop) :
    batch.Has extranonce2 nonce := by
  have last : batch.stop - 1 =
      place batch.extranonce2 (batch.nonceStart + batch.nonceCount - 1) := by
    rw [stop, first, place, place]
    omega
  have value : leValue batch.extranonce2 = leValue extranonce2 := by
    rcases Nat.lt_trichotomy (leValue batch.extranonce2)
      (leValue extranonce2) with less | same | more
    · have := place_lt nonce (show batch.nonceStart + batch.nonceCount - 1 <
        nonceSpace by omega) less
      omega
    · exact same
    · have := place_lt batch.nonceStart small more
      rw [first] at low
      omega
  rw [first, place, place, value] at low
  rw [stop, first, place, place, value] at high
  exact ⟨leValue_inj sized value, by omega, by omega⟩

theorem Batch.place_of_has {batch : Batch} {extranonce2 : List Byte}
    {nonce : Nat} (has : batch.Has extranonce2 nonce) :
    batch.first ≤ place extranonce2 nonce ∧
      place extranonce2 nonce < batch.stop := by
  obtain ⟨rfl, low, high⟩ := has
  rw [stop, first, place, place]
  omega

variable {size nonceBatchSize : Nat} {search final : Search}
  {batches : List Batch}

theorem Tiled.noneTwice {stop : Nat} (tiled : Tiled size batches stop) :
    NoneTwice batches := by
  apply tiled.ordered.imp
  intro first second ordered extranonce2 nonce one two
  have left := Batch.place_of_has one
  have right := Batch.place_of_has two
  omega

/-- The batches before a place are those that cover it. -/
theorem Tiled.changesCovered {stop : Nat} {last : Batch}
    (tiled : Tiled size (batches ++ [last]) stop)
    (completed : ∀ batch ∈ batches, batch.completed = true) :
    ChangesCovered (batches ++ [last]) := by
  intro before first second after split changes nonce small
  have ordered := tiled.ordered
  rw [split, List.pairwise_append, List.pairwise_cons,
    List.pairwise_cons] at ordered
  have member {batch : Batch} (inside : batch ∈ before ++ [first]) :
      batch ∈ batches ++ [last] ∧ batch ∈ batches := by
    have front : before ++ [first] <+: batches := by
      have whole : before ++ [first] ++ (second :: after).dropLast =
          batches := by
        have cut := congrArg List.dropLast split
        rw [List.dropLast_concat, List.dropLast_append_of_ne_nil
          (List.cons_ne_nil _ _)] at cut
        rw [cut]
        simp
      exact ⟨_, whole⟩
    have early := front.subset inside
    exact ⟨List.mem_append_left _ early, early⟩
  have firstIn := (member (List.mem_append_right before
    (List.mem_singleton.mpr rfl))).1
  have secondIn : second ∈ batches ++ [last] := by
    rw [split]
    simp
  -- A place behind the first batch and before the second one is uncovered.
  have reached : ∀ spot < second.first, ∃ batch ∈ before ++ [first],
      batch.first ≤ spot ∧ spot < batch.stop := by
    intro spot before_
    obtain ⟨batch, inside, low, high⟩ := tiled.covers spot
      (lt_of_lt_of_le before_
        ((Nat.le_add_right _ _).trans (tiled.below second secondIn)))
    refine ⟨batch, ?_, low, high⟩
    rw [split, List.mem_append, List.mem_cons, List.mem_cons] at inside
    rcases inside with early | rfl | rfl | late
    · exact List.mem_append_left _ early
    · exact List.mem_append_right _ (List.mem_singleton.mpr rfl)
    · omega
    · have behind := ordered.2.1.2.1 batch late
      rw [Batch.stop] at behind
      omega
  have sizes := (tiled.sized first firstIn).trans
    (tiled.sized second secondIn).symm
  have follows := ordered.2.1.1 second List.mem_cons_self
  have larger : leValue first.extranonce2 < leValue second.extranonce2 := by
    rcases Nat.lt_trichotomy (leValue first.extranonce2)
      (leValue second.extranonce2) with less | same | more
    · exact less
    · exact absurd (leValue_inj sizes same) changes
    · have room := tiled.fits second secondIn
      have := place_lt first.nonceStart
        (show second.nonceStart < nonceSpace by omega) more
      rw [Batch.stop, Batch.first, Batch.first] at follows
      omega
  obtain ⟨batch, inside, low, high⟩ :=
    reached _ (place_lt second.nonceStart small larger)
  obtain ⟨whole, early⟩ := member inside
  refine ⟨batch, inside, completed batch early, ?_⟩
  exact Batch.has_of_place small
    ((tiled.sized batch whole).trans (tiled.sized first firstIn).symm)
    (tiled.fits batch whole) low high

/-- One more batch, right behind the others. -/
theorem Tiled.snoc {stop : Nat} {next : Batch}
    (tiled : Tiled size batches stop) (begins : next.first = stop)
    (sized : next.extranonce2.length = size)
    (fits : 0 < next.nonceCount ∧
      next.nonceStart + next.nonceCount ≤ nonceSpace) :
    Tiled size (batches ++ [next]) next.stop where
  ordered := by
    rw [List.pairwise_append]
    refine ⟨tiled.ordered, List.pairwise_singleton _ _, ?_⟩
    intro batch early last isLast
    rw [List.mem_singleton.mp isLast, begins]
    exact tiled.below batch early
  sized := by
    intro batch member
    rcases List.mem_append.mp member with early | late
    · exact tiled.sized batch early
    · rwa [List.mem_singleton.mp late]
  fits := by
    intro batch member
    rcases List.mem_append.mp member with early | late
    · exact tiled.fits batch early
    · rwa [List.mem_singleton.mp late]
  below := by
    intro batch member
    rcases List.mem_append.mp member with early | late
    · calc
        batch.stop ≤ stop := tiled.below batch early
        _ = next.first := begins.symm
        _ ≤ next.stop := Nat.le_add_right _ _
    · rw [List.mem_singleton.mp late]
  covers := by
    intro spot inside
    by_cases earlier : spot < stop
    · obtain ⟨batch, member, covered⟩ := tiled.covers spot earlier
      exact ⟨batch, List.mem_append_left _ member, covered⟩
    · refine ⟨next, List.mem_append_right _ (List.mem_singleton.mpr rfl), ?_⟩
      exact ⟨by omega, inside⟩

/-! ## The steps of a search -/

theorem nonceSpace_pos : 0 < nonceSpace := by decide

theorem leValue_increment {bytes counted : List Byte}
    (carried : increment bytes = some counted) :
    leValue counted = leValue bytes + 1 ∧
      counted.length = bytes.length := by
  induction bytes generalizing counted with
  | nil => cases carried
  | cons byte rest induction =>
    rw [increment] at carried
    have bound : byte.toNat < 256 := byte.isLt
    split at carried
    · next wraps =>
      obtain ⟨tail, counts, rfl⟩ := Option.map_eq_some_iff.mp carried
      obtain ⟨value, length⟩ := induction counts
      have full : byte.toNat = 255 := by
        have sum := congrArg BitVec.toNat wraps
        simp only [BitVec.toNat_add, BitVec.ofNat_eq_ofNat,
          BitVec.toNat_ofNat] at sum
        omega
      refine ⟨?_, by rw [List.length_cons, length, List.length_cons]⟩
      simp only [leValue, value, full, BitVec.ofNat_eq_ofNat,
        BitVec.toNat_ofNat]
      omega
    · next stays =>
      rw [Option.some_inj] at carried
      subst carried
      have more : byte.toNat ≠ 255 := by
        intro full
        exact stays (BitVec.eq_of_toNat_eq (by simp [full]))
      refine ⟨?_, rfl⟩
      simp only [leValue, BitVec.toNat_add, BitVec.ofNat_eq_ofNat,
        BitVec.toNat_ofNat]
      omega

theorem Search.stop_batch (nonceBatchSize : Nat) (search : Search)
    (outcome : Outcome) :
    (search.batch nonceBatchSize outcome).stop =
      place search.extranonce2 search.nonceCursor +
        search.nonceCount nonceBatchSize :=
  rfl

/-- The batches of a round. -/
theorem Search.batches_of_step {next : Search} {outcome : Outcome}
    (stepped : search.step nonceBatchSize outcome = some next) :
    search.exhausted = false ∧
      next.batches =
        search.batches ++ [search.batch nonceBatchSize outcome] := by
  rw [step] at stepped
  split at stepped
  · cases stepped
  · next going =>
    refine ⟨Bool.eq_false_of_not_eq_true going, ?_⟩
    cases outcome with
    | ackFailed =>
      rw [← Option.some_inj.mp stepped]
      rfl
    | completed =>
      simp only at stepped
      split at stepped
      · split at stepped
        all_goals rw [← Option.some_inj.mp stepped]
      · rw [← Option.some_inj.mp stepped]

/-- Where a completed round leaves the loop's variables. -/
theorem Search.place_of_completed {next : Search}
    (valid : search.nonceCursor < nonceSpace)
    (stepped : search.step nonceBatchSize .completed = some next) :
    next.extranonce2.length = search.extranonce2.length ∧
      next.nonceCursor < nonceSpace ∧
        (next.exhausted = false →
          place next.extranonce2 next.nonceCursor =
            (search.batch nonceBatchSize .completed).stop) := by
  have going := (batches_of_step stepped).1
  have count : search.nonceCount nonceBatchSize ≤
      nonceSpace - search.nonceCursor := by
    rw [nonceCount]
    split <;> omega
  rw [step, going] at stepped
  simp only [Bool.false_eq_true, if_false] at stepped
  split at stepped
  · next all =>
    split at stepped
    · rw [← Option.some_inj.mp stepped]
      exact ⟨rfl, valid, fun continues => Bool.noConfusion continues⟩
    · next counted carried =>
      obtain ⟨value, length⟩ := leValue_increment carried
      rw [← Option.some_inj.mp stepped]
      refine ⟨length, nonceSpace_pos, fun _ => ?_⟩
      rw [stop_batch, place, place, value, Nat.succ_mul, all]
      dsimp only
      omega
  · next part =>
    rw [← Option.some_inj.mp stepped]
    refine ⟨rfl, by dsimp only; omega, fun _ => ?_⟩
    rw [stop_batch, place, place, Nat.add_assoc]

/-- The next batch of a search is not empty and ends with the last nonce. -/
theorem Search.batch_fits (positive : 0 < nonceBatchSize)
    (valid : search.nonceCursor < nonceSpace) (outcome : Outcome) :
    0 < (search.batch nonceBatchSize outcome).nonceCount ∧
      (search.batch nonceBatchSize outcome).nonceStart +
        (search.batch nonceBatchSize outcome).nonceCount ≤ nonceSpace := by
  have count : (search.batch nonceBatchSize outcome).nonceCount =
      search.nonceCount nonceBatchSize := rfl
  have start : (search.batch nonceBatchSize outcome).nonceStart =
      search.nonceCursor := rfl
  rw [count, start, nonceCount]
  split <;> omega

/-! ## A search without failures -/

/-- The batches so far reach up to the next one. -/
structure Search.Sound (size : Nat) (search : Search) : Prop where
  sized : search.extranonce2.length = size
  valid : search.nonceCursor < nonceSpace
  completed : ∀ batch ∈ search.batches, batch.completed = true
  tiled : search.exhausted = false →
    Tiled size search.batches
      (place search.extranonce2 search.nonceCursor)

theorem Search.sound_enter (size : Nat) : (enter size []).Sound size where
  sized := List.length_replicate
  valid := nonceSpace_pos
  completed := fun batch member => absurd member List.not_mem_nil
  tiled := by
    intro going
    have start : place (enter size []).extranonce2
        (enter size []).nonceCursor = 0 := by
      rw [enter, place, leValue_zeros, Nat.zero_mul, Nat.zero_add]
    rw [start]
    constructor
    · exact List.Pairwise.nil
    · exact fun batch member => absurd member List.not_mem_nil
    · exact fun batch member => absurd member List.not_mem_nil
    · exact fun batch member => absurd member List.not_mem_nil
    · exact fun spot inside => absurd inside (Nat.not_lt_zero spot)

/-- Whatever its outcome, the next batch is right behind the others. -/
theorem Search.Sound.tiled_snoc (positive : 0 < nonceBatchSize)
    (sound : search.Sound size) (going : search.exhausted = false)
    (outcome : Outcome) :
    Tiled size
      (search.batches ++ [search.batch nonceBatchSize outcome])
      (search.batch nonceBatchSize outcome).stop :=
  (sound.tiled going).snoc rfl sound.sized
    (batch_fits positive sound.valid outcome)

theorem Search.sound_step (positive : 0 < nonceBatchSize) {next : Search}
    (sound : search.Sound size)
    (stepped : search.step nonceBatchSize .completed = some next) :
    next.Sound size := by
  obtain ⟨going, batches⟩ := batches_of_step stepped
  obtain ⟨length, valid, reached⟩ := place_of_completed sound.valid stepped
  refine ⟨length.trans sound.sized, valid, ?_, ?_⟩
  · intro batch member
    rw [batches] at member
    rcases List.mem_append.mp member with early | late
    · exact sound.completed batch early
    · rw [List.mem_singleton.mp late]
      rfl
  · intro continues
    rw [reached continues, batches]
    exact sound.tiled_snoc positive going .completed

/-- Only the last batch of the search may fail. -/
theorem Search.tiles_of_completed (positive : 0 < nonceBatchSize)
    {outcomes : List Outcome}
    (taken : run (step nonceBatchSize) (enter size []) outcomes = some final)
    (completed : ∀ outcome ∈ outcomes.dropLast, outcome = .completed) :
    NoneTwice final.batches ∧ ChangesCovered final.batches := by
  rcases List.eq_nil_or_concat outcomes with rfl | ⟨early, last, rfl⟩
  · rw [run, Option.some_inj] at taken
    subst taken
    refine ⟨List.Pairwise.nil, fun before first second after split => ?_⟩
    exact absurd split.symm (List.append_ne_nil_of_right_ne_nil before
      (List.cons_ne_nil first _))
  · rw [List.concat_eq_append] at taken completed
    rw [List.dropLast_concat] at completed
    rw [run_append] at taken
    obtain ⟨middle, reached, ended⟩ := Option.bind_eq_some_iff.mp taken
    obtain ⟨next, stepped, stopped⟩ := run_cons_eq_some ended
    rw [run, Option.some_inj] at stopped
    subst stopped
    have along : Along (step nonceBatchSize)
        (fun _ outcome => outcome = .completed) (enter size []) early :=
      along_of_forall (fun outcome member _ => completed outcome member) _
    have kept : ∀ search outcome next, Sound size search →
        outcome = Outcome.completed →
          step nonceBatchSize search outcome = some next →
            Sound size next := by
      rintro search _ next holds rfl stepped
      exact sound_step positive holds stepped
    have sound := run_invariant kept (sound_enter size) along reached
    obtain ⟨going, batches⟩ := batches_of_step stepped
    have tiled := sound.tiled_snoc positive going last
    rw [batches]
    exact ⟨tiled.noneTwice, tiled.changesCovered sound.completed⟩

/-! ## A search that goes on after a failure -/

theorem Search.batches_of_run {outcomes : List Outcome}
    (taken : run (step nonceBatchSize) search outcomes = some final) :
    search.batches <+: final.batches := by
  induction outcomes generalizing search with
  | nil =>
    rw [run, Option.some_inj] at taken
    rw [taken]
  | cons outcome rest induction =>
    obtain ⟨next, stepped, remaining⟩ := run_cons_eq_some taken
    have grown := induction remaining
    rw [(batches_of_step stepped).2] at grown
    exact (List.prefix_append _ _).trans grown

/-- The first batch of the loop has the first pair. -/
theorem Search.has_first (positive : 0 < nonceBatchSize)
    (batches : List Batch) (outcome : Outcome) :
    ((enter size batches).batch nonceBatchSize outcome).Has
      (List.replicate size 0) 0 := by
  have cursor : (enter size batches).nonceCursor < nonceSpace :=
    nonceSpace_pos
  refine ⟨rfl, Nat.le_refl 0, ?_⟩
  exact Nat.lt_add_left _ (batch_fits positive cursor outcome).1

/-- Entered again, the loop starts with a pair it has searched. -/
theorem Search.twice_of_enter (positive : 0 < nonceBatchSize)
    (begun : ∃ batch ∈ batches, batch.Has (List.replicate size 0) 0)
    {outcome : Outcome} {rest : List Outcome}
    (taken : run (step nonceBatchSize) (enter size batches)
      (outcome :: rest) = some final) :
    ¬ NoneTwice final.batches := by
  intro noneTwice
  obtain ⟨next, stepped, remaining⟩ := run_cons_eq_some taken
  have grown := batches_of_run remaining
  rw [(batches_of_step stepped).2] at grown
  obtain ⟨batch, member, has⟩ := begun
  have apart := (List.pairwise_append.mp
    (noneTwice.sublist grown.sublist)).2.2
  exact apart batch member _ (List.mem_singleton.mpr rfl) _ _ has
    (has_first positive batches outcome)

/-- Once the first pair is searched, a failure before the last round makes
the worker search it again. -/
theorem Search.completed_of_noneTwice (positive : 0 < nonceBatchSize)
    (sized : search.extranonce2.length = size)
    (valid : search.nonceCursor < nonceSpace) {outcome : Outcome}
    {rest : List Outcome}
    (begun : ∃ batch ∈
      search.batches ++ [search.batch nonceBatchSize outcome],
        batch.Has (List.replicate size 0) 0)
    (taken : run (step nonceBatchSize) search (outcome :: rest) = some final)
    (noneTwice : NoneTwice final.batches) :
    ∀ other ∈ (outcome :: rest).dropLast, other = .completed := by
  induction rest generalizing search outcome with
  | nil =>
    intro other member
    rw [List.dropLast_singleton] at member
    exact absurd member List.not_mem_nil
  | cons second rest induction =>
    obtain ⟨next, stepped, remaining⟩ := run_cons_eq_some taken
    obtain ⟨going, batches⟩ := batches_of_step stepped
    rw [List.dropLast_cons_of_ne_nil (List.cons_ne_nil second rest)]
    cases outcome with
    | ackFailed =>
      rw [step, going] at stepped
      have entered := Option.some_inj.mp stepped
      rw [sized] at entered
      rw [← entered] at remaining
      exact absurd noneTwice (twice_of_enter positive begun remaining)
    | completed =>
      obtain ⟨length, cursor, _⟩ := place_of_completed valid stepped
      obtain ⟨batch, member, has⟩ := begun
      rw [← batches] at member
      intro other inside
      rcases List.mem_cons.mp inside with rfl | later
      · rfl
      · exact induction (length.trans sized) cursor
          ⟨batch, List.mem_append_left _ member, has⟩ remaining other later

/-! ## The result -/

/-- The batches of a job are what they should be exactly if all but the last
one were completed. -/
theorem search_tiles_iff (extranonce2Size nonceBatchSize : Nat)
    (positive : 0 < nonceBatchSize) (outcomes : List Outcome) (final : Search)
    (taken : run (Search.step nonceBatchSize)
      (Search.enter extranonce2Size []) outcomes = some final) :
    NoneTwice final.batches ∧ ChangesCovered final.batches ↔
      ∀ outcome ∈ outcomes.dropLast, outcome = .completed := by
  constructor
  · rintro ⟨noneTwice, -⟩
    cases outcomes with
    | nil => exact fun outcome member => absurd member List.not_mem_nil
    | cons outcome rest =>
      exact Search.completed_of_noneTwice positive List.length_replicate
        nonceSpace_pos
        ⟨_, List.mem_append_right _ (List.mem_singleton.mpr rfl),
          Search.has_first positive [] outcome⟩
        taken noneTwice
  · exact Search.tiles_of_completed positive taken

/-- Two completed batches. -/
theorem two_batches_tile :
    ∃ final, run (Search.step 5) (Search.enter 1 [])
        [.completed, .completed] = some final ∧
      NoneTwice final.batches ∧ ChangesCovered final.batches := by
  refine ⟨_, rfl, ?_⟩
  exact (search_tiles_iff 1 5 (by decide) [.completed, .completed] _
    rfl).mpr (by decide)

/-- A share cannot be acknowledged, and the worker starts over. -/
theorem failed_ack_repeats_batch :
    ∃ final, run (Search.step 5) (Search.enter 1 [])
        [.ackFailed, .completed] = some final ∧
      ¬ NoneTwice final.batches := by
  refine ⟨_, rfl, ?_⟩
  intro noneTwice
  have apart := (List.pairwise_cons.mp noneTwice).1 _
    (List.mem_singleton.mpr rfl) [0] 0
  exact apart ⟨rfl, by decide, by decide⟩ ⟨rfl, by decide, by decide⟩

end B3Chain.Firmware
