import B3Chain.Machine.Run
import B3Chain.Words.LittleEndian

/-!
# The sessions a share of the GPU miner belongs to

The client and the driver share a state and a channel.  The driver works from a
snapshot of the state and looks at the epoch before each launch, but the shares
of a launch are sent without another look, and the channel outlives the
connection.  Every share is submitted in its own session if a session starts
only when the channel is empty and no launch is under way.  A share that is
left in the channel when the connection drops is submitted in the next session.
-/

namespace B3Chain.GpuMiner

open Words
open Machine

/-! ## Jobs and headers -/

/-- `CurrentJob`, with the fields a header is made of. -/
structure CurrentJob where
  jobId : String
  prevHashBe : List Byte
  coinb1 : List Byte
  coinb2 : List Byte
  merkleBranchesBe : List (List Byte)
  version : Nat
  bits : Nat
  ntime : Nat
  deriving DecidableEq

/-- `build_coinbase`. -/
def buildCoinbase (coinb1 en1 en2 coinb2 : List Byte) : List Byte :=
  coinb1 ++ en1 ++ en2 ++ coinb2

/-- `compute_merkle_root`. -/
def computeMerkleRoot (doubleSha256 : List Byte → List Byte)
    (coinbaseTxidLe : List Byte) (branchesBe : List (List Byte)) : List Byte :=
  branchesBe.foldl (fun cur branch => doubleSha256 (cur ++ branch.reverse))
    coinbaseTxidLe

/-- `serialize_header_template` with the nonce behind it. -/
def serializeHeader (version : Nat) (prevHashLe merkleRootLe : List Byte)
    (ntime bits nonce : Nat) : List Byte :=
  leBytes 4 version ++ prevHashLe ++ merkleRootLe ++ leBytes 4 ntime ++
    leBytes 4 bits ++ leBytes 4 nonce

/-- The header of a job with both extranonces and a nonce. -/
def CurrentJob.header (doubleSha256 : List Byte → List Byte)
    (job : CurrentJob) (en1 en2 : List Byte) (nonce : Nat) : List Byte :=
  let coinbase := buildCoinbase job.coinb1 en1 en2 job.coinb2
  serializeHeader job.version job.prevHashBe.reverse
    (computeMerkleRoot doubleSha256 (doubleSha256 coinbase)
      job.merkleBranchesBe)
    job.ntime job.bits nonce

/-- `encode_extranonce2`. -/
def encodeExtranonce2 (counter size : Nat) : List Byte :=
  let n := min size 8
  List.replicate (size - n) 0 ++ (leBytes 8 counter).reverse.drop (8 - n)

/-! ## The miner -/

/-- `MiningState`, without the difficulty. -/
structure MiningState where
  extranonce1 : List Byte
  extranonce2Size : Nat
  currentJob : Option CurrentJob
  cleanEpoch : Nat

/-- A share in the channel, with the header it was found for and the session
its snapshot was taken in. -/
structure ShareSubmit where
  jobId : String
  extranonce2 : List Byte
  ntime : Nat
  nonce : Nat
  header : List Byte
  session : Nat

/-- What the driver keeps of the state.  `session` and `takenAt` say when the
snapshot was taken; no step reads them. -/
structure Snapshot where
  job : CurrentJob
  extranonce1 : List Byte
  extranonce2 : List Byte
  session : Nat
  takenAt : Nat

/-- Where the driver is. -/
inductive Phase
  | waiting
  | sweeping (snap : Snapshot) (noncesDone : Nat)
  | sending (snap : Snapshot) (noncesDone count : Nat) (candidates : List Nat)
  | leaving

/-- The driver's variables. -/
structure Driver where
  phase : Phase
  en2Counter : Nat
  lastJobId : Option String
  lastCleanEpoch : Nat

/-- Where the client is. -/
inductive Stage
  | idle
  | subscribing
  | authorizing
  | running
  | ended
  deriving DecidableEq

/-- The client reads lines of the pool. -/
def Stage.Reads (stage : Stage) : Prop :=
  stage = .subscribing ∨ stage = .authorizing ∨ stage = .running

instance (stage : Stage) : Decidable stage.Reads :=
  inferInstanceAs (Decidable (_ ∨ _ ∨ _))

/-- Client, channel and driver.  The last four fields record the session's
number, the jobs and extranonces the pool gave in it, and how often the epoch
was advanced. -/
structure Miner where
  stage : Stage
  state : MiningState
  channel : List ShareSubmit
  driver : Driver
  session : Nat
  notified : List CurrentJob
  assigned : List (List Byte)
  advances : Nat

/-- The miner before its first session. -/
def Miner.start : Miner where
  stage := .idle
  state := ⟨[], 0, none, 0⟩
  channel := []
  driver := ⟨.waiting, 0, none, 0⟩
  session := 0
  notified := []
  assigned := []
  advances := 0

/-- The capacity of the channel. -/
def channelSize : Nat := 64

/-- `wrapping_add(1)`. -/
def nextEpoch (epoch : Nat) : Nat := (epoch + 1) % 2 ^ 64

/-- `on_mining_notify`, for a message that is accepted. -/
def Miner.onMiningNotify (miner : Miner) (job : CurrentJob)
    (cleanJobs : Bool) : Miner :=
  { miner with
    state :=
      { miner.state with
        currentJob := some job
        cleanEpoch :=
          if cleanJobs then nextEpoch miner.state.cleanEpoch
          else miner.state.cleanEpoch }
    notified := job :: miner.notified
    advances := if cleanJobs then miner.advances + 1 else miner.advances }

/-- `on_set_extranonce`, and what is done with the answer to the subscription. -/
def Miner.onSetExtranonce (miner : Miner) (extranonce1 : List Byte)
    (extranonce2Size : Nat) : Miner :=
  { miner with
    state :=
      { miner.state with
        extranonce1, extranonce2Size
        cleanEpoch := nextEpoch miner.state.cleanEpoch }
    assigned := extranonce1 :: miner.assigned
    advances := miner.advances + 1 }

/-- What `run_forever` does after a session. -/
def Miner.cleanUp (miner : Miner) : Miner :=
  { miner with
    stage := .idle
    state :=
      { miner.state with
        currentJob := none
        extranonce1 := []
        cleanEpoch := nextEpoch miner.state.cleanEpoch }
    advances := miner.advances + 1 }

/-- A new connection. -/
def Miner.connect (miner : Miner) : Miner :=
  { miner with
    stage := .subscribing
    session := miner.session + 1
    notified := []
    assigned := [] }

/-- The state is still the one of the driver's snapshot, as far as the driver
looks. -/
def Miner.Unchanged (miner : Miner) : Prop :=
  miner.state.cleanEpoch = miner.driver.lastCleanEpoch ∧
    miner.state.currentJob.map CurrentJob.jobId = miner.driver.lastJobId

instance (miner : Miner) : Decidable miner.Unchanged :=
  inferInstanceAs (Decidable (_ ∧ _))

/-- The driver takes a snapshot of a state with a job and an extranonce. -/
def Miner.takeSnapshot (miner : Miner) (job : CurrentJob) : Miner :=
  let state := miner.state
  let driver := miner.driver
  let counter :=
    if driver.lastJobId ≠ some job.jobId ∨
        driver.lastCleanEpoch ≠ state.cleanEpoch then 0
    else driver.en2Counter
  { miner with
    driver :=
      { phase := .sweeping
          { job
            extranonce1 := state.extranonce1
            extranonce2 :=
              encodeExtranonce2 counter (max state.extranonce2Size 1)
            session := miner.session
            takenAt := miner.advances } 0
        en2Counter := counter
        lastJobId := some job.jobId
        lastCleanEpoch := state.cleanEpoch } }

/-- The share of a candidate. -/
def Snapshot.share (doubleSha256 : List Byte → List Byte) (snap : Snapshot)
    (nonce : Nat) : ShareSubmit where
  jobId := snap.job.jobId
  extranonce2 := snap.extranonce2
  ntime := snap.job.ntime
  nonce
  header :=
    snap.job.header doubleSha256 snap.extranonce1 snap.extranonce2 nonce
  session := snap.session

/-- The driver goes to another phase. -/
def Miner.setPhase (miner : Miner) (phase : Phase) : Miner :=
  { miner with driver := { miner.driver with phase } }

/-- The steps of the client, the pool's messages and the steps of the driver.
`launch` comes with the candidates that pass the host's check. -/
inductive MinerEvent
  | connect
  | subscribed (extranonce1 : List Byte) (extranonce2Size : Nat)
  | authorized
  | notify (job : CurrentJob) (cleanJobs : Bool)
  | setExtranonce (extranonce1 : List Byte) (extranonce2Size : Nat)
  | fail
  | cleanUp
  | submit (written : Bool)
  | takeSnapshot
  | launch (candidates : List Nat)
  | send
  | finish
  | leave

/-- The check before a launch, and the launch. -/
def Miner.launch (batchNonces : Nat) (miner : Miner) (snap : Snapshot)
    (noncesDone : Nat) (candidates : List Nat) : Miner :=
  if noncesDone < 2 ^ 32 ∧ miner.Unchanged then
    miner.setPhase (.sending snap noncesDone
      (min (2 ^ 32 - noncesDone) batchNonces) candidates)
  else miner.setPhase .leaving

/-- The sweep of an extranonce is over. -/
def Miner.leave (miner : Miner) : Miner :=
  { miner with
    driver :=
      { miner.driver with
        phase := .waiting
        en2Counter :=
          if miner.Unchanged then
            min (miner.driver.en2Counter + 1) (2 ^ 64 - 1)
          else miner.driver.en2Counter } }

/-- A step of the driver in its phase. -/
def Miner.drive (doubleSha256 : List Byte → List Byte) (batchNonces : Nat)
    (miner : Miner) : Phase → MinerEvent → Option Miner
  | .waiting, .takeSnapshot =>
    if miner.state.extranonce1 = [] then none
    else miner.state.currentJob.map miner.takeSnapshot
  | .sweeping snap noncesDone, .launch candidates =>
    some (miner.launch batchNonces snap noncesDone candidates)
  | .sending snap noncesDone count (nonce :: rest), .send =>
    if miner.channel.length < channelSize then
      some
        { miner.setPhase (.sending snap noncesDone count rest) with
          channel := miner.channel ++ [snap.share doubleSha256 nonce] }
    else none
  | .sending snap noncesDone count [], .finish =>
    some (miner.setPhase (.sweeping snap (noncesDone + count)))
  | .leaving, .leave => some miner.leave
  | _, _ => none

/-- The main loop takes a share and writes it; a failed write ends the
session. -/
def Miner.submit (miner : Miner) (written : Bool) : Option Miner :=
  match miner.channel with
  | [] => none
  | _ :: rest =>
    if miner.stage = .running then
      some
        { miner with
          channel := rest
          stage := if written then .running else .ended }
    else none

/-- A step of the miner. -/
def Miner.step (doubleSha256 : List Byte → List Byte) (batchNonces : Nat)
    (miner : Miner) : MinerEvent → Option Miner
  | .connect => if miner.stage = .idle then some miner.connect else none
  | .subscribed extranonce1 extranonce2Size =>
    if miner.stage = .subscribing then
      some
        { miner.onSetExtranonce extranonce1 extranonce2Size with
          stage := .authorizing }
    else none
  | .authorized =>
    if miner.stage = .authorizing then some { miner with stage := .running }
    else none
  | .notify job cleanJobs =>
    if miner.stage.Reads then some (miner.onMiningNotify job cleanJobs)
    else none
  | .setExtranonce extranonce1 extranonce2Size =>
    if miner.stage.Reads then
      some (miner.onSetExtranonce extranonce1 extranonce2Size)
    else none
  | .fail =>
    if miner.stage.Reads then some { miner with stage := .ended } else none
  | .cleanUp => if miner.stage = .ended then some miner.cleanUp else none
  | .submit written => miner.submit written
  | event =>
    miner.drive doubleSha256 batchNonces miner.driver.phase event

/-! ## Shares of their own session -/

/-- The share is of this session: its header was computed from a job the pool
gave in it, with an extranonce the pool gave in it. -/
def Miner.Owns (doubleSha256 : List Byte → List Byte) (miner : Miner)
    (share : ShareSubmit) : Prop :=
  share.session = miner.session ∧
    ∃ job ∈ miner.notified, ∃ extranonce1 ∈ miner.assigned,
      share.jobId = job.jobId ∧ share.ntime = job.ntime ∧
        share.header = job.header doubleSha256 extranonce1
          share.extranonce2 share.nonce

/-- A share that is submitted is of the session it is submitted in. -/
def SubmitsOwn (doubleSha256 : List Byte → List Byte) (miner : Miner) :
    MinerEvent → Prop
  | .submit _ => ∀ share, miner.channel.head? = some share →
      miner.Owns doubleSha256 share
  | _ => True

/-- The driver is between a check and the last share of the launch. -/
def Phase.Launched : Phase → Prop
  | .sending _ _ _ _ => True
  | _ => False

instance : (phase : Phase) → Decidable phase.Launched
  | .waiting | .sweeping _ _ | .leaving => isFalse not_false
  | .sending _ _ _ _ => isTrue trivial

/-- A session starts with an empty channel and no launch under way, and the
epoch has not wrapped around. -/
def Regular (miner : Miner) : MinerEvent → Prop
  | .connect => miner.channel = [] ∧ ¬ miner.driver.phase.Launched
  | .launch _ => miner.advances < 2 ^ 64
  | _ => True

instance (miner : Miner) : (event : MinerEvent) →
    Decidable (Regular miner event)
  | .connect => inferInstanceAs (Decidable (_ ∧ _))
  | .launch _ => inferInstanceAs (Decidable (_ < _))
  | .subscribed _ _ | .authorized | .notify _ _ | .setExtranonce _ _ | .fail
  | .cleanUp | .submit _ | .takeSnapshot | .send | .finish | .leave =>
    isTrue trivial

/-- The snapshot was taken in this session. -/
def Miner.Holds (miner : Miner) (snap : Snapshot) : Prop :=
  snap.session = miner.session ∧ snap.job ∈ miner.notified ∧
    snap.extranonce1 ∈ miner.assigned

/-- The snapshot the driver works from. -/
def Phase.snapshot : Phase → Option Snapshot
  | .sweeping snap _ => some snap
  | .sending snap _ _ _ => some snap
  | _ => none

/-- What is known of the driver's snapshot. -/
structure Miner.Knows (miner : Miner) (snap : Snapshot) : Prop where
  epoch : miner.driver.lastCleanEpoch = snap.takenAt % 2 ^ 64
  earlier : snap.takenAt ≤ miner.advances
  idle : miner.stage = .idle → snap.takenAt < miner.advances
  holds : snap.takenAt = miner.advances ∨ miner.driver.phase.Launched →
    miner.Holds snap

/-- State, snapshot and channel are of the current session. -/
structure Miner.Sound (doubleSha256 : List Byte → List Byte)
    (miner : Miner) : Prop where
  job : ∀ job, miner.state.currentJob = some job → job ∈ miner.notified
  extranonce : miner.state.extranonce1 ≠ [] →
    miner.state.extranonce1 ∈ miner.assigned
  cleared : miner.stage = .idle →
    miner.state.currentJob = none ∧ miner.state.extranonce1 = []
  epoch : miner.state.cleanEpoch = miner.advances % 2 ^ 64
  snapshot : ∀ snap, miner.driver.phase.snapshot = some snap →
    miner.Knows snap
  channel : ∀ share ∈ miner.channel, miner.Owns doubleSha256 share

variable {doubleSha256 : List Byte → List Byte} {batchNonces : Nat}

variable {miner next : Miner}

/-- The epoch counts the advances with 64 bits. -/
theorem Miner.Sound.nextEpoch_eq (sound : miner.Sound doubleSha256) :
    nextEpoch miner.state.cleanEpoch = (miner.advances + 1) % 2 ^ 64 := by
  rw [nextEpoch, sound.epoch, Nat.mod_add_mod]

/-- The session goes on, with what the pool gave so far. -/
structure Miner.Continues (miner next : Miner) : Prop where
  session : next.session = miner.session
  notified : miner.notified ⊆ next.notified
  assigned : miner.assigned ⊆ next.assigned

theorem Miner.Continues.holds {snap : Snapshot}
    (continues : miner.Continues next) (holds : miner.Holds snap) :
    next.Holds snap :=
  ⟨holds.1.trans continues.session.symm, continues.notified holds.2.1,
    continues.assigned holds.2.2⟩

theorem Miner.Continues.owns {share : ShareSubmit}
    (continues : miner.Continues next) (owns : miner.Owns doubleSha256 share) :
    next.Owns doubleSha256 share := by
  obtain ⟨session, job, given, extranonce1, assigned, same⟩ := owns
  exact ⟨session.trans continues.session.symm, job,
    continues.notified given, extranonce1, continues.assigned assigned, same⟩

/-- A step of the client leaves driver and channel alone, and only advances
the epoch. -/
theorem Miner.Sound.client (sound : miner.Sound doubleSha256)
    (continues : miner.Continues next) (driver : next.driver = miner.driver)
    (channel : next.channel ⊆ miner.channel)
    (advances : miner.advances ≤ next.advances)
    (idle : next.stage = .idle → miner.advances < next.advances)
    (job : ∀ job, next.state.currentJob = some job → job ∈ next.notified)
    (extranonce : next.state.extranonce1 ≠ [] →
      next.state.extranonce1 ∈ next.assigned)
    (cleared : next.stage = .idle →
      next.state.currentJob = none ∧ next.state.extranonce1 = [])
    (epoch : next.state.cleanEpoch = next.advances % 2 ^ 64) :
    next.Sound doubleSha256 where
  job := job
  extranonce := extranonce
  cleared := cleared
  epoch := epoch
  snapshot := by
    intro snap found
    rw [driver] at found
    have known := sound.snapshot snap found
    refine ⟨by rw [driver, known.epoch], known.earlier.trans advances,
      fun isIdle => known.earlier.trans_lt (idle isIdle), ?_⟩
    rintro (now | launched)
    · have before : snap.takenAt = miner.advances :=
        Nat.le_antisymm known.earlier (now ▸ advances)
      exact continues.holds (known.holds (.inl before))
    · rw [driver] at launched
      exact continues.holds (known.holds (.inr launched))
  channel := fun share member =>
    continues.owns (sound.channel share (channel member))

theorem Miner.Continues.refl_of (session : next.session = miner.session)
    (notified : next.notified = miner.notified)
    (assigned : next.assigned = miner.assigned) : miner.Continues next :=
  ⟨session, notified ▸ List.Subset.refl _, assigned ▸ List.Subset.refl _⟩

theorem Stage.Reads.ne_idle {stage : Stage} (reads : stage.Reads) :
    stage ≠ .idle := by
  rintro rfl
  exact absurd reads (by decide)

section

variable {miner : Miner} (sound : miner.Sound doubleSha256)

include sound

theorem Miner.Sound.onMiningNotify (reads : miner.stage.Reads)
    (job : CurrentJob) (cleanJobs : Bool) :
    (miner.onMiningNotify job cleanJobs).Sound doubleSha256 := by
  have busy : (miner.onMiningNotify job cleanJobs).stage ≠ .idle :=
    reads.ne_idle
  have continues : miner.Continues (miner.onMiningNotify job cleanJobs) :=
    ⟨rfl, List.subset_cons_self job _, List.Subset.refl _⟩
  refine sound.client continues rfl (List.Subset.refl _) ?_
    (fun idle => absurd idle busy) ?_ sound.extranonce
    (fun idle => absurd idle busy) ?_
  · cases cleanJobs
    · exact Nat.le_refl _
    · exact Nat.le_succ _
  · intro other isJob
    rw [← Option.some_inj.mp isJob]
    exact List.mem_cons_self
  · cases cleanJobs with
    | false => exact sound.epoch
    | true => exact sound.nextEpoch_eq

/-- The extranonce may come with another stage. -/
theorem Miner.Sound.onSetExtranonce {stage : Stage} (busy : stage ≠ .idle)
    (extranonce1 : List Byte) (extranonce2Size : Nat) :
    Miner.Sound doubleSha256
      { miner.onSetExtranonce extranonce1 extranonce2Size with stage } := by
  refine sound.client ⟨rfl, List.Subset.refl _, List.subset_cons_self _ _⟩
    rfl (List.Subset.refl _) (Nat.le_succ _)
    (fun idle => absurd idle busy) sound.job ?_
    (fun idle => absurd idle busy) ?_
  · exact fun _ => List.mem_cons_self
  · exact sound.nextEpoch_eq

theorem Miner.Sound.cleanUp :
    miner.cleanUp.Sound doubleSha256 := by
  refine sound.client (.refl_of rfl rfl rfl) rfl (List.Subset.refl _)
    (Nat.le_succ _) (fun _ => Nat.lt_succ_self _) ?_ ?_
    (fun _ => ⟨rfl, rfl⟩) ?_
  · intro job found
    cases found
  · exact fun nonempty => absurd rfl nonempty
  · exact sound.nextEpoch_eq

/-- Only the stage changes, and shares may be taken from the channel. -/
theorem Miner.Sound.goTo {stage : Stage} (busy : stage ≠ .idle)
    {channel : List ShareSubmit} (fewer : channel ⊆ miner.channel) :
    Miner.Sound doubleSha256 { miner with stage, channel } :=
  sound.client (.refl_of rfl rfl rfl) rfl fewer (Nat.le_refl _)
    (fun idle => absurd idle busy) sound.job sound.extranonce
    (fun idle => absurd idle busy) sound.epoch

/-- With an empty channel and no launch, nothing of the old session is left
that a check would let pass. -/
theorem Miner.Sound.connect (idle : miner.stage = .idle)
    (empty : miner.channel = []) (quiet : ¬ miner.driver.phase.Launched) :
    miner.connect.Sound doubleSha256 where
  job := by
    intro job found
    rw [Miner.connect, (sound.cleared idle).1] at found
    cases found
  extranonce := fun nonempty => absurd (sound.cleared idle).2 nonempty
  cleared := fun isIdle => Stage.noConfusion isIdle
  epoch := sound.epoch
  snapshot := by
    intro snap found
    have known := sound.snapshot snap found
    refine ⟨known.epoch, known.earlier,
      fun isIdle => Stage.noConfusion isIdle, ?_⟩
    rintro (now | launched)
    · exact absurd now (known.idle idle).ne
    · exact absurd launched quiet
  channel := by
    intro share member
    rw [Miner.connect, empty] at member
    exact absurd member List.not_mem_nil

/-! ## The driver's steps -/

/-- A step of the driver to a phase with the same snapshot, or none. -/
theorem Miner.Sound.setPhase {phase : Phase}
    (same : ∀ snap, phase.snapshot = some snap →
      miner.driver.phase.snapshot = some snap)
    (launched : phase.Launched →
      ∀ snap, phase.snapshot = some snap → miner.Holds snap) :
    (miner.setPhase phase).Sound doubleSha256 := by
  refine { sound with snapshot := fun snap found => ?_ }
  have known := sound.snapshot snap (same snap found)
  refine ⟨known.epoch, known.earlier, known.idle, ?_⟩
  rintro (now | isLaunched)
  · exact known.holds (.inl now)
  · exact launched isLaunched snap found

/-- The snapshot stays what it was. -/
theorem Miner.Sound.keepSnapshot {phase : Phase} {snap : Snapshot}
    (before : miner.driver.phase.snapshot = some snap)
    (after : phase.snapshot = some snap)
    (holds : phase.Launched → miner.Holds snap) :
    (miner.setPhase phase).Sound doubleSha256 := by
  refine sound.setPhase (fun other found => ?_) fun launched other found => ?_
  · rw [← found, after, before]
  · cases after.symm.trans found
    exact holds launched

theorem Miner.Sound.takeSnapshot {job : CurrentJob}
    (given : miner.state.currentJob = some job)
    (nonempty : miner.state.extranonce1 ≠ []) :
    (miner.takeSnapshot job).Sound doubleSha256 := by
  refine { sound with snapshot := fun snap found => ?_ }
  have isNew := Option.some_inj.mp found
  rw [← isNew]
  refine ⟨sound.epoch, Nat.le_refl _, ?_, ?_⟩
  · exact fun idle => absurd (sound.cleared idle).2 nonempty
  · exact fun _ => ⟨rfl, sound.job job given, sound.extranonce nonempty⟩

/-- The epoch is compared before the launch, so the snapshot is of this
session. -/
theorem Miner.Sound.launch (few : miner.advances < 2 ^ 64) {snap : Snapshot}
    {noncesDone : Nat} (here : miner.driver.phase = .sweeping snap noncesDone)
    (candidates : List Nat) :
    (miner.launch batchNonces snap noncesDone candidates).Sound
      doubleSha256 := by
  have found : miner.driver.phase.snapshot = some snap := by
    rw [here, Phase.snapshot]
  rw [Miner.launch]
  split
  · next goes =>
    have known := sound.snapshot snap found
    have now : snap.takenAt = miner.advances := by
      have same := goes.2.1
      rw [sound.epoch, known.epoch, Nat.mod_eq_of_lt few,
        Nat.mod_eq_of_lt (known.earlier.trans_lt few)] at same
      exact same.symm
    exact sound.keepSnapshot found rfl fun _ => known.holds (.inl now)
  · refine sound.setPhase ?_ ?_
    · intro other isSnap
      cases isSnap
    · intro launched
      exact absurd launched not_false

end

/-- A share of a snapshot of the session is of the session. -/
theorem Miner.Holds.owns {snap : Snapshot} (holds : miner.Holds snap)
    (nonce : Nat) :
    miner.Owns doubleSha256 (snap.share doubleSha256 nonce) :=
  ⟨holds.1, snap.job, holds.2.1, snap.extranonce1, holds.2.2, rfl, rfl, rfl⟩

theorem Miner.Sound.send (sound : miner.Sound doubleSha256)
    {share : ShareSubmit} (owns : miner.Owns doubleSha256 share) :
    Miner.Sound doubleSha256
      { miner with channel := miner.channel ++ [share] } := by
  refine { sound with
    snapshot := fun snap found => ?_
    channel := fun other member => ?_ }
  · have known := sound.snapshot snap found
    exact ⟨known.epoch, known.earlier, known.idle, known.holds⟩
  · rcases List.mem_append.mp member with early | late
    · exact sound.channel other early
    · rw [List.mem_singleton.mp late]
      exact owns

theorem Miner.Sound.drive (sound : miner.Sound doubleSha256)
    {event : MinerEvent} (regular : Regular miner event)
    (stepped : miner.drive doubleSha256 batchNonces miner.driver.phase event =
      some next) : next.Sound doubleSha256 := by
  cases here : miner.driver.phase with
  | waiting =>
    rw [here] at stepped
    cases event with
    | takeSnapshot =>
      rw [Miner.drive] at stepped
      split_ifs at stepped with nonempty
      obtain ⟨job, given, rfl⟩ := Option.map_eq_some_iff.mp stepped
      exact sound.takeSnapshot given nonempty
    | _ => cases stepped
  | sweeping snap noncesDone =>
    rw [here] at stepped
    cases event with
    | launch candidates =>
      rw [← Option.some_inj.mp stepped]
      exact sound.launch regular here candidates
    | _ => cases stepped
  | sending snap noncesDone count candidates =>
    have found : miner.driver.phase.snapshot = some snap := by
      rw [here, Phase.snapshot]
    have launched : miner.driver.phase.Launched := by
      rw [here]
      trivial
    have holds := (sound.snapshot snap found).holds (.inr launched)
    rw [here] at stepped
    cases candidates with
    | nil =>
      cases event with
      | finish =>
        rw [← Option.some_inj.mp stepped]
        exact sound.keepSnapshot found rfl fun launched =>
          absurd launched not_false
      | _ => cases stepped
    | cons nonce rest =>
      cases event with
      | send =>
        rw [Miner.drive] at stepped
        split_ifs at stepped
        rw [← Option.some_inj.mp stepped]
        have moved : (miner.setPhase
            (.sending snap noncesDone count rest)).Sound doubleSha256 :=
          sound.keepSnapshot found rfl fun _ => holds
        exact moved.send (Miner.Holds.owns holds nonce)
      | _ => cases stepped
  | leaving =>
    rw [here] at stepped
    cases event with
    | leave =>
      rw [← Option.some_inj.mp stepped]
      have moved : (miner.setPhase .waiting).Sound doubleSha256 := by
        refine sound.setPhase ?_ ?_
        · intro other isSnap
          cases isSnap
        · intro launched
          exact absurd launched not_false
      refine ⟨moved.job, moved.extranonce, moved.cleared, moved.epoch, ?_,
        moved.channel⟩
      intro snap isSnap
      cases isSnap
    | _ => cases stepped

/-! ## The result -/

theorem Miner.Sound.step (sound : miner.Sound doubleSha256)
    {event : MinerEvent} (regular : Regular miner event)
    (stepped : miner.step doubleSha256 batchNonces event = some next) :
    next.Sound doubleSha256 := by
  cases event with
  | connect =>
    rw [Miner.step] at stepped
    split_ifs at stepped with idle
    rw [← Option.some_inj.mp stepped]
    exact sound.connect idle regular.1 regular.2
  | subscribed extranonce1 extranonce2Size =>
    rw [Miner.step] at stepped
    split_ifs at stepped
    rw [← Option.some_inj.mp stepped]
    exact sound.onSetExtranonce (by decide) extranonce1 extranonce2Size
  | authorized | fail =>
    rw [Miner.step] at stepped
    split_ifs at stepped
    rw [← Option.some_inj.mp stepped]
    exact sound.goTo (by decide) (List.Subset.refl _)
  | notify job cleanJobs =>
    rw [Miner.step] at stepped
    split_ifs at stepped with reads
    rw [← Option.some_inj.mp stepped]
    exact sound.onMiningNotify reads job cleanJobs
  | setExtranonce extranonce1 extranonce2Size =>
    rw [Miner.step] at stepped
    split_ifs at stepped with reads
    rw [← Option.some_inj.mp stepped]
    exact sound.onSetExtranonce reads.ne_idle extranonce1 extranonce2Size
  | cleanUp =>
    rw [Miner.step] at stepped
    split_ifs at stepped
    rw [← Option.some_inj.mp stepped]
    exact sound.cleanUp
  | submit written =>
    rw [Miner.step, Miner.submit] at stepped
    cases shares : miner.channel with
    | nil =>
      rw [shares] at stepped
      cases stepped
    | cons share rest =>
      rw [shares] at stepped
      simp only at stepped
      have fewer : rest ⊆ miner.channel :=
        shares ▸ List.subset_cons_self share rest
      split at stepped
      · rw [← Option.some_inj.mp stepped]
        refine sound.goTo ?_ fewer
        cases written <;> decide
      · cases stepped
  | takeSnapshot | launch | send | finish | leave =>
    exact sound.drive regular stepped

theorem Miner.sound_start : Miner.start.Sound doubleSha256 where
  job := by
    intro job found
    cases found
  extranonce := fun nonempty => absurd rfl nonempty
  cleared := fun _ => ⟨rfl, rfl⟩
  epoch := rfl
  snapshot := by
    intro snap found
    cases found
  channel := fun _ member => absurd member List.not_mem_nil

/-- If each session starts without shares of an earlier one, every share is
submitted in its own session. -/
theorem submits_own_shares (doubleSha256 : List Byte → List Byte)
    (batchNonces : Nat) {events : List MinerEvent}
    (regular : Along (Miner.step doubleSha256 batchNonces) Regular
      Miner.start events) :
    Along (Miner.step doubleSha256 batchNonces) (SubmitsOwn doubleSha256)
      Miner.start events := by
  refine along_of_invariant (fun _ _ _ sound met stepped =>
      Miner.Sound.step sound met stepped) ?_ Miner.sound_start regular
  intro miner event sound _
  cases event with
  | submit written =>
    intro share first
    exact sound.channel share (List.mem_of_head? first)
  | _ => trivial

/-- A job with nothing in it. -/
def emptyJob (jobId : String) : CurrentJob where
  jobId
  prevHashBe := []
  coinb1 := []
  coinb2 := []
  merkleBranchesBe := []
  version := 0
  bits := 0
  ntime := 0

/-- A session in which the driver finds a share. -/
def shareFound : List MinerEvent :=
  [.connect, .subscribed [1] 4, .authorized, .notify (emptyJob "a") true,
    .takeSnapshot, .launch [7], .send]

/-- Its share is submitted, and then that of the next session. -/
def sharesSubmitted : List MinerEvent :=
  shareFound ++ [.submit true, .finish, .fail, .cleanUp, .connect,
    .launch [], .leave, .subscribed [2] 4, .authorized,
    .notify (emptyJob "b") true, .takeSnapshot, .launch [8], .send,
    .submit true]

theorem shares_submitted_in_their_sessions :
    (∃ miner, run (Miner.step id 1) Miner.start sharesSubmitted =
        some miner ∧ miner.session = 2) ∧
      Along (Miner.step id 1) (SubmitsOwn id) Miner.start
        sharesSubmitted := by
  refine ⟨⟨_, rfl, rfl⟩, ?_⟩
  exact submits_own_shares id 1 (by decide)

/-- The connection drops before the share is submitted, and the next session
gets another extranonce and another job. -/
def sessionLost : List MinerEvent :=
  shareFound ++ [.fail, .cleanUp, .connect, .subscribed [2] 4, .authorized,
    .notify (emptyJob "b") true]

/-- The share is submitted in a session it is not of. -/
theorem share_of_old_session_submitted :
    ∃ miner next share,
      run (Miner.step id 1) Miner.start sessionLost = some miner ∧
        miner.step id 1 (.submit true) = some next ∧
        miner.channel.head? = some share ∧
        miner.notified = [emptyJob "b"] ∧ share.jobId = "a" ∧
        miner.session = 2 ∧ share.session = 1 ∧ ¬ miner.Owns id share := by
  refine ⟨_, _, _, rfl, rfl, rfl, rfl, rfl, rfl, rfl, ?_⟩
  rintro ⟨session, -⟩
  exact absurd session (by decide)

end B3Chain.GpuMiner
