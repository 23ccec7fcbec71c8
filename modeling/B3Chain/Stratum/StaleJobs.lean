import B3Chain.Stratum.JobManager
import B3Chain.Stratum.Submissions

/-!
# Shares for jobs that a clean job has replaced

The job manager and the server in one process.  A clean job tells the miners
that older work is void, but a share is still checked against any of the jobs
built last, whatever block they extend.  So a share for an older job is
credited unless its job has been dropped from the table by then.
-/

namespace B3Chain.Stratum

open Words Machine

/-! ## The pool -/

/-- The job manager and the server. -/
structure Pool where
  jobs : JobManager
  server : Server

/-- The pool at its start. -/
def Pool.started : Pool where
  jobs := JobManager.started
  server := Server.started

/-- A template arrives, or an event of the server that is not a job. -/
inductive PoolEvent
  | template (now : Int) (tpl : Template)
  | server (now : Int) (event : Event)

/-- What the server sees of the job manager. -/
def JobManager.moment (manager : JobManager) (now : Int) : Moment where
  now := now
  current := manager.currentJob
  getById := manager.getById

/-- The event is a job. -/
def Event.isJob : Event → Bool
  | .job _ => true
  | _ => false

/-- One event of the pool; a new job is broadcast at once. -/
def poolStep (setup : Setup) (config : JobSetup) (pool : Pool) :
    PoolEvent → Option Pool
  | .template now tpl =>
    let polled := pool.jobs.poll config tpl
    match polled.1.emitted with
    | none => some { pool with jobs := polled.2 }
    | some job =>
      (serverStep setup pool.server
        (polled.2.moment now, .job job)).map fun server =>
          { jobs := polled.2, server }
  | .server now event =>
    if event.isJob then none
    else
      (serverStep setup pool.server (pool.jobs.moment now, event)).map
        fun server => { pool with server }

/-- The jobs built so far and the block the last clean job extends. -/
structure History where
  built : List StratumJob
  cleanPrev : Option JsString

/-- Nothing has been built. -/
def History.none : History where
  built := []
  cleanPrev := .none

/-- The history after a poll. -/
def History.polled (history : History) : Polled → History
  | .built job =>
    { built := history.built ++ [job]
      cleanPrev :=
        if job.cleanJobs then some job.prevHashHexBE else history.cleanPrev }
  | _ => history

/-- The history after an event; a job that is sent again is never clean. -/
def recordJobs (config : JobSetup) (pool : Pool) (event : PoolEvent)
    (history : History) : History :=
  match event with
  | .template _ tpl => history.polled (pool.jobs.poll config tpl).1
  | .server _ _ => history

/-- The pool with its history. -/
def pooledStep (setup : Setup) (config : JobSetup) :
    Pool × History → PoolEvent → Option (Pool × History) :=
  recording (poolStep setup config) (recordJobs config)

/-! ## The table of jobs -/

/-- The last `maxJobs` of a list. -/
def recent (built : List StratumJob) : List StratumJob :=
  built.drop (built.length - maxJobs)

/-- The entry of a job, without what a repeated broadcast changes. -/
def entryOf (job : StratumJob) : JsString × JobContext :=
  (job.jobId, job.toJobContext)

/-- What the table says of each id. -/
def contexts (table : List (JsString × StratumJob)) :
    List (JsString × JobContext) :=
  table.map fun entry => (entry.1, entry.2.toJobContext)

/-- The id of the job with the given place in the history. -/
def idAt (place : Nat) : JsString :=
  jobIdText ((place + 1) % jobIdCycle)

/-- The table holds the jobs built last, and ids are given in turn. -/
structure Tabled (manager : JobManager) (history : History) : Prop where
  table : contexts manager.jobsById = (recent history.built).map entryOf
  ids : history.built.map (fun job => job.jobId) =
    (List.range history.built.length).map idAt
  counter : manager.jobCounter = history.built.length % jobIdCycle
  current : ∀ job, manager.currentJob = some job →
    ∀ entry ∈ contexts manager.jobsById, entry.1 = job.jobId →
      entry.2 = job.toJobContext

theorem tabled_started : Tabled JobManager.started History.none where
  table := rfl
  ids := rfl
  counter := rfl
  current job impossible := by cases impossible

theorem recent_append (built : List StratumJob) (job : StratumJob) :
    recent (built ++ [job]) =
      if built.length < maxJobs then recent built ++ [job]
      else (recent built).tail ++ [job] := by
  rw [recent, recent, List.length_append, List.length_singleton]
  split
  · next few =>
      rw [Nat.sub_eq_zero_of_le (by omega), Nat.sub_eq_zero_of_le few.le,
        List.drop_zero, List.drop_zero]
  · next many =>
      have positive : 0 < maxJobs := by decide
      rw [List.tail_drop, List.drop_append_of_le_length (by omega)]
      congr 2
      omega

theorem length_recent (built : List StratumJob) :
    (recent built).length = min built.length maxJobs := by
  rw [recent, List.length_drop]
  omega

namespace Tabled

variable {manager : JobManager} {history : History}

section

variable (tabled : Tabled manager history)

include tabled

theorem length_jobsById :
    manager.jobsById.length = min history.built.length maxJobs := by
  have sizes := congrArg List.length tabled.table
  rwa [contexts, List.length_map, List.length_map, length_recent] at sizes

/-- A job of the table was built at one of the last places. -/
theorem place_of_mem {entry : JsString × JobContext}
    (member : entry ∈ contexts manager.jobsById) :
    ∃ place, place < history.built.length ∧
      history.built.length ≤ place + maxJobs ∧ entry.1 = idAt place := by
  rw [tabled.table] at member
  obtain ⟨job, inRecent, rfl⟩ := List.mem_map.mp member
  obtain ⟨offset, bound, found⟩ := List.mem_iff_getElem.mp inRecent
  have size := length_recent history.built
  refine ⟨history.built.length - maxJobs + offset, by omega, by omega, ?_⟩
  have there : history.built[history.built.length - maxJobs + offset]? =
      some job := by
    rw [← List.getElem?_drop]
    exact List.getElem?_eq_some_iff.mpr ⟨bound, found⟩
  have named := congrArg
    (fun ids => ids[history.built.length - maxJobs + offset]?) tabled.ids
  simp only [List.getElem?_map, there, Option.map_some] at named
  rw [List.getElem?_range (by omega), Option.map_some,
    Option.some_inj] at named
  exact named

/-- The id of the next job is not in the table. -/
theorem fresh {entry : JsString × JobContext}
    (member : entry ∈ contexts manager.jobsById) :
    entry.1 ≠ idAt history.built.length := by
  obtain ⟨place, before, late, named⟩ := tabled.place_of_mem member
  intro same
  rw [named] at same
  have positive : 0 < jobIdCycle := by decide
  have counters := jobIdText_injective (Nat.mod_lt _ positive)
    (Nat.mod_lt _ positive) same
  -- Within one cycle two places have the same counter only if they agree.
  have apart : (place + 1) % jobIdCycle ≠
      (history.built.length + 1) % jobIdCycle := by
    have room : maxJobs < jobIdCycle := by decide
    intro equal
    have gap := (Nat.modEq_iff_dvd' (by omega)).mp equal
    have small := Nat.le_of_dvd (by omega) gap
    omega
  exact apart counters

theorem absent {job : StratumJob}
    (named : job.jobId = idAt history.built.length) :
    ∀ entry ∈ manager.jobsById, entry.1 ≠ job.jobId := by
  intro entry member same
  have listed : (entry.1, entry.2.toJobContext) ∈
      contexts manager.jobsById := List.mem_map.mpr ⟨entry, member, rfl⟩
  exact tabled.fresh listed (same.trans named)

theorem next_id :
    jobIdText ((manager.jobCounter + 1) % jobIdCycle) =
      idAt history.built.length := by
  rw [idAt, tabled.counter, Nat.mod_add_mod]

/-- A new job enters the table, and the oldest one leaves it. -/
theorem kept {job : StratumJob}
    (named : job.jobId = idAt history.built.length) :
    Tabled (manager.kept job) (history.polled (.built job)) where
  table := by
    have size := tabled.length_jobsById
    have same := tabled.table
    change contexts (trimmed (setEntry manager.jobsById job.jobId job)) =
      (recent (history.built ++ [job])).map entryOf
    rw [setEntry_of_absent (tabled.absent named), trimmed, recent_append,
      List.length_append, List.length_singleton]
    by_cases few : history.built.length < maxJobs
    · rw [if_neg (by omega), if_pos few, contexts, List.map_append,
        List.map_append, ← same]
      rfl
    · rw [if_pos (by omega), if_neg few, contexts, List.tail_append_of_ne_nil,
        List.map_append, List.map_append, List.map_tail, List.map_tail, ← same]
      · rfl
      · intro empty
        rw [empty, List.length_nil] at size
        have some : 0 < maxJobs := by decide
        omega
  ids := by
    change (history.built ++ [job]).map _ =
      (List.range (history.built ++ [job]).length).map idAt
    rw [List.map_append, tabled.ids, List.length_append,
      List.length_singleton, List.range_succ, List.map_append]
    exact congrArg _ (congrArg (fun id => [id]) named)
  counter := by
    change (manager.jobCounter + 1) % jobIdCycle =
      (history.built ++ [job]).length % jobIdCycle
    rw [tabled.counter, Nat.mod_add_mod, List.length_append,
      List.length_singleton]
  current := by
    rintro _ ⟨⟩ entry member own
    obtain ⟨⟨key, old⟩, stored, rfl⟩ := List.mem_map.mp member
    have source : (key, old) ∈
        setEntry manager.jobsById job.jobId job := by
      change (key, old) ∈ trimmed (setEntry manager.jobsById job.jobId job)
        at stored
      rw [trimmed] at stored
      split at stored
      · exact List.mem_of_mem_tail stored
      · exact stored
    -- Only the new job has the new id.
    obtain new | before := mem_setEntry source
    · cases new
      rfl
    · exact absurd own (tabled.absent named _ before)

theorem contexts_rolled {job : StratumJob}
    (current : manager.currentJob = some job) (curtime : Int) :
    contexts (manager.rolled job curtime).2.jobsById =
      contexts manager.jobsById := by
  rw [contexts, JobManager.rolled, List.map_map, contexts]
  refine List.map_congr_left fun entry member => ?_
  rw [Function.comp_apply]
  split
  · next own =>
      have context : entry.2.toJobContext = job.toJobContext :=
        tabled.current job current _ (List.mem_map.mpr ⟨entry, member, rfl⟩)
          own
      rw [context]
  · rfl

/-- The current job is broadcast again. -/
theorem rolled {job : StratumJob} (current : manager.currentJob = some job)
    (curtime : Int) :
    Tabled (manager.rolled job curtime).2 history where
  table := (tabled.contexts_rolled current curtime).trans tabled.table
  ids := tabled.ids
  counter := tabled.counter
  current := by
    rintro _ ⟨⟩
    rw [tabled.contexts_rolled current curtime]
    exact tabled.current job current

theorem build (config : JobSetup) (tpl : Template) (timeSig : JsString) :
    Tabled (manager.build config tpl timeSig).2
      (history.polled (manager.build config tpl timeSig).1) := by
  unfold JobManager.build
  dsimp only
  split
  · exact ⟨tabled.table, tabled.ids, tabled.counter, tabled.current⟩
  · next job built =>
      have named : job.jobId = idAt history.built.length := by
        obtain ⟨halves, -, rest⟩ := Machine.bind_eq_ok_iff.mp built
        obtain ⟨branches, -, done⟩ := Machine.bind_eq_ok_iff.mp rest
        cases done
        exact tabled.next_id
      have noted : Tabled { manager with
          lastTemplateHash := timeSig
          lastWorkSig := workSignature tpl
          lastPrev := tpl.previousblockhash } history :=
        ⟨tabled.table, tabled.ids, tabled.counter, tabled.current⟩
      exact noted.kept named

/-- A poll keeps the table to the jobs built last. -/
theorem poll (config : JobSetup) (tpl : Template) :
    Tabled (manager.poll config tpl).2
      (history.polled (manager.poll config tpl).1) := by
  unfold JobManager.poll
  dsimp only
  split
  · exact tabled.build config tpl _
  · next job current =>
      split
      · exact tabled
      · split
        · have again := tabled.rolled current tpl.curtime
          exact ⟨again.table, again.ids, again.counter, again.current⟩
        · exact tabled.build config tpl _

/-- A job that can be looked up is one of those built last. -/
theorem recent_of_getById {id : JsString} {job : StratumJob}
    (found : manager.getById id = some job) :
    ∃ built ∈ recent history.built, built.jobId = id ∧
      built.toJobContext = job.toJobContext := by
  have member : (id, job.toJobContext) ∈ contexts manager.jobsById :=
    List.mem_map.mpr ⟨(id, job), mem_of_lookup found, rfl⟩
  rw [tabled.table] at member
  obtain ⟨built, there, same⟩ := List.mem_map.mp member
  exact ⟨built, there, congrArg Prod.fst same, congrArg Prod.snd same⟩

end

end Tabled

theorem poolStep_tabled {setup : Setup} {config : JobSetup}
    {state next : Pool × History} {event : PoolEvent}
    (tabled : Tabled state.1.jobs state.2)
    (taken : pooledStep setup config state event = some next) :
    Tabled next.1.jobs next.2 := by
  obtain ⟨pool, stepped, rfl⟩ := Option.map_eq_some_iff.mp taken
  cases event with
  | template now tpl =>
    rw [poolStep] at stepped
    split at stepped
    · cases stepped
      exact tabled.poll config tpl
    · obtain ⟨server, -, rfl⟩ := Option.map_eq_some_iff.mp stepped
      exact tabled.poll config tpl
  | server now event =>
    rw [poolStep] at stepped
    split at stepped
    · cases stepped
    · obtain ⟨server, -, rfl⟩ := Option.map_eq_some_iff.mp stepped
      exact tabled

/-! ## Submissions -/

/-- A line names no job that a clean job has replaced and is still held. -/
def LineNamesFresh (setup : Setup) (history : History) (line : JsString) :
    Prop :=
  ∀ msg ∈ setup.runtime.parse line.trim, ∀ share ∈ submittedShare setup msg,
    ∀ job ∈ recent history.built, job.jobId = share.jobId →
      ∀ prev ∈ history.cleanPrev, job.prevHashHexBE = prev

/-- A line is credited no share for a job that a clean job has replaced. -/
def LineCreditsFresh (setup : Setup) (moment : Moment) (history : History)
    (connId : Nat) (server : Server) (line : JsString) : Prop :=
  ∀ msg ∈ setup.runtime.parse line.trim, ∀ c ∈ server.find connId,
    ∀ credited ∈ creditedShare setup moment c msg,
      ∀ prev ∈ history.cleanPrev, credited.2.1.job.prevHashHexBE = prev

/-- The time and the event of the server. -/
def PoolEvent.served : PoolEvent → Option (Int × Event)
  | .server now event => some (now, event)
  | .template _ _ => none

/-- No submission names a job that a clean job has replaced and is held. -/
def NamesFresh (setup : Setup) (state : Pool × History)
    (event : PoolEvent) : Prop :=
  ∀ served ∈ event.served,
    LinesMeet setup (state.1.jobs.moment served.1)
      (fun _ _ line => LineNamesFresh setup state.2 line) state.1.server
      served.2

/-- No share is credited for a job that a clean job has replaced. -/
def CreditsFresh (setup : Setup) (state : Pool × History)
    (event : PoolEvent) : Prop :=
  ∀ served ∈ event.served,
    LinesMeet setup (state.1.jobs.moment served.1)
      (LineCreditsFresh setup (state.1.jobs.moment served.1) state.2)
      state.1.server served.2

instance decidableNamesFresh (setup : Setup) (state : Pool × History)
    (event : PoolEvent) : Decidable (NamesFresh setup state event) :=
  have : ∀ line, Decidable (LineNamesFresh setup state.2 line) := fun line =>
    inferInstanceAs (Decidable (∀ msg ∈ setup.runtime.parse line.trim, _))
  inferInstanceAs (Decidable (∀ served ∈ event.served, _))

instance decidableCreditsFresh (setup : Setup) (state : Pool × History)
    (event : PoolEvent) : Decidable (CreditsFresh setup state event) :=
  have : ∀ moment connId server line,
      Decidable (LineCreditsFresh setup moment state.2 connId server line) :=
    fun _ _ _ line =>
      inferInstanceAs (Decidable (∀ msg ∈ setup.runtime.parse line.trim, _))
  inferInstanceAs (Decidable (∀ served ∈ event.served, _))

theorem lineCreditsFresh_of_names {setup : Setup} {manager : JobManager}
    {history : History} (tabled : Tabled manager history) (now : Int)
    (connId : Nat) (server : Server) {line : JsString}
    (names : LineNamesFresh setup history line) :
    LineCreditsFresh setup (manager.moment now) history connId server
      line := by
  rintro msg parsed c found ⟨share, input, check⟩ credited prev clean
  obtain ⟨submitted, job, held, rfl⟩ :=
    known_of_judgedShare (judgedShare_of_credited credited)
  obtain ⟨built, recently, same, context⟩ := tabled.recent_of_getById held
  change job.toJobContext.prevHashHexBE = prev
  rw [← context]
  exact names msg parsed share submitted built recently same prev clean

/--
If no submission names a job that a clean job has replaced and that is still
among the jobs built last, no share is credited for a replaced job.
-/
theorem credits_only_current_work (setup : Setup) (config : JobSetup)
    {events : List PoolEvent}
    (names : Along (pooledStep setup config) (NamesFresh setup)
      (Pool.started, History.none) events) :
    Along (pooledStep setup config) (CreditsFresh setup)
      (Pool.started, History.none) events := by
  have kept : ∀ (state : Pool × History) (event : PoolEvent)
      (next : Pool × History), Tabled state.1.jobs state.2 →
      NamesFresh setup state event →
      pooledStep setup config state event = some next →
        Tabled next.1.jobs next.2 :=
    fun state event next tabled _ taken => poolStep_tabled tabled taken
  refine along_of_invariant kept ?_ tabled_started names
  intro state event tabled meets served isServed
  exact (meets served isServed).imp fun connId server line =>
    lineCreditsFresh_of_names tabled served.1 connId server

/-! ### Two blocks -/

/-- `mining.submit` for a job. -/
def submitCall (jobId : JsString) : Json :=
  .obj [(JsString.ofString "method", .str (JsString.ofString "mining.submit")),
    (JsString.ofString "params", .arr
      [.str [], .str jobId, .str (JsString.ofString "00000000"),
        .str (JsString.ofString "0"), .str (JsString.ofString "0"),
        .str (JsString.ofString "ff")])]

/-- A message with one text as its parameter. -/
def call (method : String) (param : JsString) : Json :=
  .obj [(JsString.ofString "method", .str (JsString.ofString method)),
    (JsString.ofString "params", .arr [.str param])]

/-- A device key of one repeated digit. -/
def sampleKey (unit : UInt16) : JsString :=
  List.replicate 128 unit

/--
A runtime that reads `a` with a name as an authorization, `p` with a digit as a
device key, and `s` as the answer to a challenge.
-/
def letterRuntime : Runtime :=
  { plainRuntime with
    parse := fun text =>
      match text with
      | 97 :: name => some (call "mining.authorize" name)
      | [112, unit] => some (call "mining.pubkey" (sampleKey unit))
      | [115] => some (call "mining.attest" [])
      | _ => none }

/-- A server that takes every signature. -/
def letterSetup : Setup where
  runtime := letterRuntime
  hashes := constantHashes
  verifyP256Digest := fun _ _ _ => true
  sha256 := fun _ => []
  vardiff :=
    { targetSeconds := 600, retuneSeconds := 30, minDiff := 1, maxDiff := 2,
      initialDiff := 1, maxStep := 4 }
  workerDifficulty := fun _ => none
  vardiffEnabled := false
  randomBytes := fun _ => [1]
  stringifies := fun _ => true

/-- A server that reads `s` with a job id as a submission for the job. -/
def submitSetup : Setup :=
  { letterSetup with
    runtime := { letterRuntime with
      parse := fun text =>
        match text with
        | 115 :: jobId => some (submitCall jobId)
        | _ => letterRuntime.parse text } }

/-- The pool's script is empty. -/
def plainJobs : JobSetup where
  hashes := constantHashes
  payoutScript := some []

/-- A template without transactions. -/
def emptyTemplate (previous : Byte) : PoolEvent :=
  .template 0
    { version := 0x20000000
      previousblockhash := JsString.bytesToHex (List.replicate 32 previous)
      transactions := []
      coinbasevalue := 0
      target := []
      mintime := 0
      curtime := 0
      bits := JsString.ofString "1d00ffff"
      nBits := 0x1d00ffff
      height := 1
      defaultWitnessCommitment := none
      bits_read := by decide +kernel }

/-- A miner with a device key is given a job. -/
def minerReady : List PoolEvent :=
  [.server 0 .connect, emptyTemplate 1,
    .server 0 (.data 1 (JsString.ofString "au\n")),
    .server 0 (.resume 0 (.userId (.ok none))),
    .server 0 (.data 1 (JsString.ofString "p1\n"))]

/-- The miner submits a share for a job. -/
def shareSent (jobId : String) : PoolEvent :=
  .server 0 (.data 1 (JsString.ofString ("s" ++ jobId ++ "\n")))

theorem share_for_new_job_credits_fresh :
    (run (pooledStep submitSetup plainJobs) (Pool.started, History.none)
        (minerReady ++ [emptyTemplate 2, shareSent "0000002"])).isSome ∧
      Along (pooledStep submitSetup plainJobs) (CreditsFresh submitSetup)
        (Pool.started, History.none)
        (minerReady ++ [emptyTemplate 2, shareSent "0000002"]) :=
  ⟨by decide +kernel,
    credits_only_current_work submitSetup plainJobs (by decide +kernel)⟩

/-- A share for the job of the block before is credited. -/
theorem share_for_replaced_job_credited :
    (run (pooledStep submitSetup plainJobs) (Pool.started, History.none)
        (minerReady ++ [emptyTemplate 2, shareSent "0000001"])).isSome ∧
      ¬ Along (pooledStep submitSetup plainJobs) (CreditsFresh submitSetup)
        (Pool.started, History.none)
        (minerReady ++ [emptyTemplate 2, shareSent "0000001"]) := by
  constructor
  · decide +kernel
  · decide +kernel

end B3Chain.Stratum
