import B3Chain.Sv2.SearchSpaces
import B3Chain.Sv2.ShareRuns

/-!
# Headers that are credited

The mining server remembers no share, so a message that is sent again is
credited again.  If each share differs from all that were accepted before it,
no header is credited twice.
-/

namespace B3Chain.Sv2

open Words Framing Machine
open Stratum (Hashes ShareInput ShareCheckOk Uncollided validateShare)

/-- A share that was accepted, with what the check has found. -/
abbrev Attempt := ShareInput × ShareCheckOk

/-- The accepted share that waits for its reply. -/
def PendingShare.attempt (pending : PendingShare) : Option Attempt :=
  match pending.checked with
  | .rejected _ => none
  | .accepted input check => some (input, check)

/-- The accepted share that a frame has started. -/
def Started.attempt : Started → Option Attempt
  | .done => none
  | .waits pending => pending.attempt
  | .rejected _ => none

/-- The share that is credited. -/
def Accepted.attempt (accepted : Accepted) : Attempt :=
  (accepted.input, accepted.check)

/-- The share that a frame submits, if its channel and its job are known. -/
def Desk.attempt (desk : Desk) (frame : Sv2Frame) : Option ShareInput :=
  match desk.conn.phase, submissionOf frame with
  | .ready, some (.ok m) =>
    (desk.submitted m).bind fun args =>
      (fullExtranonce args.channel args.extranonce).toOption.map args.input
  | _, _ => none

/--
The two shares are not the same attempt, and no collision of the hash makes
them look so.
-/
def Distinct (hashes : Hashes) (s t : ShareInput) : Prop :=
  Uncollided hashes s t ∧
    ¬ (s.work = t.work ∧ JsNumber.bits s.ntime = JsNumber.bits t.ntime ∧
      JsNumber.bits s.nonce = JsNumber.bits t.nonce)

theorem header_ne_of_distinct {hashes : Hashes} {s t : ShareInput}
    {left right : ShareCheckOk}
    (first : validateShare hashes s = .ok (.ok left))
    (second : validateShare hashes t = .ok (.ok right))
    (distinct : Distinct hashes s t) :
    left.serializedHeader ≠ right.serializedHeader := fun same =>
  distinct.2 (Stratum.validateShare_determines first second distinct.1 same)

/-! ## One frame -/

/-- A share that waits is the one the frame submits, and it was validated. -/
theorem attempt_of_starts {setup : Setup} {desk : Desk} {frame : Sv2Frame}
    {pending : PendingShare} {attempt : Attempt}
    (starts : desk.starts setup frame = some (.waits pending))
    (accepted : pending.attempt = some attempt) :
    desk.attempt frame = some attempt.1 ∧
      validateShare setup.hashes attempt.1 = .ok (.ok attempt.2) := by
  rw [Desk.starts] at starts
  rw [Desk.attempt]
  cases phase : desk.conn.phase with
  | setupPending =>
    rw [phase] at starts
    cases starts
  | ready =>
    rw [phase] at starts
    obtain ⟨read, submits, judged⟩ := Option.map_eq_some_iff.mp starts
    rw [submits]
    cases read with
    | error thrown => cases judged
    | ok m =>
      rw [Desk.judgedRead, Desk.judged] at judged
      cases found : desk.submitted m with
      | none =>
        rw [found] at judged
        cases judged
      | some args =>
        rw [found] at judged
        dsimp only at judged
        cases checked : processSubmit setup.hashes args with
        | error thrown =>
          rw [checked] at judged
          cases judged
        | ok verdict =>
          rw [checked] at judged
          cases judged
          cases verdict with
          | rejected reason => cases accepted
          | accepted input check =>
            cases accepted
            dsimp only
            rw [found]
            exact processSubmit_accepted checked

/-- The reply credits the share that waited. -/
theorem yields_replySubmit (moment : Moment) (pending : PendingShare) :
    (replySubmit moment pending).Yields fun accepted =>
      accepted.map Accepted.attempt = pending.attempt := by
  rw [replySubmit, PendingShare.attempt]
  cases pending.checked with
  | rejected reason =>
    exact Action.yields_bind fun _ => Action.yields_pure rfl
  | accepted input check =>
    refine Action.yields_bind fun conn => Action.yields_bind fun _ =>
      Action.yields_bind fun _ => Action.yields_pure rfl

/-! ## The process -/

namespace Process

variable {Key : Type}

/-- The shares that were accepted: credited ones and ones that wait. -/
def attempts (process : Process Key) : List Attempt :=
  process.shares.map Accepted.attempt ++
    process.submits.filterMap fun entry => entry.2.attempt

/-- The share that the round at hand submits. -/
def attempt (process : Process Key) : Option ShareInput :=
  match process.work with
  | .frame connId frame :: _ =>
    (process.miner connId).bind fun conn => (process.desk conn).attempt frame
  | _ => none

/-- The share at hand differs from all that were accepted. -/
def SubmitsNew (setup : Setup) (process : Process Key) : Prop :=
  ∀ input ∈ process.attempt, ∀ earlier ∈ process.attempts,
    Distinct setup.hashes input earlier.1

/-- The accepted shares are valid, and their headers differ. -/
structure HeadersDiffer (setup : Setup) (process : Process Key) : Prop where
  valid : ∀ attempt ∈ process.attempts,
    validateShare setup.hashes attempt.1 = .ok (.ok attempt.2)
  distinct : (process.attempts.map fun attempt =>
    attempt.2.serializedHeader).Nodup

theorem HeadersDiffer.perm {setup : Setup} {process next : Process Key}
    (differ : process.HeadersDiffer setup)
    (perm : next.attempts.Perm process.attempts) :
    next.HeadersDiffer setup where
  valid attempt member := differ.valid attempt (perm.subset member)
  distinct := (perm.map _).nodup_iff.mpr differ.distinct

theorem HeadersDiffer.add {setup : Setup} {process next : Process Key}
    (differ : process.HeadersDiffer setup) {attempt : Attempt}
    (added : next.attempts = process.attempts ++ [attempt])
    (valid : validateShare setup.hashes attempt.1 = .ok (.ok attempt.2))
    (new : ∀ earlier ∈ process.attempts,
      Distinct setup.hashes attempt.1 earlier.1) :
    next.HeadersDiffer setup where
  valid := by
    rw [added]
    intro other member
    obtain old | fresh := List.mem_append.mp member
    · exact differ.valid other old
    · cases List.mem_singleton.mp fresh
      exact valid
  distinct := by
    rw [added, List.map_append, List.nodup_append]
    refine ⟨differ.distinct, List.nodup_singleton _, ?_⟩
    rintro header old other fresh same
    obtain ⟨earlier, member, rfl⟩ := List.mem_map.mp old
    cases List.mem_singleton.mp fresh
    exact header_ne_of_distinct valid (differ.valid earlier member)
      (new earlier member) same.symm

theorem attempts_begin (process : Process Key) (connId : Nat)
    (started : Started) :
    (process.begin connId started).attempts =
      process.attempts ++ started.attempt.toList := by
  cases started with
  | done | rejected => exact (List.append_nil _).symm
  | waits pending =>
    have last : [(connId, pending)].filterMap (fun entry => entry.2.attempt) =
        pending.attempt.toList := by
      cases attempt : pending.attempt with
      | none => simp [attempt]
      | some found => simp [attempt]
    rw [attempts, attempts, List.append_assoc, Started.attempt, ← last,
      ← List.filterMap_append]
    rfl

theorem attempts_congr {process next : Process Key}
    (same : next.submits = process.submits ∧ next.shares = process.shares) :
    next.attempts = process.attempts := by
  rw [attempts, attempts, same.1, same.2]

/-- A reply takes the share from those that wait to those credited. -/
theorem attempts_takeReply (moment : Moment) {process : Process Key}
    {index : Nat} {entry : Nat × PendingShare}
    (waits : process.submits[index]? = some entry) (conn : MiningConn) :
    ({ process with submits := process.submits.eraseIdx index }.takeReply
      moment entry.1 conn entry.2).attempts.Perm process.attempts := by
  have parts : (entry.2.attempt.toList ++ (process.submits.eraseIdx
      index).filterMap fun entry => entry.2.attempt).Perm
        (process.submits.filterMap fun entry => entry.2.attempt) := by
    obtain ⟨bound, rfl⟩ := List.getElem?_eq_some_iff.mp waits
    have perm := (List.getElem_cons_eraseIdx_perm bound).filterMap
      fun entry => entry.2.attempt
    rw [List.filterMap_cons] at perm
    cases attempt : (process.submits[index]).2.attempt with
    | none => rwa [attempt] at perm
    | some found => rwa [attempt] at perm
  rw [takeReply]
  cases performed : (replySubmit moment entry.2).perform
      ({ process with submits := process.submits.eraseIdx index }.desk
        conn) with
  | mk outcome left =>
    have made := congrArg Prod.fst performed
    cases outcome with
    | error thrown =>
      obtain ⟨value, returned⟩ := returns_replySubmit moment entry.2
        ({ process with submits := process.submits.eraseIdx index }.desk
          conn)
      cases made.symm.trans returned
    | ok accepted =>
      have credited := yields_replySubmit moment entry.2 _ accepted made
      have front : (process.shares ++ accepted.toList).map
          Accepted.attempt = process.shares.map Accepted.attempt ++
            entry.2.attempt.toList := by
        rw [List.map_append, ← credited]
        cases accepted with
        | none => rfl
        | some accepted => rfl
      change ((process.shares ++ accepted.toList).map Accepted.attempt ++
        (process.submits.eraseIdx index).filterMap _).Perm _
      rw [front, List.append_assoc]
      exact parts.append_left _

theorem attempts_settle (moment : Moment) (process : Process Key) (connId : Nat)
    (outcome : Except String JdOutcome) :
    (process.settle moment connId outcome).attempts = process.attempts := by
  match outcome with
  | .error thrown => exact rfl
  | .ok .done => exact rfl
  | .ok (.waits jdAwait) => exact rfl
  | .ok (.deliver m userIdentity) =>
    rw [settle]
    obtain same | ⟨source, conn, ch, job, -, -, sent⟩ :=
      pushCustomJob_cases moment process m userIdentity
    · rw [same]
      exact rfl
    · rw [sent]
      exact rfl

/-- Without a frame no share is accepted. -/
theorem attempts_takeEvent {aead : Aead Key} {setup : Setup} {moment : Moment}
    {process next : Process Key} {event : Event Key}
    (taken : process.takeEvent aead setup moment event = some next) :
    next.attempts.Perm process.attempts := by
  cases event with
  | accept | close | acceptDeclarer | declarerClose | job | collect =>
    cases taken
    exact .refl _
  | data source chunk =>
    obtain ⟨link, -, taken⟩ := Option.bind_eq_some_iff.mp taken
    split at taken
    · cases taken
    · cases taken
      rw [takeData]
      split
      · exact .refl _
      · exact .refl _
  | reply index =>
    obtain ⟨entry, waits, taken⟩ := Option.bind_eq_some_iff.mp taken
    obtain ⟨conn, -, rfl⟩ := Option.map_eq_some_iff.mp taken
    exact attempts_takeReply moment waits conn
  | declarerData source chunk =>
    obtain ⟨link, -, taken⟩ := Option.bind_eq_some_iff.mp taken
    split at taken
    · cases taken
    · cases taken
      rw [takeDeclarerData]
      split
      · exact .refl _
      · exact .refl _
  | resume index =>
    obtain ⟨entry, -, taken⟩ := Option.bind_eq_some_iff.mp taken
    obtain ⟨conn, -, rfl⟩ := Option.map_eq_some_iff.mp taken
    rw [takePart, attempts_settle]
    exact .refl _
  | next => cases taken

/-- The share of a frame is the one of the round. -/
theorem attempt_of_round {process : Process Key} {connId : Nat}
    {frame : Sv2Frame} {rest : List Work} {conn : MiningConn}
    (working : process.work = .frame connId frame :: rest)
    (found : process.miner connId = some conn) {input : ShareInput}
    (here : (process.desk conn).attempt frame = some input) :
    input ∈ process.attempt := by
  rw [attempt, working]
  dsimp only
  rw [found]
  exact here

theorem attempts_takeFrame (setup : Setup) (moment : Moment)
    (process : Process Key) (connId : Nat) (conn : MiningConn)
    (frame : Sv2Frame) :
    (process.takeFrame setup moment connId conn frame).attempts =
      process.attempts ++ (((process.desk conn).starts setup frame).bind
        Started.attempt).toList := by
  have kept := ledger_takeFrame setup moment process connId conn frame
  have same := attempts_congr
    ⟨congrArg Prod.fst kept, congrArg (fun kept => kept.2.1) kept⟩
  rw [same, attempts_begin]
  cases (process.desk conn).starts setup frame with
  | none => rfl
  | some started => rfl

theorem headersDiffer_takeFrame {setup : Setup} {moment : Moment}
    {process : Process Key} {connId : Nat} {conn : MiningConn}
    {frame : Sv2Frame} (differ : process.HeadersDiffer setup)
    (new : ∀ input, (process.desk conn).attempt frame = some input →
      ∀ earlier ∈ process.attempts,
        Distinct setup.hashes input earlier.1) :
    (process.takeFrame setup moment connId conn frame).HeadersDiffer setup := by
  have same := attempts_takeFrame setup moment process connId conn frame
  cases accepted : ((process.desk conn).starts setup frame).bind
      Started.attempt with
  | none =>
    rw [accepted, Option.toList_none, List.append_nil] at same
    exact differ.perm (.of_eq same)
  | some attempt =>
    rw [accepted] at same
    obtain ⟨started, starts, accepted⟩ := Option.bind_eq_some_iff.mp accepted
    cases started with
    | done => cases accepted
    | rejected thrown => cases accepted
    | waits pending =>
      obtain ⟨submitted, valid⟩ := attempt_of_starts starts accepted
      exact differ.add same valid (new attempt.1 submitted)

theorem headersDiffer_step {aead : Aead Key} {setup : Setup}
    {process next : Process Key} {event : Moment × Event Key}
    (differ : process.HeadersDiffer setup)
    (submits : process.SubmitsNew setup)
    (taken : step aead setup process event = some next) :
    next.HeadersDiffer setup := by
  obtain ⟨-, ⟨-, happened⟩ | ⟨round, rest, working, taken⟩⟩ := step_cases taken
  · exact differ.perm (attempts_takeEvent happened)
  · cases round with
    | plain | declarerPlain =>
      obtain ⟨conn, -, rfl⟩ := Option.map_eq_some_iff.mp taken
      exact differ.perm (.refl _)
    | frame source frame =>
      obtain ⟨conn, found, rfl⟩ := Option.map_eq_some_iff.mp taken
      exact headersDiffer_takeFrame (differ.perm (.refl _)) fun input here =>
        submits input (attempt_of_round working found here)
    | push source channelId job =>
      obtain ⟨conn, -, rfl⟩ := Option.map_eq_some_iff.mp taken
      refine differ.perm ?_
      rw [takePush]
      split
      · exact .refl _
      · exact .refl _
    | declarerFrame source frame =>
      obtain ⟨conn, -, rfl⟩ := Option.map_eq_some_iff.mp taken
      refine differ.perm ?_
      rw [takePart, attempts_settle]
      exact .refl _

theorem headersDiffer_started (setup : Setup) :
    (started : Process Key).HeadersDiffer setup where
  valid _ member := absurd member List.not_mem_nil
  distinct := List.nodup_nil

end Process

/--
If each share that is submitted differs from every share accepted before it,
credited or waiting for its reply, no header is credited twice.
-/
theorem credited_headers_distinct {Key : Type} {aead : Aead Key}
    {setup : Setup} {events : List (Moment × Event Key)}
    {final : Process Key}
    (submits : Along (Process.step aead setup)
      (fun process _ => process.SubmitsNew setup) Process.started events)
    (taken : run (Process.step aead setup) Process.started events =
      some final) :
    (final.shares.map fun share => share.check.serializedHeader).Nodup := by
  have differ : final.HeadersDiffer setup :=
    run_invariant (fun _ _ _ differ new stepped =>
      Process.headersDiffer_step differ new stepped)
      (Process.headersDiffer_started setup) submits taken
  have front := differ.distinct
  rw [Process.attempts, List.map_append, List.map_map] at front
  exact (List.nodup_append.mp front).1

/-! ### One message, twice -/

instance decidableUncollided (hashes : Hashes) (s t : ShareInput) :
    Decidable (Uncollided hashes s t) :=
  match first : s.work, second : t.work with
  | .error _, _ => isTrue fun _ _ read => by
      rw [first] at read
      cases read
  | .ok _, .error _ => isTrue fun _ _ _ read => by
      rw [second] at read
      cases read
  | .ok left, .ok right =>
    decidable_of_iff
      (left.root hashes = right.root hashes →
        left.coinbase = right.coinbase ∧ left.branches = right.branches)
      (by
        constructor
        · intro same one other readOne readOther
          rw [first] at readOne
          rw [second] at readOther
          cases readOne
          cases readOther
          exact same
        · exact fun uncollided => uncollided left right first second)

instance decidableDistinct (hashes : Hashes) (s t : ShareInput) :
    Decidable (Distinct hashes s t) :=
  inferInstanceAs (Decidable (_ ∧ ¬ _))

instance decidableSubmitsNew {Key : Type} (setup : Setup)
    (process : Process Key) : Decidable (process.SubmitsNew setup) :=
  inferInstanceAs (Decidable (∀ input ∈ process.attempt, _))

/-- A job without transactions. -/
def plainJob : Stratum.StratumJob where
  toJobContext := Stratum.emptyJob
  cleanJobs := true
  ntimeMin := 0
  ntimeRoll := 0

/-- `SubmitSharesExtended` on the first channel for the first job. -/
def shareFrame (nonce : Byte) : Sv2Frame where
  extensionType := 0
  channelMsg := true
  msgType := msgSubmitSharesExtended
  payload := [1, 0, 0, 0, 0, 0, 0, 0, 1, 0, 0, 0, nonce, 0, 0, 0, 0, 0, 0, 0,
    0, 0, 0, 0, 7, 0, 0, 0, 0, 0, 0, 0]

/-- A miner opens a channel and submits two shares. -/
def twoShares (first second : Byte) : List (Moment × Event Unit) :=
  [.accept ⟨none, 0⟩,
    .data 0 (plainSegment setupFrame ++ (plainSegment (openFrame 7) ++
      (plainSegment (shareFrame first) ++ plainSegment (shareFrame second)))),
    .next, .next, .next, .next, .next, .next, .next, .next,
    .reply 0, .reply 0].map fun event =>
      ({ now := 0, current := some plainJob }, event)

/-- The headers that are credited in a run. -/
def creditedIn (events : List (Moment × Event Unit)) :
    Option (List (List Byte)) :=
  (run (Process.step plainAead (drawingSetup fun _ => 0)) Process.started
    events).map fun final =>
      final.shares.map fun share => share.check.serializedHeader

/-- Shares with two nonces are both credited. -/
theorem two_nonces_distinct_headers :
    ∃ final, run (Process.step plainAead (drawingSetup fun _ => 0))
        Process.started (twoShares 1 2) = some final ∧
      final.shares.length = 2 ∧
      (final.shares.map fun share => share.check.serializedHeader).Nodup := by
  have checked : ((run (Process.step plainAead (drawingSetup fun _ => 0))
      Process.started (twoShares 1 2)).map fun final =>
        final.shares.length) = some 2 := by
    decide +kernel
  obtain ⟨final, taken, both⟩ := Option.map_eq_some_iff.mp checked
  refine ⟨final, taken, both, ?_⟩
  exact credited_headers_distinct (by decide +kernel) taken

/-- A share that is sent again is credited again. -/
theorem repeated_share_credited_twice :
    ∃ headers, creditedIn (twoShares 1 1) = some headers ∧
      ¬ headers.Nodup := by
  have twice : (creditedIn (twoShares 1 1)).map
      (fun headers => decide headers.Nodup) = some false := by
    decide +kernel
  obtain ⟨headers, credited, repeated⟩ := Option.map_eq_some_iff.mp twice
  exact ⟨headers, credited, of_decide_eq_false repeated⟩

end B3Chain.Sv2
