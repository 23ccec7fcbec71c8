import B3Chain.Stratum.ServerRuns
import B3Chain.Stratum.Answers

/-!
# The submissions among the lines of a client

A line may be a submission.  Its share is read from the parameters, checked
against the job it names, and judged by what the connection and the job manager
hold at that time.
-/

namespace B3Chain.Stratum

open Words Machine

/-! ## Shares -/

/-- The parameters of a submission. -/
def submissionOf (msg : Json) : Option Json :=
  if methodOf msg = some .submit then
    (msg.property "params").toOption.map fun params =>
      Json.orElse params (.arr [])
  else none

/-- The share a message submits. -/
def submittedShare (setup : Setup) (msg : Json) : Option Submitted :=
  (submissionOf msg).bind fun p =>
    match readSubmitted setup.runtime p with
    | .ok share => share
    | .error _ => none

/-- The share a message submits and what it is checked by, if it has a job. -/
def judgedShare (setup : Setup) (moment : Moment) (c : Client) (msg : Json) :
    Option (Submitted × ShareInput) :=
  (submittedShare setup msg).bind fun share =>
    ((submitView moment c).getById share.jobId).map fun job =>
      (share, shareInput c.extranonce1Hex (submitView moment c) share job)

/-- The share a message is credited. -/
def creditedShare (setup : Setup) (moment : Moment) (c : Client)
    (msg : Json) : Option (Submitted × ShareInput × ShareCheckOk) :=
  (submissionOf msg).bind fun p =>
    match (onSubmit setup.runtime setup.hashes
        (fun key canon signature =>
          setup.verifyP256Digest key (setup.sha256 canon) signature)
        c.extranonce1Hex c.seenShares (submitView moment c) p).2 with
    | .ok (.credited share input check) => some (share, input, check)
    | _ => none

/-- A credited share has been judged. -/
theorem judgedShare_of_credited {setup : Setup} {moment : Moment}
    {c : Client} {msg : Json} {share : Submitted} {input : ShareInput}
    {check : ShareCheckOk}
    (credited : creditedShare setup moment c msg =
      some (share, input, check)) :
    judgedShare setup moment c msg = some (share, input) := by
  obtain ⟨p, submits, judged⟩ := Option.bind_eq_some_iff.mp credited
  split at judged
  · next named against passed verdict =>
      cases judged
      obtain ⟨read, job, found, same, -⟩ := onSubmit_credited _ _ _ _ verdict
      have submitted : submittedShare setup msg = some share := by
        rw [submittedShare, submits, Option.bind_some, read]
      rw [judgedShare, submitted, Option.bind_some, found, same]
      rfl
  · cases judged

/-- The job of a judged share is the one it names. -/
theorem known_of_judgedShare {setup : Setup} {moment : Moment} {c : Client}
    {msg : Json} {share : Submitted} {input : ShareInput}
    (judged : judgedShare setup moment c msg = some (share, input)) :
    submittedShare setup msg = some share ∧
      ∃ job, moment.getById share.jobId = some job ∧
        input = shareInput c.extranonce1Hex (submitView moment c) share
          job.toJobContext := by
  obtain ⟨named, submitted, found⟩ := Option.bind_eq_some_iff.mp judged
  obtain ⟨context, known, pair⟩ := Option.map_eq_some_iff.mp found
  obtain ⟨job, held, rfl⟩ := Option.map_eq_some_iff.mp known
  cases pair
  exact ⟨submitted, job, held, rfl⟩

/-! ## The lines of an event -/

/-- The connection and the text of a chunk. -/
def Event.chunk : Event → Option (Nat × JsString)
  | .data connId chunk => some (connId, chunk)
  | _ => none

/-- Each line of an event meets a condition in the state it is handled in. -/
def LinesMeet (setup : Setup) (moment : Moment)
    (met : Nat → Server → JsString → Prop) (server : Server)
    (event : Event) : Prop :=
  ∀ chunk ∈ event.chunk, ∀ c ∈ server.find chunk.1,
    ChunkMeets setup moment (met chunk.1) server chunk.1 c chunk.2

instance decidableLinesMeet (setup : Setup) (moment : Moment)
    (met : Nat → Server → JsString → Prop)
    [∀ connId server line, Decidable (met connId server line)]
    (server : Server) (event : Event) :
    Decidable (LinesMeet setup moment met server event) :=
  inferInstanceAs (Decidable (∀ chunk ∈ event.chunk, _))

theorem LinesMeet.imp {setup : Setup} {moment : Moment}
    {met other : Nat → Server → JsString → Prop} {server : Server}
    {event : Event}
    (each : ∀ connId server line, met connId server line →
      other connId server line)
    (meets : LinesMeet setup moment met server event) :
    LinesMeet setup moment other server event := by
  intro chunk read c found short
  exact (meets chunk read c found short).imp (each chunk.1)

/-- What follows from what the lines keep holds at each line. -/
theorem linesMeet_of_invariant {setup : Setup} {moment : Moment}
    {met : Nat → Server → JsString → Prop} (invariant : Server → Prop)
    (kept : ∀ connId server buf, invariant server →
      invariant (server.keep connId buf))
    (lines : ∀ connId server line, invariant server →
      invariant (takeLine setup moment connId server line))
    (implied : ∀ connId server line, invariant server →
      met connId server line)
    {server : Server} (start : invariant server) (event : Event) :
    LinesMeet setup moment met server event := by
  intro chunk _ c _ _
  refine along_of_kept invariant ?_ (implied chunk.1)
    (kept chunk.1 server _ start) _
  rintro before line _ holds ⟨⟩
  exact lines chunk.1 before line holds

end B3Chain.Stratum
