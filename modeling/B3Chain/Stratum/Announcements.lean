import B3Chain.Stratum.Submissions

/-!
# Announced difficulties

A client is told a difficulty with `mining.set_difficulty` and a job with
`mining.notify`.  The difficulty of a job is fixed when the job is first sent,
and it is announced again before the job is sent again, if another one has been
announced in between.  So a share is judged by the difficulty announced last
before its job was sent last, whatever else was announced afterwards.
-/

namespace B3Chain.Stratum

open Words Machine

/-! ## What a client has been told -/

/-- A difficulty or a job a client is told. -/
inductive Told
  | difficulty (value : ℚ)
  | job (jobId : JsString)
  deriving DecidableEq

/-- The difficulty of a message. -/
def Told.value : Told → Option ℚ
  | .difficulty value => some value
  | .job _ => none

/-- What a message that is written tells the client. -/
def Sent.told : Sent → Option Told
  | .notify method params =>
    if method = "mining.set_difficulty" then
      match params with
      | [.num (.finite value)] => some (.difficulty value)
      | _ => none
    else if method = "mining.notify" then
      match params with
      | .str jobId :: _ => some (.job jobId)
      | _ => none
    else none
  | _ => none

/-- The difficulty that was told last. -/
def lastDifficulty (told : List Told) : Option ℚ :=
  told.reverse.findSome? Told.value

/-- The difficulty that was told last before the job was told last. -/
def announcedFor (jobId : JsString) (told : List Told) : Option ℚ :=
  (told.reverse.dropWhile (· ≠ .job jobId)).findSome? Told.value

theorem lastDifficulty_difficulty (told : List Told) (value : ℚ) :
    lastDifficulty (told ++ [.difficulty value]) = some value := by
  rw [lastDifficulty, List.reverse_append]
  rfl

theorem lastDifficulty_job (told : List Told) (jobId : JsString) :
    lastDifficulty (told ++ [.job jobId]) = lastDifficulty told := by
  rw [lastDifficulty, List.reverse_append]
  rfl

theorem announcedFor_self (told : List Told) (jobId : JsString) :
    announcedFor jobId (told ++ [.job jobId]) = lastDifficulty told := by
  rw [announcedFor, List.reverse_append, List.reverse_singleton,
    List.singleton_append, List.dropWhile_cons_of_neg (by simp)]
  rfl

theorem announcedFor_other (told : List Told) {jobId : JsString}
    {message : Told} (other : message ≠ .job jobId) :
    announcedFor jobId (told ++ [message]) = announcedFor jobId told := by
  rw [announcedFor, List.reverse_append, List.reverse_singleton,
    List.singleton_append, List.dropWhile_cons_of_pos (by simpa using other)]
  rfl

/-! ## Stamps and announcements -/

/-- What a client has been told about difficulties and jobs. -/
def Client.told (c : Client) : List Told :=
  c.sent.filterMap Sent.told

/-- The difficulties of the jobs and what has been announced. -/
structure Dial where
  jobShareDiff : List (JsString × ℚ)
  lastNotifiedDiff : Option ℚ
  told : List Told
  destroyed : Bool

/-- The dial of a connection. -/
def Client.dial (c : Client) : Dial where
  jobShareDiff := c.jobShareDiff
  lastNotifiedDiff := c.lastNotifiedDiff
  told := c.told
  destroyed := c.destroyed

namespace Dial

/-- A message is written, if the socket is not destroyed. -/
def tell (dial : Dial) (message : Told) : Dial :=
  if dial.destroyed then dial
  else { dial with told := dial.told ++ [message] }

/-- A difficulty is announced. -/
def announce (dial : Dial) (value : ℚ) : Dial :=
  { dial with lastNotifiedDiff := some value }.tell (.difficulty value)

/-- A job is sent at its difficulty. -/
def send (dial : Dial) (jobId : JsString) (assigned : ℚ) : Dial :=
  (if dial.lastNotifiedDiff = some assigned then dial
    else dial.announce assigned).tell (.job jobId)

/-- Each job that was sent is stamped with the difficulty announced for it. -/
structure Agrees (dial : Dial) : Prop where
  stamps : ∀ jobId, Told.job jobId ∈ dial.told →
    ∃ value, dial.jobShareDiff.lookup jobId = some value ∧
      announcedFor jobId dial.told = some value
  last : dial.destroyed = false →
    lastDifficulty dial.told = dial.lastNotifiedDiff

variable {dial : Dial}

theorem Agrees.announce (agrees : dial.Agrees) (value : ℚ) :
    (dial.announce value).Agrees := by
  rw [Dial.announce, tell]
  split
  · next gone =>
      refine ⟨agrees.stamps, fun alive => ?_⟩
      exact absurd (gone.symm.trans alive) (by decide)
  · refine ⟨fun jobId member => ?_, fun _ => lastDifficulty_difficulty _ _⟩
    rw [announcedFor_other _ Told.noConfusion]
    refine agrees.stamps jobId ?_
    exact (List.mem_append.mp member).resolve_right (by simp)

/-- A stamped job is sent, after its difficulty if need be. -/
theorem Agrees.send (agrees : dial.Agrees) {jobId : JsString} {assigned : ℚ}
    (stamped : dial.jobShareDiff.lookup jobId = some assigned) :
    (dial.send jobId assigned).Agrees := by
  have ready : ∀ told : Dial, told.Agrees → told.jobShareDiff.lookup jobId =
      some assigned → told.lastNotifiedDiff = some assigned →
        (told.tell (.job jobId)).Agrees := by
    intro told agrees stamped announced
    rw [tell]
    split
    · exact agrees
    · next alive =>
        have last := agrees.last (Bool.eq_false_of_not_eq_true alive)
        refine ⟨fun other member => ?_, fun _ => ?_⟩
        · by_cases same : other = jobId
          · refine ⟨assigned, same ▸ stamped, ?_⟩
            rw [same]
            exact (announcedFor_self _ _).trans (last.trans announced)
          · have apart : Told.job jobId ≠ Told.job other := by
              rintro ⟨⟩
              exact same rfl
            rw [announcedFor_other _ apart]
            refine agrees.stamps other ?_
            refine (List.mem_append.mp member).resolve_right fun only => ?_
            exact apart (List.mem_singleton.mp only).symm
        · exact (lastDifficulty_job _ _).trans last
  rw [Dial.send]
  split
  · next announced => exact ready dial agrees stamped announced
  · refine ready _ (agrees.announce assigned) ?_ ?_
    · rw [Dial.announce, tell]
      split
      · exact stamped
      · exact stamped
    · rw [Dial.announce, tell]
      split
      · rfl
      · rfl

/-- Another job is stamped. -/
theorem Agrees.stamp (agrees : dial.Agrees) (jobId : JsString) (value : ℚ) :
    ({ dial with jobShareDiff := dial.jobShareDiff ++ [(jobId, value)] } :
      Dial).Agrees := by
  refine ⟨fun other member => ?_, agrees.last⟩
  obtain ⟨stamp, stamped, announced⟩ := agrees.stamps other member
  refine ⟨stamp, ?_, announced⟩
  rw [List.lookup_append, stamped]
  rfl

end Dial

/-! ## Connections -/

namespace Client

theorem dial_write (c : Client) (message : Sent) :
    (c.write message).dial = (message.told.elim c.dial c.dial.tell) := by
  rw [write]
  split
  · next gone =>
      cases message.told with
      | none => rfl
      | some told => exact (if_pos gone).symm
  · next alive =>
      cases found : message.told with
      | none => simp [dial, told, found]
      | some told => simp [dial, Client.told, found, Dial.tell, alive]

theorem dial_pushDifficulty (c : Client) (difficulty : ℚ) :
    (c.pushDifficulty difficulty).dial = c.dial.announce difficulty := by
  rw [pushDifficulty, dial_write]
  rfl

theorem dial_announceJob (c : Client) (job : StratumJob) (assigned : ℚ) :
    (c.announceJob job assigned).dial = c.dial.send job.jobId assigned := by
  have told : (Sent.notify "mining.notify" (notifyParams job)).told =
      some (.job job.jobId) := rfl
  rw [announceJob, dial_write, told, Dial.send]
  change Dial.tell (Client.dial (if _ then _ else _)) _ = Dial.tell _ _
  refine congrArg (Dial.tell · (.job job.jobId)) ?_
  change _ = if c.lastNotifiedDiff = some assigned then _ else _
  split
  · rfl
  · exact dial_pushDifficulty c assigned

theorem agrees_stampJob {c stamped : Client} {job : StratumJob}
    {assigned : ℚ} (agrees : c.dial.Agrees)
    (done : c.stampJob job = .ok (assigned, stamped)) :
    stamped.dial.Agrees ∧
      stamped.dial.jobShareDiff.lookup job.jobId = some assigned := by
  unfold stampJob at done
  split at done
  · next existing found =>
      cases done
      exact ⟨agrees, found⟩
  · next new =>
      dsimp only at done
      split at done
      · cases done
      · cases done
        refine ⟨agrees.stamp _ _, ?_⟩
        change List.lookup job.jobId (c.jobShareDiff ++ _) = _
        rw [List.lookup_append, new, Option.none_or, List.lookup_cons_self]

theorem agrees_pushJob {c : Client} (agrees : c.dial.Agrees)
    (job : StratumJob) : (c.pushJob job).2.dial.Agrees := by
  unfold pushJob
  dsimp only
  split
  · exact agrees
  · next assigned stamped done =>
      obtain ⟨kept, found⟩ := agrees_stampJob (c := { c with lastJob := job })
        agrees done
      rw [dial_announceJob]
      exact kept.send found

end Client

theorem agrees_new (params : VardiffParams) (now : Int) (connId : Nat)
    (extranonce1Hex : JsString) :
    (Client.new params now connId extranonce1Hex).dial.Agrees where
  stamps _ member := absurd member List.not_mem_nil
  last _ := rfl

theorem agrees_retune (setup : Setup) (moment : Moment) {c : Client}
    (agrees : c.dial.Agrees) : (retune setup moment c).dial.Agrees := by
  unfold retune
  split
  · exact agrees
  · split
    · exact agrees
    · dsimp only
      rw [Client.dial_pushDifficulty]
      exact agrees.announce _

/-! ## Handlers -/

/-- The dial a handler works on. -/
def Desk.dial (desk : Desk) : Dial :=
  desk.client.dial

/-- The announcements of the handler's connection agree. -/
def Desk.Agrees (desk : Desk) : Prop :=
  desk.dial.Agrees

/-- Answers and counters tell nothing about difficulties and jobs. -/
theorem blind_dial : Blind Desk.dial where
  result desk _ _ := desk.client.dial_write _
  error desk _ _ _ := desk.client.dial_write _
  ipc _ _ := rfl
  rejected _ _ := rfl
  subscribed _ _ _ := rfl
  seen _ _ := rfl
  accepted _ _ _ := rfl
  shared _ _ := rfl

theorem quiet_changeClient {change : Client → Client}
    (same : ∀ c, (change c).dial = c.dial) :
    (changeClient change).Quiet Desk.dial :=
  Action.quiet_modify fun desk => same desk.client

theorem quiet_changeShared (change : Shared → Shared) :
    (changeShared change).Quiet Desk.dial :=
  Action.quiet_modify fun _ => rfl

/-- The last part of a handler, which changes the connection and answers. -/
theorem quiet_changed {change : Client → Client}
    (same : ∀ c, (change c).dial = c.dial) (setup : Setup)
    (msg value : Json) :
    Action.Quiet Desk.dial (changeClient change >>= fun _ =>
      sendResult setup msg value >>= fun _ =>
        (pure none : Handler (Option Await))) :=
  Action.quiet_bind (quiet_changeClient same) fun _ =>
    Action.quiet_bind (blind_dial.quiet_sendResult setup msg value) fun _ =>
      Action.quiet_pure none

theorem quiet_onAuthorize (setup : Setup) (moment : Moment) (msg : Json) :
    (onAuthorize setup moment msg).Quiet Desk.dial := by
  refine Action.quiet_bind (Blind.quiet_paramsOf msg) fun params => ?_
  refine Action.quiet_bind (Action.quiet_ofExcept _) fun text => ?_
  dsimp only
  split
  · exact Action.quiet_bind (blind_dial.quiet_sendResult setup msg _) fun _ =>
      Action.quiet_pure none
  · exact Action.quiet_bind (quiet_changeClient fun _ => rfl) fun _ =>
      Action.quiet_pure _

theorem quiet_sendChallenge (setup : Setup) :
    (sendChallenge setup).Quiet Desk.dial := by
  refine Action.quiet_bind Action.quiet_get fun desk => ?_
  refine Action.quiet_bind (quiet_changeShared _) fun _ => ?_
  exact quiet_changeClient fun c => Client.dial_write _ _

theorem quiet_firstParam (setup : Setup) (msg : Json) :
    (firstParam setup msg).Quiet Desk.dial := by
  refine Action.quiet_bind (Blind.quiet_paramsOf msg) fun params => ?_
  exact Action.quiet_bind (Action.quiet_ofExcept _) fun text =>
    Action.quiet_pure _

theorem quiet_onPubkey (setup : Setup) (msg : Json) :
    (onPubkey setup msg).Quiet Desk.dial := by
  refine Action.quiet_bind Blind.quiet_client fun c => ?_
  have refused : ∀ code message, Action.Quiet Desk.dial
      (sendError setup msg code message >>= fun _ =>
        (pure none : Handler (Option Await))) := fun code message =>
    Action.quiet_bind (blind_dial.quiet_sendError setup msg code message) fun _ =>
      Action.quiet_pure none
  split
  · exact refused _ _
  · refine Action.quiet_bind (quiet_firstParam setup msg) fun hex => ?_
    split
    · exact refused _ _
    · refine Action.quiet_bind (quiet_changeClient fun _ => rfl) fun _ => ?_
      split
      · refine quiet_changed ?_ setup msg _
        exact fun _ => rfl
      · exact Action.quiet_pure _

theorem quiet_keyFound (setup : Setup) (msg : Json)
    (found : Except JsError (Option PassportSlot)) :
    (keyFound setup msg found).Quiet Desk.dial := by
  refine Action.quiet_bind (Action.quiet_ofExcept _) fun existing => ?_
  split
  · exact Action.quiet_bind Blind.quiet_client fun c => Action.quiet_pure _
  · refine Action.quiet_bind Blind.quiet_client fun c => ?_
    split
    · refine quiet_changed ?_ setup msg _
      exact fun _ => rfl
    · refine Action.quiet_bind (quiet_changeClient fun _ => rfl) fun _ => ?_
      refine Action.quiet_bind (blind_dial.quiet_sendResult setup msg _) fun _ => ?_
      exact Action.quiet_bind (quiet_sendChallenge setup) fun _ =>
        Action.quiet_pure none

theorem quiet_holdFirst (rows : List PassportSlot) :
    (holdFirst rows).Quiet Desk.dial := by
  refine Action.quiet_bind Action.quiet_get fun desk => ?_
  dsimp only
  split
  · exact Action.quiet_pure none
  · exact Action.quiet_bind (quiet_changeShared _) fun _ =>
      Action.quiet_pure _

theorem quiet_slotReserved (setup : Setup) (msg : Json)
    (found : Except JsError (List PassportSlot)) :
    (slotReserved setup msg found).Quiet Desk.dial := by
  refine Action.quiet_bind (Action.quiet_ofExcept _) fun rows => ?_
  refine Action.quiet_bind (quiet_holdFirst rows) fun slot => ?_
  split
  · refine quiet_changed ?_ setup msg _
    exact fun _ => rfl
  · refine Action.quiet_bind (quiet_changeClient fun _ => rfl) fun _ => ?_
    refine Action.quiet_bind (blind_dial.quiet_sendResult setup msg _) fun _ => ?_
    exact Action.quiet_bind (quiet_sendChallenge setup) fun _ =>
      Action.quiet_pure none

theorem quiet_slotGranted (setup : Setup) (rows : List PassportSlot) :
    (slotGranted setup rows).Quiet Desk.dial := by
  refine Action.quiet_bind (quiet_holdFirst rows) fun slot => ?_
  split
  · exact Action.quiet_pure none
  · refine Action.quiet_bind (quiet_changeClient fun _ => rfl) fun _ => ?_
    exact Action.quiet_bind (quiet_sendChallenge setup) fun _ =>
      Action.quiet_pure none

theorem quiet_releaseSlot : releaseSlot.Quiet Desk.dial := by
  refine Action.quiet_bind Blind.quiet_client fun c => ?_
  split
  · exact Action.quiet_pure ()
  · exact Action.quiet_bind (quiet_changeShared _) fun _ =>
      quiet_changeClient fun _ => rfl

theorem quiet_onAttest (setup : Setup) (msg : Json) :
    (onAttest setup msg).Quiet Desk.dial := by
  refine Action.quiet_bind (quiet_firstParam setup msg) fun sigHex => ?_
  refine Action.quiet_bind Blind.quiet_client fun c => ?_
  refine Action.quiet_bind (quiet_changeClient fun _ => rfl) fun _ => ?_
  split
  · refine Action.quiet_bind quiet_releaseSlot fun _ => ?_
    refine quiet_changed ?_ setup msg _
    exact fun _ => rfl
  · split
    · exact Action.quiet_pure _
    · refine quiet_changed ?_ setup msg _
      exact fun _ => rfl

theorem quiet_slotLocked (setup : Setup) (msg : Json) (slotId : Nat)
    (done : Except JsError Bool) :
    (slotLocked setup msg slotId done).Quiet Desk.dial := by
  refine Action.quiet_bind (Action.quiet_ofExcept _) fun locked => ?_
  refine Action.quiet_bind (quiet_changeShared _) fun _ => ?_
  refine quiet_changed ?_ setup msg _
  exact fun _ => rfl

theorem keeps_of_quiet {α : Type} {part : Handler α}
    (quiet : part.Quiet Desk.dial) : part.Keeps Desk.Agrees := by
  change part.Keeps fun desk => desk.dial.Agrees
  exact Action.keeps_of_quiet quiet

theorem keeps_pushJob (job : StratumJob) :
    (pushJob job).Keeps Desk.Agrees := by
  intro desk agrees
  have kept : (MonadExcept.ofExcept (desk.client.pushJob job).1 :
      Handler Unit).Keeps Desk.Agrees :=
    keeps_of_quiet (Action.quiet_ofExcept _)
  exact kept { desk with client := (desk.client.pushJob job).2 }
    (Client.agrees_pushJob (c := desk.client) agrees job)

theorem keeps_suggestDifficulty (setup : Setup) (moment : Moment)
    (msg : Json) :
    (suggestDifficulty setup moment msg).Keeps Desk.Agrees := by
  refine Action.keeps_bind (keeps_of_quiet
    (Action.quiet_ofExcept _)) fun params => ?_
  split
  · exact keeps_of_quiet (Action.quiet_throw _)
  · exact keeps_of_quiet (Action.quiet_throw _)
  · refine Action.keeps_bind (keeps_of_quiet
      (Action.quiet_ofExcept _)) fun want => ?_
    split
    · exact keeps_of_quiet (blind_dial.quiet_sendError setup msg _ _)
    · refine Action.keeps_bind (keeps_of_quiet
        (quiet_changeClient fun _ => rfl)) fun _ => ?_
      refine Action.keeps_bind (Action.keeps_modify ?_) fun _ => ?_
      · intro desk agrees
        change (Client.dial _).Agrees
        rw [Client.dial_pushDifficulty]
        exact Dial.Agrees.announce agrees _
      · exact keeps_of_quiet (Action.quiet_tryCatch
          (blind_dial.quiet_sendResult setup msg _) fun _ =>
            blind_dial.quiet_sendError setup msg _ _)

/-- The rest of `onAuthorize`, once the difficulty of the worker is set. -/
theorem keeps_welcome (setup : Setup) (moment : Moment) (msg : Json) :
    Action.Keeps Desk.Agrees (do
      sendResult setup msg (.bool true)
      match moment.current with
      | none => pure none
      | some job => do
          pushJob job
          pure none : Handler (Option Await)) := by
  refine Action.keeps_bind
    (keeps_of_quiet (blind_dial.quiet_sendResult setup msg _)) fun _ => ?_
  cases moment.current with
  | none => exact keeps_of_quiet (Action.quiet_pure none)
  | some job =>
    exact Action.keeps_bind (keeps_pushJob job) fun _ =>
      keeps_of_quiet (Action.quiet_pure none)

theorem keeps_authorized (setup : Setup) (moment : Moment) (msg : Json)
    (username : JsString) (found : Except JsError (Option Nat)) :
    (authorized setup moment msg username found).Keeps Desk.Agrees := by
  refine Action.keeps_bind
    (keeps_of_quiet (quiet_changeClient fun _ => rfl)) fun _ => ?_
  dsimp only
  split
  · exact keeps_welcome setup moment msg
  · split
    · exact keeps_of_quiet (Action.quiet_throw _)
    · exact Action.keeps_bind
        (keeps_of_quiet (quiet_changeClient fun _ => rfl)) fun _ =>
          keeps_welcome setup moment msg

/-- A message leaves the announcements in agreement. -/
theorem keeps_callMethod (setup : Setup) (moment : Moment) (msg : Json) :
    (callMethod setup moment msg).Keeps Desk.Agrees := by
  refine Action.keeps_bind (keeps_of_quiet
    (Action.quiet_ofExcept _)) fun method => ?_
  split
  · exact keeps_of_quiet (Action.quiet_bind
      (blind_dial.quiet_onSubscribe setup msg) fun _ => Action.quiet_pure none)
  · exact keeps_of_quiet (quiet_onAuthorize setup moment msg)
  · exact keeps_of_quiet (quiet_onPubkey setup msg)
  · exact keeps_of_quiet (quiet_onAttest setup msg)
  · exact keeps_of_quiet (blind_dial.quiet_submitted setup moment msg)
  · exact keeps_of_quiet (Action.quiet_bind
      (blind_dial.quiet_sendResult setup msg _) fun _ => Action.quiet_pure none)
  · exact Action.keeps_bind (keeps_suggestDifficulty setup moment msg)
      fun _ => keeps_of_quiet (Action.quiet_pure none)
  · exact keeps_of_quiet (Action.quiet_bind
      (blind_dial.quiet_sendError setup msg _ _) fun _ => Action.quiet_pure none)
  · have read : (methodText setup method).Quiet Desk.dial := by
      cases method with
      | none => exact Action.quiet_pure _
      | some value => exact Action.quiet_ofExcept _
    exact keeps_of_quiet (Action.quiet_bind read fun text =>
      Action.quiet_bind (blind_dial.quiet_sendError setup msg _ _) fun _ =>
        Action.quiet_pure none)

theorem keeps_guarded {part : Handler (Option Await)} (setup : Setup)
    (msg : Json) (keeps : part.Keeps Desk.Agrees) :
    (guarded setup msg part).Keeps Desk.Agrees :=
  Action.keeps_tryCatch keeps fun _ =>
    keeps_of_quiet (blind_dial.quiet_internalError setup msg)

/-- A reply leaves the announcements in agreement. -/
theorem keeps_goOn {setup : Setup} {moment : Moment} {msg : Json}
    {await : Await} {reply : Reply} {part : Handler (Option Await)}
    (goes : goOn setup moment msg await reply = some part) :
    part.Keeps Desk.Agrees := by
  unfold goOn at goes
  split at goes
  · cases goes
    exact keeps_authorized setup moment msg _ _
  · cases goes
    exact keeps_of_quiet (quiet_keyFound setup msg _)
  · cases goes
    exact keeps_of_quiet (quiet_slotReserved setup msg _)
  · cases goes
    exact keeps_of_quiet (quiet_slotLocked setup msg _ _)
  · cases goes
    exact keeps_of_quiet (blind_dial.quiet_blockSubmitted moment _ _)
  · cases goes

/-! ## The server -/

/-- The announcements of every connection agree. -/
def Server.Agrees (server : Server) : Prop :=
  ∀ entry ∈ server.clients, entry.2.dial.Agrees

namespace Server

variable {server : Server}

theorem Agrees.find (agrees : server.Agrees) {connId : Nat} {c : Client}
    (found : server.find connId = some c) : c.dial.Agrees :=
  agrees (connId, c) (mem_of_lookup found)

theorem Agrees.update (agrees : server.Agrees) (connId : Nat)
    {change : Client → Client}
    (kept : ∀ c, c.dial.Agrees → (change c).dial.Agrees) :
    (server.update connId change).Agrees := by
  intro entry member
  obtain ⟨old, listed, rfl⟩ := List.mem_map.mp member
  split
  · exact kept old.2 (agrees old listed)
  · exact agrees old listed

/-- A connection that is destroyed is told nothing more. -/
theorem agrees_destroyed {c changed : Client} (agrees : c.dial.Agrees)
    (same : changed.dial = { c.dial with destroyed := true }) :
    changed.dial.Agrees := by
  rw [same]
  exact ⟨agrees.stamps, fun alive => absurd alive.symm Bool.false_ne_true⟩

theorem Agrees.put (agrees : server.Agrees) (connId : Nat) {desk : Desk}
    (kept : desk.Agrees) : (server.put connId desk).Agrees :=
  agrees.update connId fun _ _ => kept

theorem Agrees.serve (agrees : server.Agrees) (connId : Nat) (msg : Json)
    {part : Handler (Option Await)} (keeps : part.Keeps Desk.Agrees) :
    (server.serve connId msg part).Agrees := by
  rw [Server.serve]
  split
  · exact agrees
  · next c found =>
      rw [Server.Agrees, settle_clients]
      exact agrees.put connId (keeps ⟨c, server.shared⟩ (agrees.find found))

theorem Agrees.takeLine (agrees : server.Agrees) (setup : Setup)
    (moment : Moment) (connId : Nat) (line : JsString) :
    (Stratum.takeLine setup moment connId server line).Agrees := by
  rw [Stratum.takeLine]
  split
  · exact agrees
  · split
    · exact agrees
    · exact agrees.serve connId _
        (keeps_guarded setup _ (keeps_callMethod setup moment _))

theorem Agrees.keep (agrees : server.Agrees) (connId : Nat)
    (buf : JsString) : (server.keep connId buf).Agrees :=
  agrees.update connId fun _ kept => kept

theorem Agrees.resume (agrees : server.Agrees) {setup : Setup}
    {moment : Moment} {index : Nat} {suspended : Suspended} {reply : Reply}
    {next : Server}
    (taken : server.resume setup moment index suspended reply = some next) :
    next.Agrees := by
  have rest : ({ server with waiting := server.waiting.eraseIdx index } :
      Server).Agrees := agrees
  unfold Server.resume at taken
  dsimp only at taken
  split at taken
  · next msg await _ =>
      obtain ⟨part, goes, rfl⟩ := Option.map_eq_some_iff.mp taken
      exact rest.serve _ msg (keeps_guarded setup msg (keeps_goOn goes))
  · obtain ⟨c, found, rfl⟩ := Option.map_eq_some_iff.mp taken
    refine rest.put _ ?_
    exact keeps_of_quiet
      (quiet_slotGranted setup _) ⟨c, server.shared⟩ (rest.find found)
  · cases taken
    exact rest
  · cases taken

end Server

theorem agrees_broadcastJob (job : StratumJob) {clients : List (Nat × Client)}
    (agrees : ∀ entry ∈ clients, entry.2.dial.Agrees) :
    ∀ entry ∈ broadcastJob job clients, entry.2.dial.Agrees := by
  induction clients with
  | nil => exact agrees
  | cons entry rest induction =>
    obtain ⟨connId, c⟩ := entry
    have first : c.dial.Agrees := agrees (connId, c) List.mem_cons_self
    have others : ∀ entry ∈ rest, entry.2.dial.Agrees := fun entry member =>
      agrees entry (List.mem_cons_of_mem _ member)
    have pushed := Client.agrees_pushJob first job
    rw [broadcastJob]
    split
    · exact List.forall_mem_cons.mpr ⟨first, induction others⟩
    · split
      · next thrown after done =>
          rw [done] at pushed
          exact List.forall_mem_cons.mpr ⟨pushed, others⟩
      · next value after done =>
          rw [done] at pushed
          exact List.forall_mem_cons.mpr ⟨pushed, induction others⟩

/-- Every event leaves the announcements in agreement. -/
theorem serverStep_agrees {setup : Setup} {server next : Server}
    {event : Moment × Event} (agrees : server.Agrees)
    (taken : serverStep setup server event = some next) : next.Agrees := by
  obtain ⟨moment, event⟩ := event
  unfold serverStep at taken
  split at taken
  · cases taken
  · cases event with
    | connect =>
      cases taken
      intro entry member
      obtain old | new := List.mem_append.mp member
      · exact agrees entry old
      · cases List.mem_singleton.mp new
        exact agrees_new _ _ _ _
    | data connId chunk =>
      obtain ⟨c, found, stepped⟩ := Option.bind_eq_some_iff.mp taken
      split at stepped
      · cases stepped
      · cases stepped
        refine onData_invariant (fun _ buf holds => holds.keep connId buf)
          (fun server buf holds => holds.update connId fun c kept => ?_)
          (fun _ line holds => holds.takeLine setup moment connId line)
          agrees c chunk
        exact Server.agrees_destroyed kept rfl
    | close connId =>
      obtain ⟨c, found, stepped⟩ := Option.bind_eq_some_iff.mp taken
      split at stepped
      · cases stepped
      · cases stepped
        have kept : (server.update connId fun c =>
            { c with
              reservedSlotId := none, destroyed := true,
              closed := true }).Agrees :=
          agrees.update connId fun c kept =>
            Server.agrees_destroyed kept rfl
        exact kept
    | subscribeTimeout connId =>
      obtain ⟨c, found, stepped⟩ := Option.map_eq_some_iff.mp taken
      split at stepped
      · cases stepped
        exact agrees.update connId fun c kept =>
          Server.agrees_destroyed kept rfl
      · cases stepped
        exact agrees
    | resume index reply =>
      obtain ⟨suspended, listed, stepped⟩ := Option.bind_eq_some_iff.mp taken
      exact agrees.resume stepped
    | job job =>
      cases taken
      exact agrees_broadcastJob job agrees
    | retune =>
      cases taken
      intro entry member
      obtain ⟨old, listed, rfl⟩ := List.mem_map.mp member
      exact agrees_retune setup moment (agrees old listed)
    | slotAdded userId =>
      cases taken
      split
      · exact agrees
      · exact agrees

/-! ## Shares -/

/--
A share for a job the client was told of is judged, and credited if it meets
its target, by the difficulty announced for the job.
-/
def LineJudgesAnnounced (setup : Setup) (moment : Moment) (connId : Nat)
    (server : Server) (line : JsString) : Prop :=
  ∀ msg ∈ setup.runtime.parse line.trim, ∀ c ∈ server.find connId,
    (∀ share input, judgedShare setup moment c msg = some (share, input) →
      Told.job share.jobId ∈ c.told →
        announcedFor share.jobId c.told = some input.shareDifficulty) ∧
    ∀ share input check attest,
      creditedShare setup moment c msg = some (share, input, check) →
        Told.job share.jobId ∈ c.told → check.meetsShare = true →
          announcedFor share.jobId c.told =
            some (shareEvent moment c.username input check attest).diff

theorem lineJudgesAnnounced_of_agrees (setup : Setup) (moment : Moment)
    (connId : Nat) {server : Server} (agrees : server.Agrees)
    (line : JsString) :
    LineJudgesAnnounced setup moment connId server line := by
  intro msg parsed c found
  have used : ∀ share input, judgedShare setup moment c msg =
      some (share, input) → Told.job share.jobId ∈ c.told →
        announcedFor share.jobId c.told = some input.shareDifficulty := by
    intro share input judged told
    obtain ⟨value, stamped, announced⟩ :=
      (agrees.find found).stamps share.jobId told
    obtain ⟨-, job, -, rfl⟩ := known_of_judgedShare judged
    refine announced.trans ?_
    change some value = some ((c.jobShareDiff.lookup share.jobId).getD _)
    rw [show c.jobShareDiff.lookup share.jobId = some value from stamped]
    rfl
  refine ⟨used, fun share input check attest credited told meets => ?_⟩
  rw [used share input (judgedShare_of_credited credited) told, shareEvent,
    if_pos meets]

/-- Every share is judged by the difficulty announced for its job. -/
theorem judges_at_announced_difficulty (setup : Setup)
    (events : List (Moment × Event)) :
    Along (serverStep setup)
      (fun server event => LinesMeet setup event.1
        (LineJudgesAnnounced setup event.1) server event.2)
      Server.started events := by
  refine along_of_kept Server.Agrees ?_ ?_ ?_ events
  · exact fun server event next agrees taken =>
      serverStep_agrees agrees taken
  · intro server event agrees
    exact linesMeet_of_invariant Server.Agrees
      (fun connId _ buf holds => holds.keep connId buf)
      (fun connId _ line holds => holds.takeLine setup event.1 connId line)
      (fun connId _ line holds =>
        lineJudgesAnnounced_of_agrees setup event.1 connId holds line)
      agrees event.2
  · exact fun entry member => absurd member List.not_mem_nil

end B3Chain.Stratum
