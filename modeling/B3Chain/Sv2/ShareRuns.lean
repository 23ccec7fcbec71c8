import B3Chain.Sv2.Process

/-!
# Shares of the mining server

What a frame with a share comes to: the promise of its handler is rejected, the
share is refused at once, or it is checked and the reply waits.  No other frame
starts anything that waits.
-/

namespace B3Chain.Sv2

open Words Framing Machine

/-! ## Replies -/

/-- A reply whose frame can be written is sent. -/
theorem returns_send {frame : Except String (List Byte)}
    (fits : ∃ bytes, frame = .ok bytes) : (send frame).Returns := by
  obtain ⟨bytes, rfl⟩ := fits
  exact Action.returns_modify _

theorem encodeSubmitSharesError_ok (channelId sequenceNumber : Nat)
    {errorCode : JsString}
    (short : (Utf8.encode errorCode).length < 256 ^ 1) :
    ∃ bytes, encodeSubmitSharesError
      { channelId, sequenceNumber, errorCode } = .ok bytes :=
  encodeMessage_ok _ _
    (.cons (fits_u32 _) (.cons (fits_u32 _) (.cons (fits_sized _ short) .nil)))
    (by decide)

theorem encodeSubmitSharesSuccess_ok (m : SubmitSharesSuccess) :
    ∃ bytes, encodeSubmitSharesSuccess m = .ok bytes :=
  encodeMessage_ok _ _
    (.cons (fits_u32 _) (.cons (fits_u32 _) (.cons (fits_u32 _)
      (.cons (fits_u64 _) .nil)))) (by decide)

theorem returns_sendSubmitError (channelId sequenceNumber : Nat)
    {errorCode : String}
    (short : (Utf8.encode (JsString.ofString errorCode)).length < 256 ^ 1) :
    (sendSubmitError channelId sequenceNumber errorCode).Returns :=
  returns_send (encodeSubmitSharesError_ok channelId sequenceNumber short)

/-- The reply to a share never throws. -/
theorem returns_replySubmit (moment : Moment) (pending : PendingShare) :
    (replySubmit moment pending).Returns := by
  rw [replySubmit]
  cases pending.checked with
  | rejected reason =>
    refine Action.returns_bind (returns_sendSubmitError _ _ ?_) fun _ =>
      Action.returns_pure none
    cases reason with
    | lowDiff => decide +kernel
    | invalid => decide +kernel
  | accepted input check =>
    refine Action.returns_bind (fun desk => ⟨desk.conn, rfl⟩) fun conn => ?_
    refine Action.returns_bind (Action.returns_modify _) fun _ => ?_
    exact Action.returns_bind (returns_send (encodeSubmitSharesSuccess_ok _))
      fun _ => Action.returns_pure _

/-! ## Submissions -/

/-- The share in a frame, or what its reader throws. -/
def submissionOf (frame : Sv2Frame) :
    Option (Except String SubmitSharesExtended) :=
  if frame.msgType = msgSubmitSharesStandard then
    some ((decodePayload decodeSubmitSharesStandard frame.payload).map
      fun m => { toSubmitSharesStandard := m, extranonce := [] })
  else if frame.msgType = msgSubmitSharesExtended then
    some (decodePayload decodeSubmitSharesExtended frame.payload)
  else none

/-- What is checked for a share whose channel and job are known. -/
def Desk.submitted (desk : Desk) (m : SubmitSharesExtended) :
    Option SubmitArgs :=
  (desk.conn.channels.get m.channelId).bind fun ch =>
    (desk.board.lookupJob m.jobId).map fun job => submitArgs ch job m

/-- What the handler of a share has come to at its first wait. -/
def Desk.judged (setup : Setup) (desk : Desk) (m : SubmitSharesExtended) :
    Started :=
  match desk.submitted m with
  | none => .done
  | some args =>
    match processSubmit setup.hashes args with
    | .error thrown => .rejected thrown
    | .ok checked => .waits { args, checked }

/-- What the outcome of an asynchronous handler starts. -/
def startedBy : Except String (Option PendingShare) → Started
  | .error thrown => .rejected thrown
  | .ok none => .done
  | .ok (some pending) => .waits pending

theorem perform_asynchronous (part : Handler (Option PendingShare))
    (desk : Desk) :
    ((asynchronous part).perform desk).1 =
      .ok (startedBy (part.perform desk).1) := by
  rw [asynchronous, Action.perform_tryCatch, Action.perform_bind]
  obtain ⟨outcome, left⟩ := part.perform desk
  match outcome with
  | .error thrown => rfl
  | .ok none => rfl
  | .ok (some pending) => rfl

/-- A reply and then nothing more. -/
theorem perform_reply {reply : Handler Unit} (sent : reply.Returns)
    (desk : Desk) :
    ((do reply; return none : Handler (Option PendingShare)).perform desk).1 =
      .ok none := by
  obtain ⟨value, returned⟩ := sent desk
  rw [Action.perform_bind]
  cases performed : reply.perform desk with
  | mk outcome left =>
    rw [performed] at returned
    cases returned
    rfl

theorem perform_handleSubmit (setup : Setup) (m : SubmitSharesExtended)
    (desk : Desk) :
    startedBy ((handleSubmit setup m).perform desk).1 =
      desk.judged setup m := by
  have here : (conn : Handler MiningConn).perform desk =
      (.ok desk.conn, desk) := rfl
  have now : (get : Handler Desk).perform desk = (.ok desk, desk) := rfl
  rw [handleSubmit, Action.perform_bind, here, Desk.judged, Desk.submitted]
  dsimp only
  cases desk.conn.channels.get m.channelId with
  | none =>
    rw [perform_reply (returns_sendSubmitError _ _ (by decide +kernel))]
    rfl
  | some ch =>
    dsimp only
    rw [Action.perform_bind, now]
    dsimp only
    cases found : desk.board.lookupJob m.jobId with
    | none =>
      dsimp only
      rw [perform_reply (returns_sendSubmitError _ _ (by decide +kernel))]
      rfl
    | some job =>
      dsimp only [Option.bind_some, Option.map_some]
      cases processSubmit setup.hashes (submitArgs ch job m) with
      | error thrown => rfl
      | ok checked => rfl

/-! ## Frames -/

/-- What a share that was read, or what its reader threw, starts. -/
def Desk.judgedRead (setup : Setup) (desk : Desk) :
    Except String SubmitSharesExtended → Started
  | .error thrown => .rejected thrown
  | .ok m => desk.judged setup m

/-- What a frame with a share starts. -/
def Desk.starts (setup : Setup) (desk : Desk) (frame : Sv2Frame) :
    Option Started :=
  match desk.conn.phase with
  | .setupPending => none
  | .ready => (submissionOf frame).map (desk.judgedRead setup)

theorem perform_handleSubmitStd (setup : Setup) (payload : List Byte)
    (desk : Desk) :
    startedBy ((handleSubmitStd setup payload).perform desk).1 =
      desk.judgedRead setup
        ((decodePayload decodeSubmitSharesStandard payload).map fun m =>
          { toSubmitSharesStandard := m, extranonce := [] }) := by
  rw [handleSubmitStd]
  cases decodePayload decodeSubmitSharesStandard payload with
  | error thrown => rfl
  | ok m => exact perform_handleSubmit setup _ desk

theorem perform_handleSubmitExt (setup : Setup) (payload : List Byte)
    (desk : Desk) :
    startedBy ((handleSubmitExt setup payload).perform desk).1 =
      desk.judgedRead setup
        (decodePayload decodeSubmitSharesExtended payload) := by
  rw [handleSubmitExt]
  cases decodePayload decodeSubmitSharesExtended payload with
  | error thrown => rfl
  | ok m => exact perform_handleSubmit setup m desk

/-- A handler that is not asynchronous starts nothing. -/
theorem yields_done (part : Handler Unit) :
    Action.Yields (do part; return Started.done) (· = Started.done) :=
  Action.yields_bind fun _ => Action.yields_pure rfl

theorem yields_dispatchSetup (frame : Sv2Frame) :
    (dispatchSetup frame).Yields (· = .done) := by
  rw [dispatchSetup]
  dsimp only
  split
  · exact yields_done _
  · exact yields_done _

theorem dispatchReady_starts (setup : Setup) (moment : Moment)
    (frame : Sv2Frame) (desk : Desk) {read : Except String SubmitSharesExtended}
    (submits : submissionOf frame = some read) :
    ((dispatchReady setup moment frame).perform desk).1 =
      .ok (desk.judgedRead setup read) := by
  rw [submissionOf] at submits
  rw [dispatchReady]
  dsimp only
  split
  · next standard =>
      rw [if_pos standard] at submits
      cases submits
      rw [perform_asynchronous, perform_handleSubmitStd]
  · next other =>
      rw [if_neg other] at submits
      split at submits
      · next extended =>
          cases submits
          rw [if_pos extended, perform_asynchronous, perform_handleSubmitExt]
      · cases submits

theorem yields_dispatchReady (setup : Setup) (moment : Moment)
    {frame : Sv2Frame} (none : submissionOf frame = none) :
    (dispatchReady setup moment frame).Yields (· = .done) := by
  rw [submissionOf] at none
  rw [dispatchReady]
  dsimp only
  split
  · next standard =>
      rw [if_pos standard] at none
      cases none
  · next other =>
      rw [if_neg other] at none
      split
      · next extended =>
          rw [if_pos extended] at none
          cases none
      · split
        · exact yields_done _
        · split
          · exact yields_done _
          · split
            · exact yields_done _
            · split
              · exact yields_done _
              · exact Action.yields_pure rfl

/-- What a dispatch that returns has started. -/
theorem dispatch_starts {setup : Setup} {moment : Moment} {frame : Sv2Frame}
    {desk : Desk} {started : Started}
    (returned : ((dispatch setup moment frame).perform desk).1 =
      .ok started) :
    started = (desk.starts setup frame).getD .done := by
  rw [Process.perform_dispatch] at returned
  rw [Desk.starts]
  cases phase : desk.conn.phase with
  | setupPending =>
    rw [phase] at returned
    exact yields_dispatchSetup frame desk started returned
  | ready =>
    rw [phase] at returned
    cases submits : submissionOf frame with
    | none =>
      exact yields_dispatchReady setup moment submits desk started returned
    | some read =>
      have starts := dispatchReady_starts setup moment frame desk submits
      exact Except.ok.inj (returned.symm.trans starts)

/-- A frame with a share throws nothing. -/
theorem dispatch_of_starts {setup : Setup} (moment : Moment)
    {frame : Sv2Frame} {desk : Desk} {started : Started}
    (starts : desk.starts setup frame = some started) :
    ((dispatch setup moment frame).perform desk).1 = .ok started := by
  rw [Process.perform_dispatch]
  rw [Desk.starts] at starts
  cases phase : desk.conn.phase with
  | setupPending =>
    rw [phase] at starts
    cases starts
  | ready =>
    rw [phase] at starts
    obtain ⟨read, submits, rfl⟩ := Option.map_eq_some_iff.mp starts
    exact dispatchReady_starts setup moment frame desk submits

/-! ## The process -/

namespace Process

variable {Key : Type}

/-- What a process keeps of its shares: those that wait, those that were
credited, and the rejections. -/
def ledger (process : Process Key) :
    List (Nat × PendingShare) × List Accepted × List String :=
  (process.submits, process.shares, process.escaped)

theorem ledger_takeFrame (setup : Setup) (moment : Moment)
    (process : Process Key) (connId : Nat) (conn : MiningConn)
    (frame : Sv2Frame) :
    (process.takeFrame setup moment connId conn frame).ledger =
      (process.begin connId
        (((process.desk conn).starts setup frame).getD .done)).ledger := by
  rw [takeFrame]
  cases performed : (dispatch setup moment frame).perform
      (process.desk conn) with
  | mk outcome left =>
    cases outcome with
    | error thrown =>
      -- Only a frame without a share throws.
      cases starts : (process.desk conn).starts setup frame with
      | none => rfl
      | some started =>
        have returned := dispatch_of_starts moment starts
        rw [performed] at returned
        cases returned
    | ok started =>
      have begun := dispatch_starts (congrArg Prod.fst performed)
      rw [← begun]
      cases started with
      | done | waits | rejected => rfl

end Process

end B3Chain.Sv2
