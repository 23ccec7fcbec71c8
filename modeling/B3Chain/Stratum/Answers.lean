import B3Chain.Stratum.Connections

/-!
# Parts of the handlers that only answer

Answers, counters and messages to the other process do not touch what a view of
the desk shows, so the parts of the handlers that do nothing else are quiet for
every such view.
-/

namespace B3Chain.Stratum

open Words Machine

/-- A view of the desk that answers, counters and messages do not touch. -/
structure Blind {View : Type} (view : Desk → View) : Prop where
  result : ∀ desk id value, view { desk with
    client := desk.client.write (.result id value) } = view desk
  error : ∀ desk id code message, view { desk with
    client := desk.client.write (.error id code message) } = view desk
  ipc : ∀ desk ipc, view { desk with
    shared := { desk.shared with ipc } } = view desk
  rejected : ∀ desk sharesRejected, view { desk with
    client := { desk.client with sharesRejected } } = view desk
  subscribed : ∀ desk userAgent state, view { desk with
    client := { desk.client with userAgent, state } } = view desk
  seen : ∀ desk seenShares, view { desk with
    client := { desk.client with seenShares } } = view desk
  accepted : ∀ desk sharesAccepted vardiff, view { desk with
    client := { desk.client with sharesAccepted, vardiff } } = view desk
  shared : ∀ desk lastShareAt, view { desk with
    client := { desk.client with lastShareAt } } = view desk

namespace Blind

variable {View : Type} {view : Desk → View} (blind : Blind view)
include blind

omit blind in
theorem quiet_idOf (msg : Json) : (idOf msg).Quiet view :=
  Action.quiet_bind (Action.quiet_ofExcept _) fun _ => Action.quiet_pure _

omit blind in
theorem quiet_paramsOf (msg : Json) : (paramsOf msg).Quiet view :=
  Action.quiet_bind (Action.quiet_ofExcept _) fun _ => Action.quiet_pure _

omit blind in
theorem quiet_client : client.Quiet view :=
  fun _ => rfl

omit blind in
theorem quiet_answer (setup : Setup) (msg : Json) {message : Json → Sent}
    (same : ∀ desk id, view { desk with
      client := desk.client.write (message id) } = view desk) :
    (answer setup msg message).Quiet view := by
  refine Action.quiet_bind (quiet_idOf msg) fun id => ?_
  refine Action.quiet_bind quiet_client fun c => ?_
  split
  · exact Action.quiet_modify fun desk => same desk id
  · exact Action.quiet_throw _

theorem quiet_sendResult (setup : Setup) (msg value : Json) :
    (sendResult setup msg value).Quiet view :=
  quiet_answer setup msg fun desk id => blind.result desk id value

theorem quiet_sendError (setup : Setup) (msg : Json) (code : Int)
    (message : JsString) : (sendError setup msg code message).Quiet view :=
  quiet_answer setup msg fun desk id => blind.error desk id code message

theorem quiet_sendIpc (message : IpcMessage) :
    (sendIpc message).Quiet view :=
  Action.quiet_modify fun desk => blind.ipc desk _

theorem quiet_sendReject (moment : Moment) (reason : Reject) :
    (sendReject moment reason).Quiet view := by
  refine Action.quiet_bind quiet_client fun c => ?_
  split
  · exact Action.quiet_pure ()
  · exact blind.quiet_sendIpc _

theorem quiet_countReject (moment : Moment) (reason : Reject) :
    (countReject moment reason).Quiet view :=
  Action.quiet_bind (Action.quiet_modify fun desk => blind.rejected desk _)
    fun _ => blind.quiet_sendReject moment reason

omit blind in
theorem quiet_signatureOf (setup : Setup) (p : Json) :
    (signatureOf setup p).Quiet view := by
  unfold signatureOf
  split
  · exact Action.quiet_pure none
  · exact Action.quiet_pure none
  · exact Action.quiet_pure none
  · exact Action.quiet_bind (Action.quiet_ofExcept _) fun _ =>
      Action.quiet_pure _

omit blind in
theorem quiet_attestOf (setup : Setup) (p : Json) (result : AttestResult) :
    (attestOf setup p result).Quiet view := by
  refine Action.quiet_bind quiet_client fun c => ?_
  refine Action.quiet_bind (quiet_signatureOf setup p) fun signature => ?_
  refine Action.quiet_bind (Action.quiet_ofExcept _) fun share => ?_
  cases share with
  | none => exact Action.quiet_pure _
  | some share => exact Action.quiet_pure _

theorem quiet_recordUncredited (setup : Setup) (moment : Moment) (p : Json)
    (result : AttestResult) :
    (recordUncredited setup moment p result).Quiet view := by
  refine Action.quiet_bind (quiet_attestOf setup p result) fun attest => ?_
  exact Action.quiet_bind quiet_client fun c => blind.quiet_sendIpc _

theorem quiet_answerShare (setup : Setup) (moment : Moment) (msg : Json)
    (input : ShareInput) (check : ShareCheckOk) (attest : ShareAttest) :
    (answerShare setup moment msg input check attest).Quiet view := by
  refine Action.quiet_bind
    (Action.quiet_modify fun desk => blind.shared desk _) fun _ => ?_
  refine Action.quiet_bind (blind.quiet_sendResult setup msg _) fun _ => ?_
  refine Action.quiet_bind quiet_client fun c => ?_
  split
  · exact Action.quiet_pure _
  · exact Action.quiet_bind (blind.quiet_sendIpc _) fun _ =>
      Action.quiet_pure none

theorem quiet_credit (setup : Setup) (moment : Moment) (msg p : Json)
    (input : ShareInput) (check : ShareCheckOk) :
    (credit setup moment msg p input check).Quiet view := by
  refine Action.quiet_bind (quiet_attestOf setup p .valid) fun attest => ?_
  dsimp only
  split
  · exact Action.quiet_bind
      (Action.quiet_modify fun desk => blind.accepted desk _ _)
      fun _ => blind.quiet_answerShare setup moment msg input check attest
  · exact blind.quiet_answerShare setup moment msg input check attest

theorem quiet_submitted (setup : Setup) (moment : Moment) (msg : Json) :
    (submitted setup moment msg).Quiet view := by
  refine Action.quiet_bind (quiet_paramsOf msg) fun p => ?_
  refine Action.quiet_bind quiet_client fun c => ?_
  refine Action.quiet_bind
    (Action.quiet_modify fun desk => blind.seen desk _) fun _ => ?_
  refine Action.quiet_bind (Action.quiet_ofExcept _) fun verdict => ?_
  have none : (pure none : Handler (Option Await)).Quiet view :=
    Action.quiet_pure none
  cases verdict with
  | unauthorized | invalidParams =>
    exact Action.quiet_bind (blind.quiet_countReject moment _) fun _ =>
      Action.quiet_bind (blind.quiet_sendError setup msg _ _) fun _ => none
  | unknownJob =>
    exact Action.quiet_bind (blind.quiet_countReject moment _) fun _ =>
      Action.quiet_bind (blind.quiet_sendResult setup msg _) fun _ => none
  | badSignature | duplicate | rejected =>
    refine Action.quiet_bind
      (blind.quiet_recordUncredited setup moment p _) fun _ => ?_
    exact Action.quiet_bind (blind.quiet_countReject moment _) fun _ =>
      Action.quiet_bind (blind.quiet_sendError setup msg _ _) fun _ => none
  | credited share input check =>
    exact blind.quiet_credit setup moment msg p input check

theorem quiet_blockSubmitted (moment : Moment) (pending : PendingBlock)
    (result : Except JsError (Option JsString)) :
    (blockSubmitted moment pending result).Quiet view :=
  Action.quiet_bind (blind.quiet_sendIpc _) fun _ => Action.quiet_pure none

theorem quiet_onSubscribe (setup : Setup) (msg : Json) :
    (onSubscribe setup msg).Quiet view := by
  refine Action.quiet_bind (quiet_paramsOf msg) fun params => ?_
  refine Action.quiet_bind (Action.quiet_ofExcept _) fun userAgent => ?_
  refine Action.quiet_bind
    (Action.quiet_modify fun desk => blind.subscribed desk _ _) fun _ => ?_
  exact Action.quiet_bind quiet_client fun c => blind.quiet_sendResult setup msg _

theorem quiet_internalError (setup : Setup) (msg : Json) :
    (internalError setup msg).Quiet view := by
  refine Action.quiet_bind (Action.quiet_ofExcept _) fun method => ?_
  exact Action.quiet_bind (blind.quiet_sendError setup msg _ _) fun _ =>
    Action.quiet_pure none

end Blind

/-! ## Calls -/

/-- The method a message calls. -/
def methodOf (msg : Json) : Option Method :=
  (msg.property "method").toOption.map Method.ofJson

end B3Chain.Stratum
