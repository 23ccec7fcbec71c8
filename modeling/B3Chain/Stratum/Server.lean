import B3Chain.Framing.Records
import B3Chain.Machine.Actions
import B3Chain.Machine.Run
import B3Chain.Stratum.Client

/-!
# The Stratum V1 server

A line that a client sends is parsed and given to an asynchronous handler.  The
handler runs up to the first reply it has to wait for and goes on when the
reply is there; other events may come in between.  What it throws is caught
once, around the whole handler; what the catch block throws rejects the
handler's promise, which nobody handles.
-/

namespace B3Chain.Stratum

open Words Machine

/-! ## What the handlers work on -/

/-- What is fixed while the server runs. -/
structure Setup where
  runtime : Runtime
  hashes : Hashes
  verifyP256Digest : JsString → List Byte → JsString → Bool
  sha256 : JsString → List Byte
  vardiff : VardiffParams
  workerDifficulty : JsString → Option ℚ
  vardiffEnabled : Bool
  randomBytes : Nat → List Byte
  /-- `JSON.stringify` does not run out of stack at the answer. -/
  stringifies : Sent → Bool

/-- The time of an event and the jobs the job manager holds then. -/
structure Moment where
  now : Int
  current : Option StratumJob
  getById : JsString → Option StratumJob

/-- `ShareAttest`. -/
structure ShareAttest where
  jobId : JsString
  nonce : JsString
  pubkey : Option JsString
  signature : Option JsString
  result : AttestResult

/-- Why a share is reported as rejected. -/
inductive Reject
  | duplicate
  | lowDiff
  | invalid
  | other
  deriving DecidableEq, Repr

/-- `ShareEvent`. -/
structure ShareEvent where
  user : JsString
  workerName : JsString
  diff : ℚ
  isBlock : Bool
  blockHash : Option JsString
  blockHeight : Option Int
  networkDifficulty : ℚ
  timestampMs : Int
  attest : ShareAttest

/-- What is sent to the pool daemon. -/
inductive IpcMessage
  | share (event : ShareEvent)
  | shareSig (user workerName : JsString) (timestampMs : Int)
      (attest : ShareAttest)
  | reject (user workerName : JsString) (reason : Reject) (diff : ℚ)
      (timestampMs : Int)

/-- What the connections share. -/
structure Shared where
  heldSlots : List Nat
  drawn : Nat
  ipc : List IpcMessage

/-- A handler's connection and what it shares with the others. -/
structure Desk where
  client : Client
  shared : Shared

/-- A part of a handler that runs without waiting. -/
abbrev Handler := Action JsError Desk

/-- `PassportSlot`. -/
structure PassportSlot where
  id : Nat
  userId : Nat
  slotNo : Nat
  pubkey : Option JsString

/-- A share event that waits for the answer to `submitblock`. -/
structure PendingBlock where
  event : ShareEvent
  hash : JsString
  height : Int

/-- What a handler waits for. -/
inductive Await
  | findUserId (username : JsString)
  | findSlotByPubkey (pubkey : JsString)
  | reserveEmpty (userId : Option Nat)
  | lock (slotId : Nat) (pubkey : Option JsString)
  | submitBlock (pending : PendingBlock)

/-- A reply, or the error the call failed with. -/
inductive Reply
  | userId (found : Except JsError (Option Nat))
  | slot (found : Except JsError (Option PassportSlot))
  | rows (found : Except JsError (List PassportSlot))
  | locked (done : Except JsError Bool)
  | submitted (result : Except JsError (Option JsString))

/-! ## Parts of the handlers -/

/-- The connection. -/
def client : Handler Client := return (← get).client

/-- A change of the connection. -/
def changeClient (change : Client → Client) : Handler Unit :=
  modify fun desk => { desk with client := change desk.client }

/-- A change of what the connections share. -/
def changeShared (change : Shared → Shared) : Handler Unit :=
  modify fun desk => { desk with shared := change desk.shared }

/-- `msg.id ?? null`. -/
def idOf (msg : Json) : Handler Json := do
  return Json.orElse (← MonadExcept.ofExcept (msg.property "id")) .null

/-- An answer is written, if the socket is not destroyed; an id that is nested
too deep makes `JSON.stringify` throw. -/
def answer (setup : Setup) (msg : Json) (message : Json → Sent) :
    Handler Unit := do
  let id ← idOf msg
  if setup.stringifies (message id) || (← client).destroyed then
    changeClient fun client => client.write (message id)
  else throw .rangeError

/-- `sendResult(msg.id ?? null, result)`. -/
def sendResult (setup : Setup) (msg result : Json) : Handler Unit :=
  answer setup msg fun id => .result id result

/-- `sendError(msg.id ?? null, code, message)`. -/
def sendError (setup : Setup) (msg : Json) (code : Int)
    (message : JsString) : Handler Unit :=
  answer setup msg fun id => .error id code message

/-- `this.ipc.send`. -/
def sendIpc (message : IpcMessage) : Handler Unit :=
  changeShared fun shared => { shared with ipc := shared.ipc ++ [message] }

/-- `String(value ?? "")`. -/
def textOf (setup : Setup) (value : Option Json) : Handler JsString :=
  MonadExcept.ofExcept (textOrEmpty setup.runtime value)

/-- `msg.params ?? []`. -/
def paramsOf (msg : Json) : Handler Json := do
  return Json.orElse (← MonadExcept.ofExcept (msg.property "params")) (.arr [])

/-- `sendReject`. -/
def sendReject (moment : Moment) (reason : Reject) : Handler Unit := do
  let c ← client
  if c.username = [] then return ()
  else
    let (user, worker) := splitUserName c.username
    sendIpc (.reject user worker reason c.vardiff.currentDiff moment.now)

/-- A share is turned down: counted and reported. -/
def countReject (moment : Moment) (reason : Reject) : Handler Unit := do
  changeClient fun c => { c with sharesRejected := c.sharesRejected + 1 }
  sendReject moment reason

/-- `sendChallenge`. -/
def sendChallenge (setup : Setup) : Handler Unit := do
  let challenge := setup.randomBytes (← get).shared.drawn
  changeShared fun shared => { shared with drawn := shared.drawn + 1 }
  changeClient fun c =>
    { c with challenge := some challenge }.write
      (.notify "mining.challenge" [.str (JsString.bytesToHex challenge)])

/-- `pushJob` as part of a handler. -/
def pushJob (job : StratumJob) : Handler Unit := do
  let c ← client
  changeClient fun _ => (c.pushJob job).2
  MonadExcept.ofExcept (c.pushJob job).1

/-- The reservation of a connection is given up. -/
def releaseSlot : Handler Unit := do
  match (← client).reservedSlotId with
  | none => return ()
  | some slotId => do
      changeShared fun shared =>
        { shared with heldSlots := shared.heldSlots.filter (· ≠ slotId) }
      changeClient fun c => { c with reservedSlotId := none }

/-! ## The handlers -/

/-- `onSubscribe`. -/
def onSubscribe (setup : Setup) (msg : Json) : Handler Unit := do
  let params ← paramsOf msg
  let userAgent ← textOf setup (params.element 0)
  changeClient fun c => { c with userAgent, state := .subscribed }
  let c ← client
  let subId : Json := .str (JsString.ofString "b3chain-" ++
    JsString.ofString (String.ofList (Nat.toDigits 16 c.connId)))
  sendResult setup msg (.arr
    [.arr
      [.arr [.str (JsString.ofString "mining.set_difficulty"), subId],
        .arr [.str (JsString.ofString "mining.notify"), subId]],
      .str c.extranonce1Hex, .num (.finite extranonce2Size)])

/-- `onAuthorize` up to the look-up of the user. -/
def onAuthorize (setup : Setup) (moment : Moment) (msg : Json) :
    Handler (Option Await) := do
  let params ← paramsOf msg
  let username := (← textOf setup (params.element 0)).trim
  if username = [] then
    sendResult setup msg (.bool false)
    return none
  else
    changeClient fun c =>
      { c with username, state := .authorized, authorizedAt := moment.now }
    return some (.findUserId username)

/-- `onAuthorize` from the look-up of the user on. -/
def authorized (setup : Setup) (moment : Moment) (msg : Json)
    (username : JsString) (found : Except JsError (Option Nat)) :
    Handler (Option Await) := do
  changeClient fun c =>
    { c with
      userId := match found with
        | .ok userId => userId
        | .error _ => none }
  match setup.workerDifficulty username with
  | none => pure ()
  | some pinned =>
    match Vardiff.setDiff setup.runtime setup.vardiff moment.now
        (.finite pinned) with
    | .error message => throw (.error message)
    | .ok (_, vardiff) => changeClient fun c => { c with vardiff }
  sendResult setup msg (.bool true)
  match moment.current with
  | none => pure ()
  | some job => pushJob job
  return none

/-- `/^[0-9a-f]{128}$/`. -/
def isKeyText (text : JsString) : Bool :=
  text.length = 128 ∧
    text.all fun unit => (48 ≤ unit ∧ unit ≤ 57) ∨ (97 ≤ unit ∧ unit ≤ 102)

/-- `String(msg.params?.[0] ?? "").toLowerCase()`. -/
def firstParam (setup : Setup) (msg : Json) : Handler JsString := do
  let params ← paramsOf msg
  return setup.runtime.toLowerCase (← textOf setup (params.element 0))

/-- `onPubkey` up to the look-up of the key. -/
def onPubkey (setup : Setup) (msg : Json) : Handler (Option Await) := do
  let c ← client
  if c.state ≠ .authorized ∨ c.username = [] then
    sendError setup msg 24 (JsString.ofString "Unauthorized worker")
    return none
  else
    let hex ← firstParam setup msg
    if ¬ isKeyText hex then
      sendError setup msg 23 (JsString.ofString "bad public key")
      return none
    else
      changeClient fun c => { c with pubkey := some hex }
      if c.userId = none then
        changeClient fun c => { c with attest := .pending }
        sendResult setup msg (.bool true)
        return none
      else return some (.findSlotByPubkey hex)

/-- `onPubkey` once it is known whose key it is. -/
def keyFound (setup : Setup) (msg : Json)
    (found : Except JsError (Option PassportSlot)) :
    Handler (Option Await) := do
  match ← MonadExcept.ofExcept found with
  | none => return some (.reserveEmpty (← client).userId)
  | some existing =>
    if some existing.userId ≠ (← client).userId then
      changeClient fun c => { c with attest := .invalid }
      sendResult setup msg (.bool true)
      return none
    else
      changeClient fun c => { c with attest := .none }
      sendResult setup msg (.bool true)
      sendChallenge setup
      return none

/-- `reserveEmpty` once the empty slots are read. -/
def holdFirst (rows : List PassportSlot) : Handler (Option PassportSlot) := do
  let held := (← get).shared.heldSlots
  match rows.find? fun row => ¬ row.id ∈ held with
  | none => return none
  | some row => do
      changeShared fun shared =>
        { shared with heldSlots := shared.heldSlots ++ [row.id] }
      return some row

/-- `onPubkey` once the empty slots are read. -/
def slotReserved (setup : Setup) (msg : Json)
    (found : Except JsError (List PassportSlot)) :
    Handler (Option Await) := do
  match ← holdFirst (← MonadExcept.ofExcept found) with
  | none =>
    changeClient fun c => { c with attest := .pending }
    sendResult setup msg (.bool true)
    return none
  | some empty =>
    changeClient fun c =>
      { c with reservedSlotId := some empty.id, attest := .none }
    sendResult setup msg (.bool true)
    sendChallenge setup
    return none

/-- The signature answers the challenge. -/
def answersChallenge (setup : Setup) (c : Client) (sigHex : JsString) :
    Bool :=
  match c.challenge, c.pubkey with
  | some challenge, some key =>
    setup.verifyP256Digest key challenge sigHex
  | _, _ => false

/-- `onAttest` up to the lock of the slot. -/
def onAttest (setup : Setup) (msg : Json) : Handler (Option Await) := do
  let sigHex ← firstParam setup msg
  let c ← client
  changeClient fun c => { c with challenge := none }
  if ¬ answersChallenge setup c sigHex then
    releaseSlot
    changeClient fun c => { c with attest := .invalid }
    sendResult setup msg (.bool false)
    return none
  else
    match c.reservedSlotId with
    | some slotId => return some (.lock slotId c.pubkey)
    | none =>
      changeClient fun c => { c with attest := .valid }
      sendResult setup msg (.bool true)
      return none

/-- `onAttest` once the slot is locked or not. -/
def slotLocked (setup : Setup) (msg : Json) (slotId : Nat)
    (done : Except JsError Bool) : Handler (Option Await) := do
  let locked ← MonadExcept.ofExcept done
  changeShared fun shared =>
    { shared with heldSlots := shared.heldSlots.filter (· ≠ slotId) }
  changeClient fun c =>
    { c with
      reservedSlotId := none
      attest := if locked then .valid else .invalid }
  sendResult setup msg (.bool locked)
  return none

/-- What `onSubmit` reads of the connection and the jobs. -/
def submitView (moment : Moment) (c : Client) : SubmitView where
  state := c.state
  pubkey := c.pubkey
  jobShareDiff := fun jobId => c.jobShareDiff.lookup jobId
  diff := c.vardiff.currentDiff
  getById := fun jobId => (moment.getById jobId).map StratumJob.toJobContext

/-- The signature `shareAttest` keeps. -/
def signatureOf (setup : Setup) (p : Json) : Handler (Option JsString) :=
  match p.element 5 with
  | none => return none
  | some .null => return none
  | some (.str []) => return none
  | some value => do
      return some (setup.runtime.toLowerCase
        (← MonadExcept.ofExcept (value.toText setup.runtime)))

/-- The record of the signature of a submission that could be read. -/
def attestOf (setup : Setup) (p : Json) (result : AttestResult) :
    Handler ShareAttest := do
  let pubkey := (← client).pubkey
  let signature ← signatureOf setup p
  match ← MonadExcept.ofExcept (readSubmitted setup.runtime p) with
  | none => return { jobId := [], nonce := [], pubkey, signature, result }
  | some share =>
    return { jobId := share.jobId, nonce := hexWord share.nonce, pubkey,
             signature, result }

/-- `recordUncredited`. -/
def recordUncredited (setup : Setup) (moment : Moment) (p : Json)
    (result : AttestResult) : Handler Unit := do
  let attest ← attestOf setup p result
  let (user, worker) := splitUserName (← client).username
  sendIpc (.shareSig user worker moment.now attest)

/-- The reason a share that was checked is reported with. -/
def rejectOf : RejectReason → Reject
  | .lowDiff => .lowDiff
  | .invalid => .invalid

/-- The text of a reason. -/
def reasonText : RejectReason → String
  | .lowDiff => "low-diff"
  | .invalid => "invalid"

/-- The share event of a credited share. -/
def shareEvent (moment : Moment) (username : JsString) (input : ShareInput)
    (check : ShareCheckOk) (attest : ShareAttest) : ShareEvent where
  user := (splitUserName username).1
  workerName := (splitUserName username).2
  diff :=
    if check.meetsShare then input.shareDifficulty
    else networkDifficultyFromBits input.job.bits
  isBlock := false
  blockHash := none
  blockHeight := none
  networkDifficulty := networkDifficultyFromBits input.job.bits
  timestampMs := moment.now
  attest := attest

/-- The answer to an accepted share and its event, up to `submitblock`. -/
def answerShare (setup : Setup) (moment : Moment) (msg : Json)
    (input : ShareInput) (check : ShareCheckOk) (attest : ShareAttest) :
    Handler (Option Await) := do
  changeClient fun c => { c with lastShareAt := moment.now }
  sendResult setup msg (.bool true)
  let event := shareEvent moment (← client).username input check attest
  match check.isBlock, check.serializedBlockHex with
  | true, some _ =>
    return some (.submitBlock
      { event, hash := check.blockHashHexBE, height := input.job.height })
  | _, _ =>
    sendIpc (.share event)
    return none

/-- `onSubmit` from an accepted share on, up to `submitblock`. -/
def credit (setup : Setup) (moment : Moment) (msg p : Json)
    (input : ShareInput) (check : ShareCheckOk) :
    Handler (Option Await) := do
  let attest ← attestOf setup p .valid
  if check.meetsShare then
    changeClient fun c =>
      { c with
        sharesAccepted := c.sharesAccepted + 1
        vardiff := c.vardiff.onShareAccepted }
  answerShare setup moment msg input check attest

/-- `onSubmit` up to `submitblock`. -/
def submitted (setup : Setup) (moment : Moment) (msg : Json) :
    Handler (Option Await) := do
  let p ← paramsOf msg
  let c ← client
  let (seen, outcome) := onSubmit setup.runtime setup.hashes
    (fun key canon signature =>
      setup.verifyP256Digest key (setup.sha256 canon) signature)
    c.extranonce1Hex c.seenShares (submitView moment c) p
  changeClient fun c => { c with seenShares := seen }
  match ← MonadExcept.ofExcept outcome with
  | .unauthorized =>
    countReject moment .other
    sendError setup msg 24 (JsString.ofString "Unauthorized worker")
    return none
  | .invalidParams =>
    countReject moment .other
    sendError setup msg 23 (JsString.ofString "Invalid params")
    return none
  | .unknownJob =>
    countReject moment .other
    sendResult setup msg (.bool false)
    return none
  | .badSignature result =>
    recordUncredited setup moment p result
    countReject moment .invalid
    sendError setup msg 23 (JsString.ofString
      (if result = .missing then "signature required" else "bad signature"))
    return none
  | .duplicate =>
    recordUncredited setup moment p .valid
    countReject moment .duplicate
    sendError setup msg 22 (JsString.ofString "Duplicate share")
    return none
  | .rejected reason =>
    recordUncredited setup moment p .valid
    countReject moment (rejectOf reason)
    sendError setup msg 23
      (JsString.ofString ("low difficulty: " ++ reasonText reason))
    return none
  | .credited _ input check => credit setup moment msg p input check

/-- `onSubmit` once the node has answered; `null` and the empty text accept. -/
def blockSubmitted (moment : Moment) (pending : PendingBlock)
    (result : Except JsError (Option JsString)) :
    Handler (Option Await) := do
  let accepted :=
    match result with
    | .ok none => true
    | .ok (some []) => true
    | _ => false
  sendIpc (.share
    { pending.event with
      isBlock := accepted
      blockHash := if accepted then some pending.hash else none
      blockHeight := if accepted then some pending.height else none
      timestampMs := moment.now })
  return none

/-- The method `mining.suggest_difficulty`. -/
def suggestDifficulty (setup : Setup) (moment : Moment) (msg : Json) :
    Handler Unit := do
  match ← MonadExcept.ofExcept (msg.property "params") with
  | none => throw .typeError
  | some .null => throw .typeError
  | some params =>
    let want ← MonadExcept.ofExcept
      ((Json.orElse (params.element 0) (.num (.finite 0))).toNumber
        setup.runtime)
    match Vardiff.setDiff setup.runtime setup.vardiff moment.now want with
    | .error message => sendError setup msg 23 message
    | .ok (applied, vardiff) =>
      changeClient fun c => { c with vardiff }
      changeClient fun c =>
        c.pushDifficulty (c.wireShareDifficulty applied)
      tryCatch (sendResult setup msg (.bool true)) fun _ =>
        sendError setup msg 23
          (JsString.ofString "Maximum call stack size exceeded")

/-- The method names the server knows. -/
inductive Method
  | subscribe
  | authorize
  | pubkey
  | attest
  | submit
  | extranonceSubscribe
  | suggestDifficulty
  | suggestTarget
  | unknown
  deriving DecidableEq, Repr

/-- The case of `switch (msg.method)`. -/
def Method.ofJson : Option Json → Method
  | some (.str text) =>
    if text = JsString.ofString "mining.subscribe" then .subscribe
    else if text = JsString.ofString "mining.authorize" then .authorize
    else if text = JsString.ofString "mining.pubkey" then .pubkey
    else if text = JsString.ofString "mining.attest" then .attest
    else if text = JsString.ofString "mining.submit" then .submit
    else if text = JsString.ofString "mining.extranonce.subscribe" then
      .extranonceSubscribe
    else if text = JsString.ofString "mining.suggest_difficulty" then
      .suggestDifficulty
    else if text = JsString.ofString "mining.suggest_target" then
      .suggestTarget
    else .unknown
  | _ => .unknown

/-- The text of a method in an error message. -/
def methodText (setup : Setup) : Option Json → Handler JsString
  | none => return JsString.ofString "undefined"
  | some value => MonadExcept.ofExcept (value.toText setup.runtime)

/-- The `switch` of `handleRpc`. -/
def callMethod (setup : Setup) (moment : Moment) (msg : Json) :
    Handler (Option Await) := do
  let method ← MonadExcept.ofExcept (msg.property "method")
  match Method.ofJson method with
  | .subscribe =>
    onSubscribe setup msg
    return none
  | .authorize => onAuthorize setup moment msg
  | .pubkey => onPubkey setup msg
  | .attest => onAttest setup msg
  | .submit => submitted setup moment msg
  | .extranonceSubscribe =>
    sendResult setup msg (.bool true)
    return none
  | .suggestDifficulty =>
    suggestDifficulty setup moment msg
    return none
  | .suggestTarget =>
    sendError setup msg 23 (JsString.ofString "use mining.suggest_difficulty")
    return none
  | .unknown =>
    let text ← methodText setup method
    sendError setup msg (-3) (JsString.ofString "unknown method " ++ text)
    return none

/-- The handler goes on with a reply; `none` if it waits for another one. -/
def goOn (setup : Setup) (moment : Moment) (msg : Json) :
    Await → Reply → Option (Handler (Option Await))
  | .findUserId username, .userId found =>
    some (authorized setup moment msg username found)
  | .findSlotByPubkey _, .slot found => some (keyFound setup msg found)
  | .reserveEmpty _, .rows found => some (slotReserved setup msg found)
  | .lock slotId _, .locked done => some (slotLocked setup msg slotId done)
  | .submitBlock pending, .submitted result =>
    some (blockSubmitted moment pending result)
  | _, _ => none

/-- The catch block of `handleRpc`, which reads the message again. -/
def internalError (setup : Setup) (msg : Json) :
    Handler (Option Await) := do
  let _ ← MonadExcept.ofExcept (msg.property "method")
  sendError setup msg (-32603) (JsString.ofString "internal error")
  return none

/-- A part of a handler inside the `try` of `handleRpc`. -/
def guarded (setup : Setup) (msg : Json) (part : Handler (Option Await)) :
    Handler (Option Await) :=
  tryCatch part fun _ => internalError setup msg

/-- `handleRpc` up to the first reply it waits for. -/
def handleRpc (setup : Setup) (moment : Moment) (msg : Json) :
    Handler (Option Await) :=
  guarded setup msg (callMethod setup moment msg)

end B3Chain.Stratum
