import B3Chain.Sv2.CustomJob

/-!
# Handlers of the job-declaration server

A client is given a token and uses it up with the declaration of a job.  The
whole dispatch of a frame is asynchronous, so whatever it throws rejects its
promise; between its parts it waits for the database and for the delivery of
the job, and no failure of the database is seen.
-/

namespace B3Chain.Sv2

open Words Framing Machine

/-! ## Tokens -/

/-- `JdToken`. -/
structure JdToken where
  bytes : List Byte
  userIdentifier : JsString
  expiresAt : Int
  coinbaseOutputMaxAdditionalSize : Nat
  consumed : Bool
  deriving DecidableEq

/-- `JdTokenStore`; a token's bytes stand for their hexadecimal text. -/
abbrev TokenStore := List (List Byte × JdToken)

/-- `TOKEN_LEN`. -/
def tokenLen : Nat := 32

namespace TokenStore

/-- The token is used up, if it is there. -/
def markConsumed (store : TokenStore) (tokenBytes : List Byte) : TokenStore :=
  store.map fun entry =>
    if entry.1 = tokenBytes then (entry.1, { entry.2 with consumed := true })
    else entry

/-- `consume`: the token if it was valid and unused, and the store then. -/
def consume (store : TokenStore) (now : Int) (tokenBytes : List Byte) :
    Option JdToken × TokenStore :=
  match store.lookup tokenBytes with
  | none => (none, store)
  | some tok =>
    if tok.consumed then (none, store)
    else if tok.expiresAt ≤ now then
      (none, store.filter fun entry => entry.1 ≠ tokenBytes)
    else (some tok, markConsumed store tokenBytes)

/-- `gc`. -/
def gc (store : TokenStore) (now : Int) : TokenStore :=
  store.filter fun entry => ¬ (entry.2.expiresAt ≤ now ∨ entry.2.consumed)

end TokenStore

/-! ## What the handlers work on -/

/-- `JdConn`. -/
structure JdConn where
  phase : Phase
  userIdentity : JsString
  sent : List (List Byte)
  destroyed : Bool

/-- A connection once the handshake is done. -/
def JdConn.new : JdConn where
  phase := .setupPending
  userIdentity := []
  sent := []
  destroyed := false

/-- A handler's connection, the tokens and the random draws. -/
structure JdDesk where
  conn : JdConn
  tokens : TokenStore
  drawn : Nat

/-- A handler of the job-declaration server. -/
abbrev JdHandler := Action String JdDesk

/-- What a dispatch waits for. -/
inductive JdAwait
  | issued (requestId : Nat) (tok : JdToken)
  | consumed (m : DeclareMiningJob) (tok : Option JdToken)
  | refused (requestId : Nat) (reason : String)
  | delivered (m : DeclareMiningJob) (result : Except String (Option String))

/-- What a part of a dispatch has come to. -/
inductive JdOutcome
  | done
  | waits (await : JdAwait)
  | deliver (m : DeclareMiningJob) (userIdentity : JsString)

namespace JdConn

/-- A change of the connection. -/
def change (f : JdConn → JdConn) : JdHandler Unit :=
  modify fun desk => { desk with conn := f desk.conn }

/-- `send`. -/
def send (frame : Except String (List Byte)) : JdHandler Unit := do
  let plainFrame ← MonadExcept.ofExcept frame
  change fun conn =>
    if plainFrame.length < sv2HeaderLen ∨ conn.destroyed then conn
    else { conn with sent := conn.sent ++ [plainFrame] }

end JdConn

/-! ## The handlers -/

/-- `text || other`. -/
def orText (text other : JsString) : JsString :=
  if text = [] then other else text

/-- `handleSetup` of the job-declaration server. -/
def jdHandleSetup (payload : List Byte) : JdHandler Unit := do
  let m ← MonadExcept.ofExcept (decodePayload decodeSetupConnection payload)
  if m.protocol ≠ subProtocolJobDeclaration then
    JdConn.send (encodeSetupConnectionError
      { flags := 0, errorCode := JsString.ofString "unsupported-protocol" })
    JdConn.change fun conn => { conn with destroyed := true }
  else
    JdConn.change fun conn =>
      { conn with
        userIdentity := orText m.deviceId (JsString.ofString "jd-anon") }
    JdConn.send (encodeSetupConnectionSuccess { usedVersion := 2, flags := 0 })
    JdConn.change fun conn => { conn with phase := .ready }

/-- `handleAllocate` up to the database. -/
def handleAllocate (setup : Setup) (moment : Moment) (payload : List Byte) :
    JdHandler JdOutcome := do
  let m ← MonadExcept.ofExcept
    (decodePayload decodeAllocateMiningJobToken payload)
  let desk ← get
  let tok : JdToken :=
    { bytes := setup.randomness.bytes desk.drawn tokenLen
      userIdentifier := orText m.userIdentifier desk.conn.userIdentity
      expiresAt := moment.now + setup.tokenTtlMs
      coinbaseOutputMaxAdditionalSize := 100
      consumed := false }
  modify fun desk =>
    { desk with
      drawn := desk.drawn + 1
      tokens := setEntry desk.tokens tok.bytes tok }
  return .waits (.issued m.requestId tok)

/-- `handleAllocate` from the database on. -/
def tokenIssued (setup : Setup) (requestId : Nat) (tok : JdToken) :
    JdHandler JdOutcome := do
  match setup.payoutScript with
  | none => return .done
  | some expectedSpk => do
      JdConn.send (encodeAllocateMiningJobTokenSuccess
        { requestId, miningJobToken := tok.bytes,
          coinbaseOutputMaxAdditionalSize :=
            tok.coinbaseOutputMaxAdditionalSize,
          asyncMiningAllowed := true,
          coinbaseOutput := List.replicate 8 0 ++
            (Stratum.varInt expectedSpk.length ++ expectedSpk) })
      return .done

/-- `handleDeclare` up to the database. -/
def handleDeclare (moment : Moment) (payload : List Byte) :
    JdHandler JdOutcome := do
  let m ← MonadExcept.ofExcept (decodePayload decodeDeclareMiningJob payload)
  let desk ← get
  let consumed := TokenStore.consume desk.tokens moment.now m.miningJobToken
  modify fun desk => { desk with tokens := consumed.2 }
  return .waits (.consumed m consumed.1)

/-- `DeclareMiningJob.Error`. -/
def sendDeclareError (requestId : Nat) (errorCode : String) :
    JdHandler JdOutcome := do
  JdConn.send (encodeDeclareMiningJobError
    { requestId, errorCode := JsString.ofString errorCode,
      errorDetails := [] })
  return .done

/-- `tokens.reject` up to the database. -/
def rejectToken (m : DeclareMiningJob) (reason : String) :
    JdHandler JdOutcome := do
  modify fun desk =>
    { desk with tokens := TokenStore.markConsumed desk.tokens m.miningJobToken }
  return .waits (.refused m.requestId reason)

/-- `handleDeclare` once the token is used up. -/
def tokenConsumed (setup : Setup) (m : DeclareMiningJob)
    (tok : Option JdToken) : JdHandler JdOutcome := do
  match tok with
  | none => sendDeclareError m.requestId "invalid-mining-job-token"
  | some tok =>
    match validateDeclaredCoinbase setup.payoutScript m.coinbaseSuffix 1 with
    | .error reason => rejectToken m reason
    | .ok _ => return .deliver m tok.userIdentifier

/-- `handleDeclare` once the job is delivered or not. -/
def jobDelivered (m : DeclareMiningJob)
    (result : Except String (Option String)) : JdHandler JdOutcome := do
  match ← MonadExcept.ofExcept result with
  | some reason => rejectToken m reason
  | none => do
      JdConn.send (encodeDeclareMiningJobSuccess
        { requestId := m.requestId, newMiningJobToken := m.miningJobToken })
      return .done

/-- `dispatch` of the first frame. -/
def jdDispatchSetup (frame : Sv2Frame) : JdHandler JdOutcome :=
  if frame.msgType = msgSetupConnection then do
    jdHandleSetup frame.payload
    return .done
  else do
    JdConn.change fun conn => { conn with destroyed := true }
    return .done

/-- `dispatch` once the connection is set up. -/
def jdDispatchReady (setup : Setup) (moment : Moment) (frame : Sv2Frame) :
    JdHandler JdOutcome :=
  if frame.msgType = msgAllocateJobToken then
    handleAllocate setup moment frame.payload
  else if frame.msgType = msgDeclareMiningJob then
    handleDeclare moment frame.payload
  else return .done

/-- `dispatch` of the job-declaration server up to its first wait. -/
def jdDispatch (setup : Setup) (moment : Moment) (frame : Sv2Frame) :
    JdHandler JdOutcome := do
  match (← get).conn.phase with
  | .setupPending => jdDispatchSetup frame
  | .ready => jdDispatchReady setup moment frame

/-- A dispatch goes on. -/
def jdGoOn (setup : Setup) : JdAwait → JdHandler JdOutcome
  | .issued requestId tok => tokenIssued setup requestId tok
  | .consumed m tok => tokenConsumed setup m tok
  | .refused requestId reason => sendDeclareError requestId reason
  | .delivered m result => jobDelivered m result

end B3Chain.Sv2
