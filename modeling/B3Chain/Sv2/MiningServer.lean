import B3Chain.Machine.Actions
import B3Chain.Sv2.Jobs

/-!
# Handlers of the Stratum V2 mining server

What a frame of a miner does after the handshake.  The handlers of shares are
asynchronous: what they throw rejects their own promise and is not seen by the
code that called them, and the reply to a share is sent later.  What the other
handlers throw is the caller's.
-/

namespace B3Chain.Sv2

open Words Framing Machine
open Stratum (Hashes StratumJob ShareInput ShareCheckOk RejectReason)

/-! ## What the handlers work on -/

/--
What is fixed while the process runs.  The script of the payout address is two
bytes and a witness program of at most forty.
-/
structure Setup where
  hashes : Hashes
  defaultDifficulty : ℚ
  randomness : Randomness
  payoutScript : Option (List Byte)
  tokenTtlMs : Int
  short_payoutScript : ∀ script ∈ payoutScript, script.length ≤ 42

/-- The time of an event and the current job of the job manager. -/
structure Moment where
  now : Int
  current : Option StratumJob

/-- The state of a connection after the handshake. -/
inductive Phase
  | setupPending
  | ready
  deriving DecidableEq, Repr

/-- `Conn` of the mining server. -/
structure MiningConn where
  phase : Phase
  channels : ChannelTable
  sent : List (List Byte)
  destroyed : Bool

/-- A connection once the handshake is done. -/
def MiningConn.new : MiningConn where
  phase := .setupPending
  channels := ChannelTable.empty
  sent := []
  destroyed := false

/-- A handler's connection, the jobs that were sent and the random draws. -/
structure Desk where
  conn : MiningConn
  board : JobBoard
  drawn : Nat

/-- A handler, which may throw a text. -/
abbrev Handler := Action String Desk

/-- The text of an error of a reader. -/
def readErrorText : ReadError → String
  | .truncated need offset available =>
    "SV2 read: need " ++ toString need ++ " bytes at offset " ++
      toString offset ++ ", have " ++ toString available
  | .malformedText => "The encoded data was not valid for encoding utf-8"
  | .refused message => message

/-- A payload as a message, or the text of the error. -/
def decodePayload {α : Type} (reader : Reader α) (payload : List Byte) :
    Except String α :=
  (reader.decode payload).mapError readErrorText

/-- The connection. -/
def conn : Handler MiningConn := return (← get).conn

/-- A change of the connection. -/
def changeConn (change : MiningConn → MiningConn) : Handler Unit :=
  modify fun desk => { desk with conn := change desk.conn }

/-- A change of the jobs that were sent. -/
def changeBoard (change : JobBoard → JobBoard) : Handler Unit :=
  modify fun desk => { desk with board := change desk.board }

/-- `send`; nothing is written to a socket that is destroyed. -/
def send (frame : Except String (List Byte)) : Handler Unit := do
  let plainFrame ← MonadExcept.ofExcept frame
  changeConn fun conn =>
    if plainFrame.length < sv2HeaderLen ∨ conn.destroyed then conn
    else { conn with sent := conn.sent ++ [plainFrame] }

/-- `conn.socket.destroy()`. -/
def destroy : Handler Unit :=
  changeConn fun conn => { conn with destroyed := true }

/-! ## Setup and channels -/

/-- `handleSetup`. -/
def handleSetup (payload : List Byte) : Handler Unit := do
  let m ← MonadExcept.ofExcept (decodePayload decodeSetupConnection payload)
  let used := min m.maxVersion 2
  if m.protocol ≠ subProtocolMining then
    send (encodeSetupConnectionError
      { flags := 0, errorCode := JsString.ofString "unsupported-protocol" })
    destroy
  else if used < m.minVersion then
    send (encodeSetupConnectionError
      { flags := 0,
        errorCode := JsString.ofString "protocol-version-mismatch" })
    destroy
  else
    send (encodeSetupConnectionSuccess { usedVersion := used, flags := 0 })
    changeConn fun conn => { conn with phase := .ready }

/-- The two messages of a job. -/
def sendJob (setup : Setup) (ch : ChannelState) (job : StratumJob)
    (sv2JobId : Nat) : Handler Unit := do
  match ch.kind with
  | .standard => send (buildNewStandardJob setup.hashes ch job sv2JobId)
  | .extended => send (buildNewExtendedJob ch job sv2JobId)
  send (buildSetNewPrevHash ch job sv2JobId)

/-- `pushJobToChannel`. -/
def pushJobToChannel (setup : Setup) (channelId : Nat) (job : StratumJob) :
    Handler Unit := do
  match (← conn).channels.get channelId with
  | none => return ()
  | some ch => do
      let sv2JobId := (← get).board.nextId
      changeBoard JobBoard.counted
      sendJob setup ch job sv2JobId
      changeConn fun conn =>
        { conn with
          channels := conn.channels.update channelId fun ch =>
            { ch with lastJobId := sv2JobId } }
      changeBoard fun board => board.keep sv2JobId job

/-- The extended channel of a user, if the connection is set up. -/
def MiningConn.channelOfUser (conn : MiningConn) (userIdentity : JsString) :
    Option ChannelState :=
  match conn.phase with
  | .setupPending => none
  | .ready =>
    conn.channels.all.find? fun ch =>
      ch.userIdentity = userIdentity ∧ ch.kind = .extended

/-- What `pushCustomJob` does on the channel it has found. -/
def sendCustomJob (ch : ChannelState) (job : StratumJob)
    (declared : DeclareMiningJob) : Handler Unit := do
  let customJobId := (← get).board.nextId
  changeBoard JobBoard.counted
  let prevHash ← MonadExcept.ofExcept (hexToReversedBytes job.prevHashHexBE)
  send (encodeSetCustomMiningJob
    { channelId := ch.id, requestId := declared.requestId,
      miningJobToken := declared.miningJobToken, version := declared.version,
      prevHash, minNtime := job.ntimeMin, nbits := job.bits,
      coinbaseTxVersion := 1, coinbasePrefix := declared.coinbasePrefix,
      coinbaseTxInputNSequence := 0xffffffff, coinbaseTxValueRemaining := 0,
      coinbaseTxOutputs := declared.coinbaseSuffix, coinbaseTxLocktime := 0,
      merklePath := [] })
  changeConn fun conn =>
    { conn with
      channels := conn.channels.update ch.id fun ch =>
        { ch with lastJobId := customJobId } }

/-- `ChannelTable.open`, which has drawn and counted before it can throw. -/
def openChannel (setup : Setup) (opts : OpenOptions) :
    Handler ChannelState := do
  let id := (← conn).channels.nextId
  let draw := (← get).drawn
  modify fun desk => { desk with drawn := desk.drawn + 1 }
  changeConn fun conn =>
    { conn with channels := { conn.channels with nextId := id + 1 } }
  let targetBE ← MonadExcept.ofExcept (targetU256BE opts.defaultDifficulty)
  let ch := ChannelTable.channelOf setup.randomness draw id opts targetBE
  changeConn fun conn =>
    { conn with
      channels := { conn.channels with
        byId := setEntry conn.channels.byId id ch } }
  return ch

/-- What follows the reply to an opened channel. -/
def startChannel (setup : Setup) (moment : Moment) (ch : ChannelState) :
    Handler Unit := do
  send (buildSetTarget ch)
  match moment.current with
  | none => return ()
  | some job => pushJobToChannel setup ch.id job

/-- What `handleOpenStandard` opens. -/
def standardOptions (setup : Setup) (m : OpenStandardMiningChannel) :
    OpenOptions where
  kind := .standard
  requestId := m.requestId
  userIdentity := m.userIdentity
  defaultDifficulty := setup.defaultDifficulty
  prefixLen := 4

/-- `handleOpenStandard`. -/
def handleOpenStandard (setup : Setup) (moment : Moment)
    (payload : List Byte) : Handler Unit := do
  let m ← MonadExcept.ofExcept
    (decodePayload decodeOpenStandardMiningChannel payload)
  let ch ← openChannel setup (standardOptions setup m)
  send (encodeOpenStandardMiningChannelSuccess
    { requestId := m.requestId, channelId := ch.id, target := ch.targetBE,
      extranoncePrefix := ch.extranoncePrefix,
      groupChannelId := ch.groupChannelId })
  startChannel setup moment ch

/-- The length of the fixed bytes for a requested size. -/
def prefixLenFor (minExtranonceSize : Nat) : Nat :=
  min (max (sv2ExtranonceTotal - minExtranonceSize) 1)
    (sv2ExtranonceTotal - 1)

/-- What `handleOpenExtended` opens. -/
def extendedOptions (setup : Setup) (m : OpenExtendedMiningChannel) :
    OpenOptions where
  kind := .extended
  requestId := m.requestId
  userIdentity := m.userIdentity
  defaultDifficulty := setup.defaultDifficulty
  prefixLen := prefixLenFor m.minExtranonceSize

/-- `handleOpenExtended`. -/
def handleOpenExtended (setup : Setup) (moment : Moment)
    (payload : List Byte) : Handler Unit := do
  let m ← MonadExcept.ofExcept
    (decodePayload decodeOpenExtendedMiningChannel payload)
  if sv2ExtranonceTotal - 1 < m.minExtranonceSize then
    send (encodeOpenChannelError msgOpenExtChannelError
      { requestId := m.requestId,
        errorCode := JsString.ofString "min-extranonce-size-too-large" })
  else
    let ch ← openChannel setup (extendedOptions setup m)
    send (encodeOpenExtendedMiningChannelSuccess
      { requestId := m.requestId, channelId := ch.id, target := ch.targetBE,
        extranonceSize := ch.extranonceSize,
        extranoncePrefix := ch.extranoncePrefix })
    startChannel setup moment ch

/-- `handleUpdate`, which only logs. -/
def handleUpdate (payload : List Byte) : Handler Unit := do
  let _ ← MonadExcept.ofExcept (decodePayload decodeUpdateChannel payload)
  return ()

/-- `handleClose`. -/
def handleClose (payload : List Byte) : Handler Unit :=
  if payload.length < 4 then return ()
  else
    changeConn fun conn =>
      { conn with
        channels := conn.channels.delete (leValue (payload.take 4)) }

/-! ## Shares -/

/-- A share whose reply is still to be sent. -/
structure PendingShare where
  args : SubmitArgs
  checked : Checked

/-- `SubmitShares.Error` with a code. -/
def sendSubmitError (channelId sequenceNumber : Nat) (errorCode : String) :
    Handler Unit :=
  send (encodeSubmitSharesError
    { channelId, sequenceNumber, errorCode := JsString.ofString errorCode })

/-- What `processSubmit` is called with. -/
def submitArgs (ch : ChannelState) (job : StratumJob)
    (m : SubmitSharesExtended) : SubmitArgs where
  channel := ch
  job := job.toJobContext
  sequenceNumber := m.sequenceNumber
  nonce := m.nonce
  ntime := m.ntime
  version := m.version
  extranonce := m.extranonce
  blockHeight := job.height
  networkDifficulty := Stratum.networkDifficultyFromBits job.bits

/-- The handlers of shares up to the reply to one that was checked. -/
def handleSubmit (setup : Setup) (m : SubmitSharesExtended) :
    Handler (Option PendingShare) := do
  match (← conn).channels.get m.channelId with
  | none => do
      sendSubmitError m.channelId m.sequenceNumber "no-such-channel"
      return none
  | some ch =>
    match (← get).board.lookupJob m.jobId with
    | none => do
        sendSubmitError m.channelId m.sequenceNumber "stale-job"
        return none
    | some job => do
        let args := submitArgs ch job m
        let checked ← MonadExcept.ofExcept (processSubmit setup.hashes args)
        return some { args, checked }

/-- `handleSubmitStd`: the extranonce is empty. -/
def handleSubmitStd (setup : Setup) (payload : List Byte) :
    Handler (Option PendingShare) := do
  let m ← MonadExcept.ofExcept
    (decodePayload decodeSubmitSharesStandard payload)
  handleSubmit setup { toSubmitSharesStandard := m, extranonce := [] }

/-- `handleSubmitExt`. -/
def handleSubmitExt (setup : Setup) (payload : List Byte) :
    Handler (Option PendingShare) := do
  let m ← MonadExcept.ofExcept
    (decodePayload decodeSubmitSharesExtended payload)
  handleSubmit setup m

/-- A share for which `onShare` is called. -/
structure Accepted where
  input : ShareInput
  check : ShareCheckOk
  event : ShareEvent

/-- `replySubmit`; the channel may be gone by then. -/
def replySubmit (moment : Moment) (pending : PendingShare) :
    Handler (Option Accepted) := do
  match pending.checked with
  | .rejected reason => do
      sendSubmitError pending.args.channel.id pending.args.sequenceNumber
        (match reason with
        | .lowDiff => "low-diff"
        | .invalid => "invalid")
      return none
  | .accepted input check => do
      let ch := (← conn).channels.get pending.args.channel.id
      changeConn fun conn =>
        { conn with
          channels := conn.channels.update pending.args.channel.id fun ch =>
            { ch with
              lastAcceptedSequence := pending.args.sequenceNumber } }
      let difficulty := (ch.map ChannelState.shareDifficulty).getD 1
      send (encodeSubmitSharesSuccess
        { channelId := pending.args.channel.id,
          lastSequenceNumber := pending.args.sequenceNumber,
          newSubmitsAcceptedCount := 1,
          newSharesSum := (max 1 ⌊difficulty⌋).toNat })
      return some
        { input, check, event := pending.args.event check moment.now }

/-! ## Dispatch -/

/-- What a handler that was started has come to. -/
inductive Started
  | done
  | waits (pending : PendingShare)
  | rejected (thrown : String)

/-- An asynchronous handler: what it throws rejects its promise. -/
def asynchronous (part : Handler (Option PendingShare)) : Handler Started :=
  tryCatch
    (do
      match ← part with
      | none => return .done
      | some pending => return .waits pending)
    fun thrown => return .rejected thrown

/-- `dispatch` of the first frame. -/
def dispatchSetup (frame : Sv2Frame) : Handler Started := do
  if frame.extensionType = 0 ∧ frame.msgType = msgSetupConnection then
    handleSetup frame.payload
  else destroy
  return .done

/--
`dispatch` once the connection is set up; the promises of the handlers of
shares are not awaited.
-/
def dispatchReady (setup : Setup) (moment : Moment) (frame : Sv2Frame) :
    Handler Started := do
  if frame.msgType = msgSubmitSharesStandard then
    asynchronous (handleSubmitStd setup frame.payload)
  else if frame.msgType = msgSubmitSharesExtended then
    asynchronous (handleSubmitExt setup frame.payload)
  else
    if frame.msgType = msgOpenStdChannel then
      handleOpenStandard setup moment frame.payload
    else if frame.msgType = msgOpenExtChannel then
      handleOpenExtended setup moment frame.payload
    else if frame.msgType = msgUpdateChannel then
      handleUpdate frame.payload
    else if frame.msgType = msgCloseChannel then
      handleClose frame.payload
    return .done

/-- `dispatch`. -/
def dispatch (setup : Setup) (moment : Moment) (frame : Sv2Frame) :
    Handler Started := do
  match (← conn).phase with
  | .setupPending => dispatchSetup frame
  | .ready => dispatchReady setup moment frame

end B3Chain.Sv2
