import B3Chain.Sv2.Frames

/-!
# Messages of Stratum V2

The messages the servers and the translator send and take, field by field.  A
32-bit floating-point number is kept as its four bytes.
-/

namespace B3Chain.Sv2

open Words Framing

/-- The frame of a message whose fields can be written. -/
def encodeMessage (msgType : Nat) (channelMsg : Bool)
    (fields : List (Except String (List Byte))) : Except String (List Byte) := do
  encodeFrame 0 msgType (← written fields) channelMsg

/-- A message whose fields are short can be sent. -/
theorem encodeMessage_ok {bounds : List Nat} (msgType : Nat)
    (channelMsg : Bool) {fields : List (Except String (List Byte))}
    (each : List.Forall₂ Fits bounds fields)
    (small : bounds.sum ≤ sv2MaxPayloadLen) :
    ∃ bytes, encodeMessage msgType channelMsg fields = .ok bytes := by
  obtain ⟨payload, made, short⟩ := written_fits each
  rw [encodeMessage, made]
  exact ⟨_, if_neg (by omega)⟩

/-- The message of this type that a frame brings. -/
def receive {Message : Type} (msgType : Nat) (decode : Reader Message)
    (wire : List Byte) : Option Message :=
  (nextFrame wire).bind fun taken =>
    if taken.1.msgType = msgType then
      (decode.decode taken.1.payload).toOption
    else none

section

variable {Message : Type} {decode : Reader Message} {m : Message}
  {msgType : Nat} {channelMsg : Bool}
  {fields : List (Except String (List Byte))} {wire : List Byte}

theorem nextFrame_of_encodeMessage (known : msgType < 256)
    (sent : encodeMessage msgType channelMsg fields = .ok wire) :
    ∃ payload, written fields = .ok payload ∧
      nextFrame wire = some
        ({ extensionType := 0, channelMsg, msgType, payload }, []) := by
  obtain ⟨payload, made, framed⟩ := Machine.bind_eq_ok_iff.mp sent
  obtain ⟨short, ⟨⟩⟩ := Machine.check_eq_ok_iff.mp framed
  have fits : Sv2Frame.Fits
      { extensionType := 0, channelMsg, msgType, payload } :=
    ⟨Nat.two_pow_pos 15, known, not_lt.mp short⟩
  have taken := nextFrame_frameBytes fits []
  rw [List.append_nil] at taken
  exact ⟨payload, made, taken⟩

/-- A message that has been sent is received. -/
theorem receive_of_encodeMessage
    (carries : Carries decode (written fields) m) (known : msgType < 256)
    (sent : encodeMessage msgType channelMsg fields = .ok wire) :
    receive msgType decode wire = some m := by
  obtain ⟨payload, made, taken⟩ := nextFrame_of_encodeMessage known sent
  rw [receive, taken, Option.bind_some, if_pos rfl,
    decode_of_reads (carries payload made)]
  rfl

/-- It is not received as a message of another type. -/
theorem receive_of_other (known : msgType < 256)
    (sent : encodeMessage msgType channelMsg fields = .ok wire)
    (decode : Reader Message) {other : Nat} (different : msgType ≠ other) :
    receive other decode wire = none := by
  obtain ⟨payload, made, taken⟩ := nextFrame_of_encodeMessage known sent
  rw [receive, taken, Option.bind_some, if_neg different]

end

/-! ## Setting up a connection -/

/-- `MSG_SETUP_CONNECTION`. -/
def msgSetupConnection : Nat := 0x00

/-- `MSG_SETUP_CONNECTION_SUCCESS`. -/
def msgSetupConnectionSuccess : Nat := 0x01

/-- `MSG_SETUP_CONNECTION_ERROR`. -/
def msgSetupConnectionError : Nat := 0x02

/-- `SubProtocol.Mining`. -/
def subProtocolMining : Nat := 0

/-- `SubProtocol.JobDeclaration`. -/
def subProtocolJobDeclaration : Nat := 1

/-- `SetupConnection`. -/
structure SetupConnection where
  protocol : Nat
  minVersion : Nat
  maxVersion : Nat
  flags : Nat
  endpointHost : JsString
  endpointPort : Nat
  vendor : JsString
  hardwareVersion : JsString
  firmware : JsString
  deviceId : JsString
  deriving DecidableEq

/-- `decodeSetupConnection`. -/
def decodeSetupConnection : Reader SetupConnection := do
  let protocol ← ReadBuf.u8
  let minVersion ← ReadBuf.u16
  let maxVersion ← ReadBuf.u16
  let flags ← ReadBuf.u32
  let endpointHost ← ReadBuf.str0_255
  let endpointPort ← ReadBuf.u16
  let vendor ← ReadBuf.str0_255
  let hardwareVersion ← ReadBuf.str0_255
  let firmware ← ReadBuf.str0_255
  let deviceId ← ReadBuf.str0_255
  return { protocol, minVersion, maxVersion, flags, endpointHost,
           endpointPort, vendor, hardwareVersion, firmware, deviceId }

/-- `SetupConnectionSuccess`. -/
structure SetupConnectionSuccess where
  usedVersion : Nat
  flags : Nat
  deriving DecidableEq

/-- `encodeSetupConnectionSuccess`. -/
def encodeSetupConnectionSuccess (m : SetupConnectionSuccess) :
    Except String (List Byte) :=
  encodeMessage msgSetupConnectionSuccess false
    [WriteBuf.u16 m.usedVersion, WriteBuf.u32 m.flags]

/-- `SetupConnectionError`. -/
structure SetupConnectionError where
  flags : Nat
  errorCode : JsString
  deriving DecidableEq

/-- `encodeSetupConnectionError`. -/
def encodeSetupConnectionError (m : SetupConnectionError) :
    Except String (List Byte) :=
  encodeMessage msgSetupConnectionError false
    [WriteBuf.u32 m.flags, WriteBuf.str0_255 m.errorCode]

/-! ## Opening a channel -/

/-- `MSG_OPEN_STD_CHANNEL`. -/
def msgOpenStdChannel : Nat := 0x10

/-- `MSG_OPEN_STD_CHANNEL_SUCCESS`. -/
def msgOpenStdChannelSuccess : Nat := 0x11

/-- `MSG_OPEN_EXT_CHANNEL`. -/
def msgOpenExtChannel : Nat := 0x13

/-- `MSG_OPEN_EXT_CHANNEL_SUCCESS`. -/
def msgOpenExtChannelSuccess : Nat := 0x14

/-- `MSG_OPEN_EXT_CHANNEL_ERROR`. -/
def msgOpenExtChannelError : Nat := 0x15

/-- `OpenStandardMiningChannel`. -/
structure OpenStandardMiningChannel where
  requestId : Nat
  userIdentity : JsString
  nominalHashRate : List Byte
  maxTarget : List Byte
  deriving DecidableEq

/-- `decodeOpenStandardMiningChannel`. -/
def decodeOpenStandardMiningChannel : Reader OpenStandardMiningChannel := do
  let requestId ← ReadBuf.u32
  let userIdentity ← ReadBuf.str0_255
  let nominalHashRate ← ReadBuf.bytesRaw 4
  let maxTarget ← ReadBuf.u256
  return { requestId, userIdentity, nominalHashRate, maxTarget }

/-- `OpenStandardMiningChannelSuccess`. -/
structure OpenStandardMiningChannelSuccess where
  requestId : Nat
  channelId : Nat
  target : List Byte
  extranoncePrefix : List Byte
  groupChannelId : Nat
  deriving DecidableEq

/-- `encodeOpenStandardMiningChannelSuccess`. -/
def encodeOpenStandardMiningChannelSuccess
    (m : OpenStandardMiningChannelSuccess) : Except String (List Byte) :=
  encodeMessage msgOpenStdChannelSuccess false
    [WriteBuf.u32 m.requestId, WriteBuf.u32 m.channelId,
      WriteBuf.u256 m.target, WriteBuf.b0_255 m.extranoncePrefix,
      WriteBuf.u32 m.groupChannelId]

/-- `OpenExtendedMiningChannel`. -/
structure OpenExtendedMiningChannel where
  requestId : Nat
  userIdentity : JsString
  nominalHashRate : List Byte
  maxTarget : List Byte
  minExtranonceSize : Nat
  deriving DecidableEq

/-- `decodeOpenExtendedMiningChannel`. -/
def decodeOpenExtendedMiningChannel : Reader OpenExtendedMiningChannel := do
  let requestId ← ReadBuf.u32
  let userIdentity ← ReadBuf.str0_255
  let nominalHashRate ← ReadBuf.bytesRaw 4
  let maxTarget ← ReadBuf.u256
  let minExtranonceSize ← ReadBuf.u16
  return { requestId, userIdentity, nominalHashRate, maxTarget,
           minExtranonceSize }

/-- `OpenExtendedMiningChannelSuccess`. -/
structure OpenExtendedMiningChannelSuccess where
  requestId : Nat
  channelId : Nat
  target : List Byte
  extranonceSize : Nat
  extranoncePrefix : List Byte
  deriving DecidableEq

/-- `encodeOpenExtendedMiningChannelSuccess`. -/
def encodeOpenExtendedMiningChannelSuccess
    (m : OpenExtendedMiningChannelSuccess) : Except String (List Byte) :=
  encodeMessage msgOpenExtChannelSuccess false
    [WriteBuf.u32 m.requestId, WriteBuf.u32 m.channelId,
      WriteBuf.u256 m.target, WriteBuf.u16 m.extranonceSize,
      WriteBuf.b0_255 m.extranoncePrefix]

/-- `OpenChannelError`. -/
structure OpenChannelError where
  requestId : Nat
  errorCode : JsString
  deriving DecidableEq

/-- `encodeOpenChannelError`. -/
def encodeOpenChannelError (msgType : Nat) (m : OpenChannelError) :
    Except String (List Byte) :=
  encodeMessage msgType false
    [WriteBuf.u32 m.requestId, WriteBuf.str0_255 m.errorCode]

/-- `MSG_UPDATE_CHANNEL`. -/
def msgUpdateChannel : Nat := 0x1a

/-- `MSG_CLOSE_CHANNEL`. -/
def msgCloseChannel : Nat := 0x1c

/-- `UpdateChannel`. -/
structure UpdateChannel where
  channelId : Nat
  nominalHashRate : List Byte
  maxTarget : List Byte
  deriving DecidableEq

/-- `decodeUpdateChannel`. -/
def decodeUpdateChannel : Reader UpdateChannel := do
  let channelId ← ReadBuf.u32
  let nominalHashRate ← ReadBuf.bytesRaw 4
  let maxTarget ← ReadBuf.u256
  return { channelId, nominalHashRate, maxTarget }

/-! ## Jobs -/

/-- `MSG_NEW_MINING_JOB`. -/
def msgNewMiningJob : Nat := 0x16

/-- `MSG_NEW_EXT_MINING_JOB`. -/
def msgNewExtMiningJob : Nat := 0x17

/-- `MSG_SET_NEW_PREV_HASH`. -/
def msgSetNewPrevHash : Nat := 0x18

/-- `MSG_SET_TARGET`. -/
def msgSetTarget : Nat := 0x19

/-- `encodeOptionU32`. -/
def encodeOptionU32 : Option Int → Except String (List Byte)
  | none => WriteBuf.u8 0
  | some v => written [WriteBuf.u8 1, WriteBuf.u32 v]

/-- `decodeOptionU32`. -/
def decodeOptionU32 : Reader (Option Int) := do
  if (← ReadBuf.u8) = 0 then return none
  else return some (← ReadBuf.u32)

theorem carries_noU32 :
    Carries decodeOptionU32 (encodeOptionU32 none) none := by
  rintro bytes ⟨⟩
  exact fun _ _ => rfl

/-- `NewMiningJob`. -/
structure NewMiningJob where
  channelId : Nat
  jobId : Nat
  minNtime : Option Int
  version : Int
  merkleRoot : List Byte
  deriving DecidableEq

/-- `encodeNewMiningJob`. -/
def encodeNewMiningJob (m : NewMiningJob) : Except String (List Byte) :=
  encodeMessage msgNewMiningJob true
    [WriteBuf.u32 m.channelId, WriteBuf.u32 m.jobId,
      encodeOptionU32 m.minNtime, WriteBuf.u32 m.version,
      WriteBuf.u256 m.merkleRoot]

/-- `decodeNewMiningJob`. -/
def decodeNewMiningJob : Reader NewMiningJob := do
  let channelId ← ReadBuf.u32
  let jobId ← ReadBuf.u32
  let minNtime ← decodeOptionU32
  let version ← ReadBuf.u32
  let merkleRoot ← ReadBuf.u256
  return { channelId, jobId, minNtime, version, merkleRoot }

/-- `NewExtendedMiningJob`. -/
structure NewExtendedMiningJob where
  channelId : Nat
  jobId : Nat
  minNtime : Option Int
  version : Int
  versionRollingAllowed : Bool
  merklePath : List (List Byte)
  coinbaseTxPrefix : List Byte
  coinbaseTxSuffix : List Byte
  deriving DecidableEq

/-- `encodeNewExtendedMiningJob`. -/
def encodeNewExtendedMiningJob (m : NewExtendedMiningJob) :
    Except String (List Byte) :=
  encodeMessage msgNewExtMiningJob true
    [WriteBuf.u32 m.channelId, WriteBuf.u32 m.jobId,
      encodeOptionU32 m.minNtime, WriteBuf.u32 m.version,
      WriteBuf.bool m.versionRollingAllowed,
      WriteBuf.seq0_255 m.merklePath WriteBuf.u256,
      WriteBuf.b0_64k m.coinbaseTxPrefix, WriteBuf.b0_64k m.coinbaseTxSuffix]

/-- `decodeNewExtendedMiningJob`. -/
def decodeNewExtendedMiningJob : Reader NewExtendedMiningJob := do
  let channelId ← ReadBuf.u32
  let jobId ← ReadBuf.u32
  let minNtime ← decodeOptionU32
  let version ← ReadBuf.u32
  let versionRollingAllowed ← ReadBuf.bool
  let merklePath ← ReadBuf.seq0_255 ReadBuf.u256
  let coinbaseTxPrefix ← ReadBuf.b0_64k
  let coinbaseTxSuffix ← ReadBuf.b0_64k
  return { channelId, jobId, minNtime, version, versionRollingAllowed,
           merklePath, coinbaseTxPrefix, coinbaseTxSuffix }

/-- `SetNewPrevHash`. -/
structure SetNewPrevHash where
  channelId : Nat
  jobId : Nat
  prevHash : List Byte
  minNtime : Int
  nbits : Int
  deriving DecidableEq

/-- `encodeSetNewPrevHash`. -/
def encodeSetNewPrevHash (m : SetNewPrevHash) : Except String (List Byte) :=
  encodeMessage msgSetNewPrevHash true
    [WriteBuf.u32 m.channelId, WriteBuf.u32 m.jobId,
      WriteBuf.u256 m.prevHash, WriteBuf.u32 m.minNtime,
      WriteBuf.u32 m.nbits]

/-- `decodeSetNewPrevHash`. -/
def decodeSetNewPrevHash : Reader SetNewPrevHash := do
  let channelId ← ReadBuf.u32
  let jobId ← ReadBuf.u32
  let prevHash ← ReadBuf.u256
  let minNtime ← ReadBuf.u32
  let nbits ← ReadBuf.u32
  return { channelId, jobId, prevHash, minNtime, nbits }

/-- `SetTarget`. -/
structure SetTarget where
  channelId : Nat
  maxTarget : List Byte
  deriving DecidableEq

/-- `encodeSetTarget`. -/
def encodeSetTarget (m : SetTarget) : Except String (List Byte) :=
  encodeMessage msgSetTarget true
    [WriteBuf.u32 m.channelId, WriteBuf.u256 m.maxTarget]

/-- `MSG_SET_CUSTOM_MINING_JOB`. -/
def msgSetCustomMiningJob : Nat := 0x70

/-- `SetCustomMiningJob`. -/
structure SetCustomMiningJob where
  channelId : Nat
  requestId : Nat
  miningJobToken : List Byte
  version : Int
  prevHash : List Byte
  minNtime : Int
  nbits : Int
  coinbaseTxVersion : Int
  coinbasePrefix : List Byte
  coinbaseTxInputNSequence : Int
  coinbaseTxValueRemaining : Nat
  coinbaseTxOutputs : List Byte
  coinbaseTxLocktime : Int
  merklePath : List (List Byte)
  deriving DecidableEq

/-- `encodeSetCustomMiningJob`. -/
def encodeSetCustomMiningJob (m : SetCustomMiningJob) :
    Except String (List Byte) :=
  encodeMessage msgSetCustomMiningJob true
    [WriteBuf.u32 m.channelId, WriteBuf.u32 m.requestId,
      WriteBuf.b0_255 m.miningJobToken, WriteBuf.u32 m.version,
      WriteBuf.u256 m.prevHash, WriteBuf.u32 m.minNtime,
      WriteBuf.u32 m.nbits, WriteBuf.u32 m.coinbaseTxVersion,
      WriteBuf.b0_255 m.coinbasePrefix,
      WriteBuf.u32 m.coinbaseTxInputNSequence,
      WriteBuf.u64 m.coinbaseTxValueRemaining,
      WriteBuf.b0_64k m.coinbaseTxOutputs, WriteBuf.u32 m.coinbaseTxLocktime,
      WriteBuf.seq0_255 m.merklePath WriteBuf.u256]

/-! ## Shares -/

/-- `MSG_SUBMIT_SHARES_STANDARD`. -/
def msgSubmitSharesStandard : Nat := 0x1e

/-- `MSG_SUBMIT_SHARES_EXTENDED`. -/
def msgSubmitSharesExtended : Nat := 0x1f

/-- `MSG_SUBMIT_SHARES_SUCCESS`. -/
def msgSubmitSharesSuccess : Nat := 0x20

/-- `MSG_SUBMIT_SHARES_ERROR`. -/
def msgSubmitSharesError : Nat := 0x21

/-- `SubmitSharesStandard`. -/
structure SubmitSharesStandard where
  channelId : Nat
  sequenceNumber : Nat
  jobId : Nat
  nonce : Nat
  ntime : Nat
  version : Nat
  deriving DecidableEq

/-- `decodeSubmitSharesStandard`. -/
def decodeSubmitSharesStandard : Reader SubmitSharesStandard := do
  let channelId ← ReadBuf.u32
  let sequenceNumber ← ReadBuf.u32
  let jobId ← ReadBuf.u32
  let nonce ← ReadBuf.u32
  let ntime ← ReadBuf.u32
  let version ← ReadBuf.u32
  return { channelId, sequenceNumber, jobId, nonce, ntime, version }

/-- `SubmitSharesExtended`. -/
structure SubmitSharesExtended extends SubmitSharesStandard where
  extranonce : List Byte
  deriving DecidableEq

/-- `decodeSubmitSharesExtended`. -/
def decodeSubmitSharesExtended : Reader SubmitSharesExtended := do
  let channelId ← ReadBuf.u32
  let sequenceNumber ← ReadBuf.u32
  let jobId ← ReadBuf.u32
  let nonce ← ReadBuf.u32
  let ntime ← ReadBuf.u32
  let version ← ReadBuf.u32
  let extranonce ← ReadBuf.b0_255
  return { channelId, sequenceNumber, jobId, nonce, ntime, version,
           extranonce }

/-- `SubmitSharesSuccess`. -/
structure SubmitSharesSuccess where
  channelId : Nat
  lastSequenceNumber : Nat
  newSubmitsAcceptedCount : Nat
  newSharesSum : Nat
  deriving DecidableEq

/-- `encodeSubmitSharesSuccess`. -/
def encodeSubmitSharesSuccess (m : SubmitSharesSuccess) :
    Except String (List Byte) :=
  encodeMessage msgSubmitSharesSuccess true
    [WriteBuf.u32 m.channelId, WriteBuf.u32 m.lastSequenceNumber,
      WriteBuf.u32 m.newSubmitsAcceptedCount, WriteBuf.u64 m.newSharesSum]

/-- `SubmitSharesError`. -/
structure SubmitSharesError where
  channelId : Nat
  sequenceNumber : Nat
  errorCode : JsString
  deriving DecidableEq

/-- `encodeSubmitSharesError`. -/
def encodeSubmitSharesError (m : SubmitSharesError) :
    Except String (List Byte) :=
  encodeMessage msgSubmitSharesError true
    [WriteBuf.u32 m.channelId, WriteBuf.u32 m.sequenceNumber,
      WriteBuf.str0_255 m.errorCode]

/-! ## Declared jobs -/

/-- `MSG_ALLOCATE_JOB_TOKEN`. -/
def msgAllocateJobToken : Nat := 0x50

/-- `MSG_ALLOCATE_JOB_TOKEN_SUCCESS`. -/
def msgAllocateJobTokenSuccess : Nat := 0x51

/-- `MSG_DECLARE_MINING_JOB`. -/
def msgDeclareMiningJob : Nat := 0x57

/-- `MSG_DECLARE_MINING_JOB_SUCCESS`. -/
def msgDeclareMiningJobSuccess : Nat := 0x58

/-- `MSG_DECLARE_MINING_JOB_ERROR`. -/
def msgDeclareMiningJobError : Nat := 0x59

/-- `AllocateMiningJobToken`. -/
structure AllocateMiningJobToken where
  userIdentifier : JsString
  requestId : Nat
  deriving DecidableEq

/-- `decodeAllocateMiningJobToken`. -/
def decodeAllocateMiningJobToken : Reader AllocateMiningJobToken := do
  let userIdentifier ← ReadBuf.str0_255
  let requestId ← ReadBuf.u32
  return { userIdentifier, requestId }

/-- `AllocateMiningJobTokenSuccess`. -/
structure AllocateMiningJobTokenSuccess where
  requestId : Nat
  miningJobToken : List Byte
  coinbaseOutputMaxAdditionalSize : Nat
  asyncMiningAllowed : Bool
  coinbaseOutput : List Byte
  deriving DecidableEq

/-- `encodeAllocateMiningJobTokenSuccess`. -/
def encodeAllocateMiningJobTokenSuccess
    (m : AllocateMiningJobTokenSuccess) : Except String (List Byte) :=
  encodeMessage msgAllocateJobTokenSuccess false
    [WriteBuf.u32 m.requestId, WriteBuf.b0_255 m.miningJobToken,
      WriteBuf.u32 m.coinbaseOutputMaxAdditionalSize,
      WriteBuf.bool m.asyncMiningAllowed, WriteBuf.b0_64k m.coinbaseOutput]

/-- `DeclareMiningJob`. -/
structure DeclareMiningJob where
  requestId : Nat
  miningJobToken : List Byte
  version : Nat
  coinbasePrefix : List Byte
  coinbaseSuffix : List Byte
  txShortHashList : List (List Byte)
  txHashListHash : List Byte
  excessData : List Byte
  deriving DecidableEq

/-- `decodeDeclareMiningJob`. -/
def decodeDeclareMiningJob : Reader DeclareMiningJob := do
  let requestId ← ReadBuf.u32
  let miningJobToken ← ReadBuf.b0_255
  let version ← ReadBuf.u32
  let coinbasePrefix ← ReadBuf.b0_255
  let coinbaseSuffix ← ReadBuf.b0_64k
  let txShortHashList ← ReadBuf.seq0_64k ReadBuf.u256
  let txHashListHash ← ReadBuf.u256
  let excessData ← ReadBuf.b0_64k
  return { requestId, miningJobToken, version, coinbasePrefix,
           coinbaseSuffix, txShortHashList, txHashListHash, excessData }

/-- `DeclareMiningJobSuccess`. -/
structure DeclareMiningJobSuccess where
  requestId : Nat
  newMiningJobToken : List Byte
  deriving DecidableEq

/-- `encodeDeclareMiningJobSuccess`. -/
def encodeDeclareMiningJobSuccess (m : DeclareMiningJobSuccess) :
    Except String (List Byte) :=
  encodeMessage msgDeclareMiningJobSuccess false
    [WriteBuf.u32 m.requestId, WriteBuf.b0_255 m.newMiningJobToken]

/-- `DeclareMiningJobError`. -/
structure DeclareMiningJobError where
  requestId : Nat
  errorCode : JsString
  errorDetails : List Byte
  deriving DecidableEq

/-- `encodeDeclareMiningJobError`. -/
def encodeDeclareMiningJobError (m : DeclareMiningJobError) :
    Except String (List Byte) :=
  encodeMessage msgDeclareMiningJobError false
    [WriteBuf.u32 m.requestId, WriteBuf.str0_255 m.errorCode,
      WriteBuf.b0_64k m.errorDetails]

end B3Chain.Sv2
