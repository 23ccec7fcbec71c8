import B3Chain.Machine.Tables
import B3Chain.Sv2.Channels

/-!
# Jobs and shares of Stratum V2

The jobs of the job manager as messages, and a submitted share as the share of
the first protocol that it stands for.
-/

namespace B3Chain.Sv2

open Words
open Stratum (Hashes StratumJob JobContext ShareInput ShareCheckOk RejectReason)

/-! ## Messages of a job -/

/-- `reverseBytes(hexToBytes(hex))`. -/
def hexToReversedBytes (hex : JsString) : Except String (List Byte) :=
  (JsString.hexToBytes hex).map List.reverse

/-- `merklePathLE`. -/
def merklePathLE (job : StratumJob) : Except String (List (List Byte)) :=
  job.merkleBranchesHexBE.mapM hexToReversedBytes

/-- The message of `buildNewExtendedJob`. -/
def newExtendedJob (ch : ChannelState) (job : StratumJob) (jobId : Nat) :
    Except String NewExtendedMiningJob := do
  let merklePath ← merklePathLE job
  let coinbaseTxPrefix ← JsString.hexToBytes job.coinb1Hex
  let coinbaseTxSuffix ← JsString.hexToBytes job.coinb2Hex
  return { channelId := ch.id, jobId, minNtime := none, version := job.version,
           versionRollingAllowed := true, merklePath, coinbaseTxPrefix,
           coinbaseTxSuffix }

/-- `buildNewExtendedJob`. -/
def buildNewExtendedJob (ch : ChannelState) (job : StratumJob) (jobId : Nat) :
    Except String (List Byte) := do
  encodeNewExtendedMiningJob (← newExtendedJob ch job jobId)

/-- `computeMerkleRootLE`, which does what `computeMerkleRoot` does. -/
def computeMerkleRootLE (hashes : Hashes) (coinbaseTxidLE : List Byte)
    (branchesBE : List JsString) : Except String (List Byte) :=
  Stratum.computeMerkleRoot hashes coinbaseTxidLE branchesBE

/-- The message of `buildNewStandardJob`. -/
def newStandardJob (hashes : Hashes) (ch : ChannelState) (job : StratumJob)
    (jobId : Nat) : Except String NewMiningJob := do
  let en ← fullExtranonce ch []
  let coinb1 ← JsString.hexToBytes job.coinb1Hex
  let coinb2 ← JsString.hexToBytes job.coinb2Hex
  let coinbase := coinb1 ++ (en ++ coinb2)
  let merkleRoot ← computeMerkleRootLE hashes (hashes.sha256d coinbase)
    job.merkleBranchesHexBE
  return { channelId := ch.id, jobId, minNtime := none, version := job.version,
           merkleRoot }

/-- `buildNewStandardJob`. -/
def buildNewStandardJob (hashes : Hashes) (ch : ChannelState)
    (job : StratumJob) (jobId : Nat) : Except String (List Byte) := do
  encodeNewMiningJob (← newStandardJob hashes ch job jobId)

/-- The message of `buildSetNewPrevHash`. -/
def newPrevHash (ch : ChannelState) (job : StratumJob) (jobId : Nat) :
    Except String SetNewPrevHash := do
  let prevHash ← hexToReversedBytes job.prevHashHexBE
  return { channelId := ch.id, jobId, prevHash, minNtime := job.ntimeMin,
           nbits := job.bits }

/-- `buildSetNewPrevHash`. -/
def buildSetNewPrevHash (ch : ChannelState) (job : StratumJob) (jobId : Nat) :
    Except String (List Byte) := do
  encodeSetNewPrevHash (← newPrevHash ch job jobId)

/-- `buildSetTarget`. -/
def buildSetTarget (ch : ChannelState) : Except String (List Byte) :=
  encodeSetTarget { channelId := ch.id, maxTarget := ch.targetBE }

/-! ## Jobs by their ids -/

/-- The counter of job ids and the jobs they stand for. -/
structure JobBoard where
  sv2JobIdCounter : Nat
  jobsBySv2Id : List (Nat × StratumJob)

/-- The most jobs that are kept. -/
def maxBoardJobs : Nat := 4096

namespace JobBoard

/-- No job has been sent. -/
def empty : JobBoard where
  sv2JobIdCounter := 0
  jobsBySv2Id := []

/-- `nextSv2JobId`, which counts modulo `2 ^ 32`. -/
def nextId (board : JobBoard) : Nat :=
  (board.sv2JobIdCounter + 1) % 2 ^ 32

/-- `nextSv2JobId` has been called. -/
def counted (board : JobBoard) : JobBoard :=
  { board with sv2JobIdCounter := board.nextId }

/-- `lookupJob`. -/
def lookupJob (board : JobBoard) (sv2JobId : Nat) : Option StratumJob :=
  board.jobsBySv2Id.lookup sv2JobId

/-- A job is kept under its id; the oldest one goes if there are too many. -/
def keep (board : JobBoard) (sv2JobId : Nat) (job : StratumJob) : JobBoard :=
  let added := Machine.setEntry board.jobsBySv2Id sv2JobId job
  { board with
    jobsBySv2Id := if maxBoardJobs < added.length then added.tail else added }

end JobBoard

/-! ## Shares -/

/-- `SubmitArgs`. -/
structure SubmitArgs where
  channel : ChannelState
  job : JobContext
  sequenceNumber : Nat
  nonce : Nat
  ntime : Nat
  version : Nat
  extranonce : List Byte
  blockHeight : Int
  networkDifficulty : ℚ

/-- `ShareEvent` as the Stratum V2 server fills it. -/
structure ShareEvent where
  user : JsString
  workerName : JsString
  diff : ℚ
  isBlock : Bool
  blockHash : Option JsString
  blockHeight : Option Int
  networkDifficulty : ℚ
  timestampMs : Int

/-- `workerNameFromIdentity`: what follows the first dot. -/
def workerNameFromIdentity (id : JsString) : JsString :=
  if 46 ∈ id then (id.dropWhile (· ≠ 46)).tail
  else JsString.ofString "default"

/-- The share of the first protocol that a submission stands for. -/
def SubmitArgs.input (args : SubmitArgs) (en : List Byte) : ShareInput where
  job := args.job
  extranonce1Hex :=
    JsString.bytesToHex (en.take args.channel.extranoncePrefix.length)
  extranonce2Hex :=
    JsString.bytesToHex (en.drop args.channel.extranoncePrefix.length)
  ntime := args.ntime
  nonce := args.nonce
  shareDifficulty := args.channel.shareDifficulty

/-- The event of a share that is accepted. -/
def SubmitArgs.event (args : SubmitArgs) (check : ShareCheckOk) (now : Int) :
    ShareEvent where
  user := args.channel.userIdentity
  workerName := workerNameFromIdentity args.channel.userIdentity
  diff := args.channel.shareDifficulty
  isBlock := check.isBlock
  blockHash := if check.isBlock then some check.blockHashHexBE else none
  blockHeight := some args.blockHeight
  networkDifficulty := args.networkDifficulty
  timestampMs := now

/-- What the check of a submission gives. -/
inductive Checked
  | rejected (reason : RejectReason)
  | accepted (input : ShareInput) (check : ShareCheckOk)

/-- `processSubmit` up to `submitBlock`, whose outcome changes nothing. -/
def processSubmit (hashes : Hashes) (args : SubmitArgs) :
    Except String Checked := do
  let en ← fullExtranonce args.channel args.extranonce
  match ← Stratum.validateShare hashes (args.input en) with
  | .fail reason => return .rejected reason
  | .ok check => return .accepted (args.input en) check

theorem processSubmit_accepted {hashes : Hashes} {args : SubmitArgs}
    {input : ShareInput} {check : ShareCheckOk}
    (accepted : processSubmit hashes args = .ok (.accepted input check)) :
    (fullExtranonce args.channel args.extranonce).toOption.map args.input =
        some input ∧
      Stratum.validateShare hashes input = .ok (.ok check) := by
  rw [processSubmit] at accepted
  obtain ⟨en, full, accepted⟩ := Machine.bind_eq_ok_iff.mp accepted
  obtain ⟨verdict, judged, accepted⟩ := Machine.bind_eq_ok_iff.mp accepted
  cases verdict with
  | fail reason => cases accepted
  | ok found =>
    cases accepted
    rw [full]
    exact ⟨rfl, judged⟩

end B3Chain.Sv2
