import B3Chain.Sv2.CreditedHeaders

/-!
# The header that is mined and the header that is checked

A miner makes a header from the frames of a job, as it decodes them, and from
what it chose itself: the extranonce, the time, the nonce and, as an extended job allows it,
the version.  The pool makes one again from the job and the submission.  It
takes the version from the job, so the two agree exactly if the miner has not
rolled the version.
-/

namespace B3Chain.Sv2

open Words Framing
open Stratum (Hashes StratumJob uint32LE buildHeader computeMerkleRoot)

/-! ## The miner -/

/-- The message of a job as it is received. -/
inductive JobMessage
  | extended (msg : NewExtendedMiningJob)
  | standard (msg : NewMiningJob)

namespace JobMessage

/-- The merkle root for an extranonce; a standard job has it in the message. -/
def root (hashes : Hashes) (extranonce : List Byte) : JobMessage → List Byte
  | .extended msg =>
    msg.merklePath.foldl (fun node sibling => hashes.sha256d (node ++ sibling))
      (hashes.sha256d
        (msg.coinbaseTxPrefix ++ (extranonce ++ msg.coinbaseTxSuffix)))
  | .standard msg => msg.merkleRoot

/-- The job that a frame brings. -/
def ofFrame (wire : List Byte) : Option JobMessage :=
  ((receive msgNewExtMiningJob decodeNewExtendedMiningJob wire).map
    .extended).or
      ((receive msgNewMiningJob decodeNewMiningJob wire).map .standard)

end JobMessage

/-- The two frames with which a job is sent on a channel. -/
structure JobSent (hashes : Hashes) (ch : ChannelState) (job : StratumJob)
    (jobId : Nat) (jobFrame prevFrame : List Byte) : Prop where
  built : buildNewExtendedJob ch job jobId = .ok jobFrame ∨
    buildNewStandardJob hashes ch job jobId = .ok jobFrame
  chained : buildSetNewPrevHash ch job jobId = .ok prevFrame

/-- The header that the miner hashes for a submission, from the frames that it
has received. -/
def minedHeader (hashes : Hashes) (jobFrame prevFrame : List Byte)
    (args : SubmitArgs) : Option (List Byte) := do
  let message ← JobMessage.ofFrame jobFrame
  let prev ← receive msgSetNewPrevHash decodeSetNewPrevHash prevFrame
  return uint32LE args.version ++ (prev.prevHash ++
    (message.root hashes (args.channel.extranoncePrefix ++ args.extranonce) ++
      (uint32LE args.ntime ++ (uint32LE prev.nbits ++ uint32LE args.nonce))))

/-! ## The pool -/

/-- The header that `validateShare` hashes for a submission. -/
def checkedHeader (hashes : Hashes) (args : SubmitArgs) :
    Except String (List Byte) := do
  let en ← fullExtranonce args.channel args.extranonce
  let built ← buildHeader hashes (args.input en)
  return built.header

theorem checkedHeader_of_accepted {hashes : Hashes} {args : SubmitArgs}
    {input : Stratum.ShareInput} {check : Stratum.ShareCheckOk}
    (accepted : processSubmit hashes args = .ok (.accepted input check)) :
    checkedHeader hashes args = .ok check.serializedHeader := by
  obtain ⟨found, judged⟩ := processSubmit_accepted accepted
  obtain ⟨built, made, same⟩ := Stratum.buildHeader_of_validateShare judged
  rw [checkedHeader]
  cases full : fullExtranonce args.channel args.extranonce with
  | error thrown =>
    rw [full] at found
    cases found
  | ok en =>
    rw [full] at found
    cases found
    dsimp only [bind, Except.bind]
    rw [made, same]
    rfl

/-! ## What has been sent -/

theorem length_of_u256 {b bytes : List Byte}
    (done : WriteBuf.u256 b = .ok bytes) : b.length = 32 :=
  not_not.mp (Machine.check_eq_ok_iff.mp done).1

theorem ok_of_encodeMessage {msgType : Nat} {channelMsg : Bool}
    {fields : List (Except String (List Byte))} {frame : List Byte}
    (sent : encodeMessage msgType channelMsg fields = .ok frame)
    (field : Except String (List Byte)) (member : field ∈ fields) :
    ∃ bytes, field = .ok bytes := by
  obtain ⟨payload, made, -⟩ := Machine.bind_eq_ok_iff.mp sent
  exact Framing.ok_of_written made member

theorem length_merklePath {msg : NewExtendedMiningJob} {frame : List Byte}
    (sent : encodeNewExtendedMiningJob msg = .ok frame) :
    ∀ sibling ∈ msg.merklePath, sibling.length = 32 := by
  intro sibling member
  obtain ⟨path, made⟩ := ok_of_encodeMessage sent
    (WriteBuf.seq0_255 msg.merklePath WriteBuf.u256) (by simp)
  obtain ⟨-, made⟩ := Machine.check_eq_ok_iff.mp made
  obtain ⟨bytes, written⟩ := Framing.ok_of_written made
    (List.mem_cons_of_mem _ (List.mem_map_of_mem member))
  exact length_of_u256 written

theorem hexToBytes_of_reversed {hex : JsString} {bytes : List Byte}
    (read : hexToReversedBytes hex = .ok bytes) :
    JsString.hexToBytes hex = .ok bytes.reverse := by
  rw [hexToReversedBytes] at read
  cases found : JsString.hexToBytes hex with
  | error thrown =>
    rw [found] at read
    cases read
  | ok forward =>
    rw [found] at read
    cases read
    rw [List.reverse_reverse]

/-- The pool's root is the fold over the path that is sent. -/
theorem computeMerkleRoot_path (hashes : Hashes) {branches : List JsString}
    {path : List (List Byte)} {cur : List Byte}
    (read : branches.mapM hexToReversedBytes = .ok path)
    (sized : ∀ sibling ∈ path, sibling.length = 32) (size : cur.length = 32) :
    let root := path.foldl
      (fun node sibling => hashes.sha256d (node ++ sibling)) cur
    computeMerkleRoot hashes cur branches = .ok root ∧ root.length = 32 := by
  induction branches generalizing path cur with
  | nil =>
    cases read
    exact ⟨rfl, size⟩
  | cons branch rest induction =>
    rw [List.mapM_cons] at read
    obtain ⟨sibling, first, read⟩ := Machine.bind_eq_ok_iff.mp read
    obtain ⟨others, later, read⟩ := Machine.bind_eq_ok_iff.mp read
    cases read
    rw [computeMerkleRoot, hexToBytes_of_reversed first]
    dsimp only [bind, Except.bind]
    rw [List.reverse_reverse, Stratum.combineBranch,
      sized sibling List.mem_cons_self, if_neg (by decide), Nat.sub_self,
      List.replicate_zero, List.append_nil]
    exact induction later
      (fun other inside => sized other (List.mem_cons_of_mem _ inside))
      (hashes.length_sha256d _)

theorem ofFrame_extended {msg : NewExtendedMiningJob} {wire : List Byte}
    (noTime : msg.minNtime = none)
    (sent : encodeNewExtendedMiningJob msg = .ok wire) :
    JobMessage.ofFrame wire = some (.extended { msg with
      channelId := (JsNumber.bits msg.channelId).toNat
      jobId := (JsNumber.bits msg.jobId).toNat
      version := (JsNumber.bits msg.version).toNat }) := by
  obtain ⟨channelId, jobId, minNtime, version, rolling, path, front, back⟩ :=
    msg
  cases noTime
  rw [JobMessage.ofFrame, show receive _ decodeNewExtendedMiningJob wire = _
    from receive_of_encodeMessage
    (carries_cons (carries_u32 channelId) <|
      carries_cons (carries_u32 jobId) <| carries_cons carries_noU32 <|
      carries_cons (carries_u32 version) <|
      carries_cons (carries_bool rolling) <|
      carries_cons (carries_listed carries_u256 1 "SEQ0_255" path) <|
      carries_cons (carries_sized 2 "B0_64K" front) <|
      carries_cons (carries_sized 2 "B0_64K" back) (carries_nil _))
    (by decide) sent]
  rfl

theorem ofFrame_standard {msg : NewMiningJob} {wire : List Byte}
    (noTime : msg.minNtime = none)
    (sent : encodeNewMiningJob msg = .ok wire) :
    JobMessage.ofFrame wire = some (.standard { msg with
      channelId := (JsNumber.bits msg.channelId).toNat
      jobId := (JsNumber.bits msg.jobId).toNat
      version := (JsNumber.bits msg.version).toNat }) := by
  obtain ⟨channelId, jobId, minNtime, version, root⟩ := msg
  cases noTime
  rw [JobMessage.ofFrame, receive_of_other (by decide) sent _ (by decide),
    show receive _ decodeNewMiningJob wire = _ from receive_of_encodeMessage
    (carries_cons (carries_u32 channelId) <|
      carries_cons (carries_u32 jobId) <| carries_cons carries_noU32 <|
      carries_cons (carries_u32 version) <|
      carries_cons (carries_u256 root) (carries_nil _))
    (by decide) sent]
  rfl

theorem receive_prevHash {msg : SetNewPrevHash} {wire : List Byte}
    (sent : encodeSetNewPrevHash msg = .ok wire) :
    receive msgSetNewPrevHash decodeSetNewPrevHash wire = some
      { channelId := (JsNumber.bits msg.channelId).toNat
        jobId := (JsNumber.bits msg.jobId).toNat
        prevHash := msg.prevHash
        minNtime := (JsNumber.bits msg.minNtime).toNat
        nbits := (JsNumber.bits msg.nbits).toNat } :=
  receive_of_encodeMessage
    (carries_cons (carries_u32 msg.channelId) <|
      carries_cons (carries_u32 msg.jobId) <|
      carries_cons (carries_u256 msg.prevHash) <|
      carries_cons (carries_u32 msg.minNtime) <|
      carries_cons (carries_u32 msg.nbits) (carries_nil _))
    (by decide) sent

/-- What the pool computes from the texts of a job is what the miner computes
from its frame. -/
theorem JobSent.root {hashes : Hashes} {ch : ChannelState} {job : StratumJob}
    {jobId : Nat} {jobFrame prevFrame : List Byte}
    (sent : JobSent hashes ch job jobId jobFrame prevFrame)
    {extranonce : List Byte}
    (sized : extranonce.length = ch.extranonceSize) :
    let full := ch.extranoncePrefix ++ extranonce
    ∃ message coinb1 coinb2, JobMessage.ofFrame jobFrame = some message ∧
      JsString.hexToBytes job.coinb1Hex = .ok coinb1 ∧
      JsString.hexToBytes job.coinb2Hex = .ok coinb2 ∧
      computeMerkleRoot hashes (hashes.sha256d (coinb1 ++ (full ++ coinb2)))
        job.merkleBranchesHexBE = .ok (message.root hashes full) ∧
      (message.root hashes full).length = 32 := by
  intro full
  rcases sent.built with extended | standard
  · obtain ⟨msg, built, encoded⟩ := Machine.bind_eq_ok_iff.mp extended
    obtain ⟨path, read, built⟩ := Machine.bind_eq_ok_iff.mp built
    obtain ⟨coinb1, first, built⟩ := Machine.bind_eq_ok_iff.mp built
    obtain ⟨coinb2, second, built⟩ := Machine.bind_eq_ok_iff.mp built
    cases built
    obtain ⟨folded, size⟩ := computeMerkleRoot_path hashes read
      (length_merklePath encoded) (hashes.length_sha256d _)
    exact ⟨_, coinb1, coinb2, ofFrame_extended rfl encoded, first, second,
      folded, size⟩
  · obtain ⟨msg, built, encoded⟩ := Machine.bind_eq_ok_iff.mp standard
    obtain ⟨en, filled, built⟩ := Machine.bind_eq_ok_iff.mp built
    obtain ⟨coinb1, first, built⟩ := Machine.bind_eq_ok_iff.mp built
    obtain ⟨coinb2, second, built⟩ := Machine.bind_eq_ok_iff.mp built
    obtain ⟨root, merkle, built⟩ := Machine.bind_eq_ok_iff.mp built
    cases built
    -- The root was sent with an empty extranonce, and no other one fits.
    obtain ⟨fixed, filled⟩ := Machine.check_eq_ok_iff.mp filled
    cases filled
    cases List.eq_nil_of_length_eq_zero
      (sized.trans (not_not.mp fixed).symm)
    obtain ⟨bytes, written⟩ := ok_of_encodeMessage encoded
      (WriteBuf.u256 root) (by simp)
    exact ⟨_, coinb1, coinb2, ofFrame_standard rfl encoded, first, second,
      merkle, length_of_u256 written⟩

/-! ## Both headers -/

theorem checkedHeader_eq {hashes : Hashes} {args : SubmitArgs}
    {coinb1 coinb2 root prevHash : List Byte}
    (sized : args.extranonce.length = args.channel.extranonceSize)
    (first : JsString.hexToBytes args.job.coinb1Hex = .ok coinb1)
    (second : JsString.hexToBytes args.job.coinb2Hex = .ok coinb2)
    (merkle : computeMerkleRoot hashes
      (hashes.sha256d (coinb1 ++ ((args.channel.extranoncePrefix ++
        args.extranonce) ++ coinb2))) args.job.merkleBranchesHexBE = .ok root)
    (rootSize : root.length = 32)
    (prev : JsString.hexToBytes args.job.prevHashHexBE = .ok prevHash.reverse)
    (prevSize : prevHash.length = 32) :
    checkedHeader hashes args =
      .ok (uint32LE args.job.version ++ (prevHash ++ (root ++
        (uint32LE args.ntime ++ (uint32LE args.job.bits ++
          uint32LE args.nonce))))) := by
  have full : fullExtranonce args.channel args.extranonce =
      .ok (args.channel.extranoncePrefix ++ args.extranonce) :=
    if_neg (not_not.mpr sized)
  rw [List.append_assoc] at merkle
  rw [checkedHeader, full]
  dsimp only [bind, Except.bind]
  rw [buildHeader]
  simp only [SubmitArgs.input, List.take_left, List.drop_left,
    JsString.hexToBytes_bytesToHex, first, second, merkle, prev, bind,
    Except.bind, Stratum.serializeHeader, List.length_reverse, rootSize,
    prevSize, ne_eq, not_true_eq_false, if_false, List.reverse_reverse]
  rfl

theorem minedHeader_eq {hashes : Hashes} {jobFrame prevFrame : List Byte}
    {message : JobMessage} {prev : SetNewPrevHash} (args : SubmitArgs)
    (received : JobMessage.ofFrame jobFrame = some message)
    (chained : receive msgSetNewPrevHash decodeSetNewPrevHash prevFrame =
      some prev) :
    minedHeader hashes jobFrame prevFrame args =
      some (uint32LE args.version ++ (prev.prevHash ++
        (message.root hashes
            (args.channel.extranoncePrefix ++ args.extranonce) ++
          (uint32LE args.ntime ++ (uint32LE prev.nbits ++
            uint32LE args.nonce))))) := by
  rw [minedHeader, received, chained]
  rfl

theorem uint32LE_bits (v : Int) :
    uint32LE ((JsNumber.bits v).toNat : Int) = uint32LE v := by
  rw [uint32LE, JsNumber.bits_natCast]
  rfl

/--
For every submission to a job that has been sent the pool builds a header, which
it hashes when it checks the share, and the miner makes one from the frames.
They are the same exactly if the submitted version is the version of the job.
-/
theorem checked_header_mined_iff {hashes : Hashes} {ch : ChannelState}
    {job : StratumJob} {jobId : Nat} {jobFrame prevFrame : List Byte}
    {args : SubmitArgs}
    (sent : JobSent hashes ch job jobId jobFrame prevFrame)
    (context : args.job = job.toJobContext)
    (channel : args.channel.extranoncePrefix = ch.extranoncePrefix)
    (sized : args.extranonce.length = args.channel.extranonceSize) :
    ∃ header mined, checkedHeader hashes args = .ok header ∧
      minedHeader hashes jobFrame prevFrame args = some mined ∧
      (∀ input check,
        processSubmit hashes args = .ok (.accepted input check) →
          check.serializedHeader = header) ∧
      (header = mined ↔
        JsNumber.bits args.version = JsNumber.bits job.version) := by
  have sizes : args.extranonce.length = ch.extranonceSize := by
    have filled := args.channel.filled
    have filledBefore := ch.filled
    rw [channel] at filled
    omega
  obtain ⟨message, coinb1, coinb2, received, first, second, merkle,
    rootSize⟩ := sent.root sizes
  obtain ⟨prev, chained, encoded⟩ := Machine.bind_eq_ok_iff.mp sent.chained
  obtain ⟨prevHash, read, chained⟩ := Machine.bind_eq_ok_iff.mp chained
  cases chained
  obtain ⟨bytes, written⟩ := ok_of_encodeMessage encoded
    (WriteBuf.u256 prevHash) (by simp)
  rw [← channel] at merkle rootSize
  have built : checkedHeader hashes args = _ := checkedHeader_eq sized
    (by rw [context]; exact first) (by rw [context]; exact second)
    (by rw [context]; exact merkle) rootSize
    (by rw [context]; exact hexToBytes_of_reversed read)
    (length_of_u256 written)
  refine ⟨_, _, built,
    minedHeader_eq args received (receive_prevHash encoded), fun input check accepted => ?_, ?_⟩
  · exact Except.ok.inj ((checkedHeader_of_accepted accepted).symm.trans built)
  · rw [context, uint32LE_bits]
    constructor
    · intro same
      obtain ⟨front, -⟩ := List.append_inj same (by simp [uint32LE])
      exact (Stratum.leBytes_word_injective front).symm
    · intro same
      have bytes : uint32LE args.version = uint32LE job.version :=
        congrArg (fun word : BitVec 32 => leBytes 4 word.toNat) same
      rw [bytes]

/-! ### A rolled version -/

/-- A channel on which seven bytes of the extranonce are rolled. -/
def rollingChannel : ChannelState :=
  ChannelTable.channelOf (drawingSetup fun _ => 0).randomness 0 1
    ⟨.extended, 0, [], 1, 1⟩ []

/-- The frames of `plainJob` on the channel. -/
def plainFrames : Option (List Byte × List Byte) :=
  match buildNewExtendedJob rollingChannel plainJob 1,
      buildSetNewPrevHash rollingChannel plainJob 1 with
  | .ok jobFrame, .ok prevFrame => some (jobFrame, prevFrame)
  | _, _ => none

/-- A submission with a version. -/
def rolledShare (version : Nat) : SubmitArgs where
  channel := rollingChannel
  job := Stratum.emptyJob
  sequenceNumber := 0
  nonce := 0
  ntime := 0
  version := version
  extranonce := List.replicate 7 0
  blockHeight := 1
  networkDifficulty := 1

/-- A share with the version of the job is checked as it was mined. -/
theorem job_version_checked :
    ∃ frames ∈ plainFrames, ∃ header,
      checkedHeader Stratum.constantHashes (rolledShare 0x20000000) =
          .ok header ∧
        minedHeader Stratum.constantHashes frames.1 frames.2
          (rolledShare 0x20000000) = some header := by
  have frames : plainFrames.isSome = true := by
    decide +kernel
  rw [plainFrames] at frames ⊢
  split at frames
  · next jobFrame prevFrame built chained =>
    obtain ⟨header, mined, checked, made, -, same⟩ :=
      checked_header_mined_iff
        (⟨.inl built, chained⟩ : JobSent Stratum.constantHashes _ _ _ _ _)
        (show (rolledShare 0x20000000).job = _ from rfl) rfl rfl
    rw [same.mpr (by decide)] at checked
    exact ⟨_, rfl, mined, checked, made⟩
  · cases frames

/-- A version that the job allows to roll is checked as another header. -/
theorem rolled_version_not_checked :
    ∃ frames ∈ plainFrames,
      (receive msgNewExtMiningJob decodeNewExtendedMiningJob
        frames.1).map (·.versionRollingAllowed) = some true ∧
      (minedHeader Stratum.constantHashes frames.1 frames.2
        (rolledShare 0x20002000)).isSome = true ∧
      (checkedHeader Stratum.constantHashes
        (rolledShare 0x20002000)).isOk = true ∧
      (checkedHeader Stratum.constantHashes
        (rolledShare 0x20002000)).toOption ≠
          minedHeader Stratum.constantHashes frames.1 frames.2
            (rolledShare 0x20002000) := by
  decide +kernel

end B3Chain.Sv2
