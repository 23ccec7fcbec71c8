import B3Chain.Machine.Throwing
import B3Chain.Words.JsString
import B3Chain.Words.LittleEndian

/-!
# Checking a share

A share is a job, the two extranonces, a time and a nonce.  The pool rebuilds
the coinbase and the 80 header bytes from them, hashes the header and compares
the hash with the share target and with the network target.  Bad hexadecimal
text in the coinbase or the branches makes the share invalid; elsewhere it is
thrown.
-/

namespace B3Chain.Stratum

open Words

/-- The hash functions; the proof-of-work hash is given as its integer. -/
structure Hashes where
  sha256d : List Byte → List Byte
  pow : List Byte → List Byte → Nat
  length_sha256d : ∀ bytes, (sha256d bytes).length = 32

/-- `JobContext`. -/
structure JobContext where
  jobId : JsString
  coinb1Hex : JsString
  coinb2Hex : JsString
  merkleBranchesHexBE : List JsString
  version : Int
  bits : Int
  prevHashHexBE : JsString
  networkTargetHexBE : JsString
  txnsHex : List JsString
  height : Int
  deriving DecidableEq

/-- `ShareInput`. -/
structure ShareInput where
  job : JobContext
  extranonce1Hex : JsString
  extranonce2Hex : JsString
  ntime : Int
  nonce : Int
  shareDifficulty : ℚ

/-! ## The header -/

/-- `uint32LE` and `int32LE`, which store the same bits. -/
def uint32LE (n : Int) : List Byte :=
  leBytes 4 (JsNumber.bits n).toNat

/-- `serializeHeader`. -/
def serializeHeader (version : Int) (prevHashHexBE merkleRootHexBE : JsString)
    (ntime bits nonce : Int) : Except String (List Byte) := do
  let prev ← JsString.hexToBytes prevHashHexBE
  let merkle ← JsString.hexToBytes merkleRootHexBE
  if prev.length ≠ 32 then .error "prevHash must be 32 bytes"
  else if merkle.length ≠ 32 then .error "merkleRoot must be 32 bytes"
  else
    .ok (uint32LE version ++ (prev.reverse ++ (merkle.reverse ++
      (uint32LE ntime ++ (uint32LE bits ++ uint32LE nonce)))))

section

variable (hashes : Hashes)

/--
One level of `computeMerkleRoot`: the branch is copied into the second half of
a buffer of 64 bytes.
-/
def combineBranch (cur branch : List Byte) : Except String (List Byte) :=
  if 32 < branch.length then .error "offset is out of bounds"
  else
    .ok (hashes.sha256d
      (cur ++ branch ++ List.replicate (32 - branch.length) 0))

/-- `computeMerkleRoot`. -/
def computeMerkleRoot : List Byte → List JsString → Except String (List Byte)
  | cur, [] => .ok cur
  | cur, branch :: rest => do
      let branchBE ← JsString.hexToBytes branch
      let next ← combineBranch hashes cur branchBE.reverse
      computeMerkleRoot next rest

/-- What `buildHeader` returns. -/
structure BuiltHeader where
  header : List Byte
  coinbase : List Byte
  prevHashLE : List Byte

/-- `buildHeader`. -/
def buildHeader (s : ShareInput) : Except String BuiltHeader := do
  let coinb1 ← JsString.hexToBytes s.job.coinb1Hex
  let en1 ← JsString.hexToBytes s.extranonce1Hex
  let en2 ← JsString.hexToBytes s.extranonce2Hex
  let coinb2 ← JsString.hexToBytes s.job.coinb2Hex
  let coinbase := coinb1 ++ (en1 ++ (en2 ++ coinb2))
  let merkleRoot ← computeMerkleRoot hashes (hashes.sha256d coinbase)
    s.job.merkleBranchesHexBE
  let prevHashBE ← JsString.hexToBytes s.job.prevHashHexBE
  let header ← serializeHeader s.job.version s.job.prevHashHexBE
    (JsString.bytesToHex merkleRoot.reverse) s.ntime s.job.bits s.nonce
  return { header, coinbase, prevHashLE := prevHashBE.reverse }

end

/-! ## What a header commits to -/

/-- The bytes of a job and an extranonce that a header stands for. -/
structure Work where
  version : BitVec 32
  prevHash : List Byte
  bits : BitVec 32
  coinbase : List Byte
  branches : List (List Byte)
  deriving DecidableEq

/-- The work of a share, if its texts can be read. -/
def ShareInput.work (s : ShareInput) : Except String Work := do
  let coinb1 ← JsString.hexToBytes s.job.coinb1Hex
  let en1 ← JsString.hexToBytes s.extranonce1Hex
  let en2 ← JsString.hexToBytes s.extranonce2Hex
  let coinb2 ← JsString.hexToBytes s.job.coinb2Hex
  let branches ← s.job.merkleBranchesHexBE.mapM JsString.hexToBytes
  let prevHashBE ← JsString.hexToBytes s.job.prevHashHexBE
  .ok
    { version := JsNumber.bits s.job.version
      prevHash := prevHashBE.reverse
      bits := JsNumber.bits s.job.bits
      coinbase := coinb1 ++ (en1 ++ (en2 ++ coinb2))
      branches := branches.map List.reverse }

/-- The merkle root of the work. -/
def Work.root (hashes : Hashes) (work : Work) : Except String (List Byte) :=
  work.branches.foldlM (combineBranch hashes) (hashes.sha256d work.coinbase)

/-- The header of the work at a time and a nonce. -/
def Work.header (work : Work) (root : List Byte) (ntime nonce : BitVec 32) :
    List Byte :=
  leBytes 4 work.version.toNat ++ (work.prevHash ++ (root ++
    (leBytes 4 ntime.toNat ++ (leBytes 4 work.bits.toNat ++
      leBytes 4 nonce.toNat))))

/-- The merkle roots of two shares agree only if what they are made of does. -/
def Uncollided (hashes : Hashes) (s t : ShareInput) : Prop :=
  ∀ first second, s.work = .ok first → t.work = .ok second →
    first.root hashes = second.root hashes →
      first.coinbase = second.coinbase ∧ first.branches = second.branches

theorem leBytes_word_injective {left right : BitVec 32}
    (same : leBytes 4 left.toNat = leBytes 4 right.toNat) : left = right :=
  BitVec.eq_of_toNat_eq (leBytes_injective left.isLt right.isLt same)

/-- A header determines its fields. -/
theorem Work.header_injective {first second : Work}
    {root other : List Byte} {ntime later nonce next : BitVec 32}
    (prevSize : first.prevHash.length = second.prevHash.length)
    (rootSize : root.length = other.length)
    (same : first.header root ntime nonce = second.header other later next) :
    first.version = second.version ∧ first.prevHash = second.prevHash ∧
      root = other ∧ ntime = later ∧ first.bits = second.bits ∧
        nonce = next := by
  rw [Work.header, Work.header] at same
  obtain ⟨version, same⟩ := List.append_inj same (by simp)
  obtain ⟨prevHash, same⟩ := List.append_inj same prevSize
  obtain ⟨roots, same⟩ := List.append_inj same rootSize
  obtain ⟨times, same⟩ := List.append_inj same (by simp)
  obtain ⟨bits, nonces⟩ := List.append_inj same (by simp)
  exact ⟨leBytes_word_injective version, prevHash, roots,
    leBytes_word_injective times, leBytes_word_injective bits,
    leBytes_word_injective nonces⟩

theorem computeMerkleRoot_eq (hashes : Hashes) (cur : List Byte)
    (branches : List JsString) {root : List Byte}
    (computed : computeMerkleRoot hashes cur branches = .ok root) :
    ∃ bytes, branches.mapM JsString.hexToBytes = .ok bytes ∧
      (bytes.map List.reverse).foldlM (combineBranch hashes) cur =
        .ok root := by
  induction branches generalizing cur with
  | nil => exact ⟨[], rfl, computed⟩
  | cons branch rest induction =>
    rw [computeMerkleRoot] at computed
    obtain ⟨first, read, later⟩ := Machine.bind_eq_ok_iff.mp computed
    obtain ⟨next, combined, last⟩ := Machine.bind_eq_ok_iff.mp later
    obtain ⟨bytes, others, folded⟩ := induction next last
    refine ⟨first :: bytes, ?_, ?_⟩
    · rw [List.mapM_cons, read, others]
      rfl
    · rw [List.map_cons, List.foldlM_cons, combined]
      exact folded

theorem serializeHeader_ok {version : Int} {prevHashHexBE : JsString}
    {root : List Byte} {ntime bits nonce : Int} {header : List Byte}
    (done : serializeHeader version prevHashHexBE
      (JsString.bytesToHex root.reverse) ntime bits nonce = .ok header) :
    ∃ prev, JsString.hexToBytes prevHashHexBE = .ok prev ∧
      prev.length = 32 ∧ root.length = 32 ∧
        header = uint32LE version ++ (prev.reverse ++ (root ++
          (uint32LE ntime ++ (uint32LE bits ++ uint32LE nonce)))) := by
  rw [serializeHeader] at done
  obtain ⟨prev, read, later⟩ := Machine.bind_eq_ok_iff.mp done
  rw [JsString.hexToBytes_bytesToHex] at later
  obtain ⟨merkle, found, checked⟩ := Machine.bind_eq_ok_iff.mp later
  cases found
  obtain ⟨prevSize, more⟩ := Machine.check_eq_ok_iff.mp checked
  obtain ⟨rootSize, written⟩ := Machine.check_eq_ok_iff.mp more
  cases written
  rw [List.length_reverse] at rootSize
  refine ⟨prev, read, not_not.mp prevSize, not_not.mp rootSize, ?_⟩
  rw [List.reverse_reverse]

/-- A header that was built is the header of its work. -/
theorem buildHeader_ok {hashes : Hashes} {s : ShareInput}
    {built : BuiltHeader} (done : buildHeader hashes s = .ok built) :
    ∃ work root, s.work = .ok work ∧ work.root hashes = .ok root ∧
      built.header =
        work.header root (JsNumber.bits s.ntime) (JsNumber.bits s.nonce) ∧
          work.prevHash.length = 32 ∧ root.length = 32 := by
  rw [buildHeader] at done
  obtain ⟨coinb1, first, done⟩ := Machine.bind_eq_ok_iff.mp done
  obtain ⟨en1, second, done⟩ := Machine.bind_eq_ok_iff.mp done
  obtain ⟨en2, third, done⟩ := Machine.bind_eq_ok_iff.mp done
  obtain ⟨coinb2, fourth, done⟩ := Machine.bind_eq_ok_iff.mp done
  obtain ⟨root, merkle, done⟩ := Machine.bind_eq_ok_iff.mp done
  obtain ⟨prevHashBE, prevRead, done⟩ := Machine.bind_eq_ok_iff.mp done
  obtain ⟨header, serialized, done⟩ := Machine.bind_eq_ok_iff.mp done
  obtain ⟨branches, read, folded⟩ := computeMerkleRoot_eq hashes _ _ merkle
  obtain ⟨prev, found, prevSize, rootSize, written⟩ :=
    serializeHeader_ok serialized
  cases prevRead.symm.trans found
  cases done
  refine ⟨
    { version := JsNumber.bits s.job.version
      prevHash := prevHashBE.reverse
      bits := JsNumber.bits s.job.bits
      coinbase := coinb1 ++ (en1 ++ (en2 ++ coinb2))
      branches := branches.map List.reverse },
    root, ?_, folded, written, ?_, rootSize⟩
  · rw [ShareInput.work, first, second, third, fourth, read, prevRead]
    rfl
  · exact (List.length_reverse).trans prevSize

/-- Equal headers are of equal work, time and nonce. -/
theorem buildHeader_determines {hashes : Hashes} {s t : ShareInput}
    {left right : BuiltHeader} (first : buildHeader hashes s = .ok left)
    (second : buildHeader hashes t = .ok right)
    (uncollided : Uncollided hashes s t)
    (same : left.header = right.header) :
    s.work = t.work ∧ JsNumber.bits s.ntime = JsNumber.bits t.ntime ∧
      JsNumber.bits s.nonce = JsNumber.bits t.nonce := by
  obtain ⟨work, root, read, folded, written, prevSize, rootSize⟩ :=
    buildHeader_ok first
  obtain ⟨other, otherRoot, otherRead, otherFolded, otherWritten,
    otherPrevSize, otherRootSize⟩ := buildHeader_ok second
  rw [written, otherWritten] at same
  obtain ⟨version, prevHash, roots, times, bits, nonces⟩ :=
    Work.header_injective (prevSize.trans otherPrevSize.symm)
      (rootSize.trans otherRootSize.symm) same
  obtain ⟨coinbase, branches⟩ := uncollided work other read otherRead
    (folded.trans ((congrArg _ roots).trans otherFolded.symm))
  refine ⟨?_, times, nonces⟩
  rw [read, otherRead]
  congr 1
  cases work
  cases other
  cases version
  cases prevHash
  cases bits
  cases coinbase
  cases branches
  rfl

/-! ## Targets -/

/-- `POOL_DIFF1_TARGET`. -/
def poolDiff1Target : Nat := 0xffff * 2 ^ 208

/-- `targetFromShareDifficulty`; the smallest difficulty and the product are
rounded as given. -/
def targetRounding (round : ℚ → ℚ) (shareDiff : ℚ) : Except String Nat :=
  if shareDiff ≤ 0 then .error "share diff must be a finite number > 0"
  else if shareDiff < round (1 / 1000000) then
    .error "share diff is below the smallest one"
  else
    let scaledDiff := ⌊round (shareDiff * 1000000) + 1 / 2⌋
    if scaledDiff ≤ 0 then .error "share diff failed fixed-point conversion"
    else .ok (poolDiff1Target * 1000000 / scaledDiff.toNat)

/-- `targetFromShareDifficulty`, with the product taken exactly. -/
def targetFromShareDifficulty (shareDiff : ℚ) : Except String Nat :=
  targetRounding id shareDiff

/-! ## The check -/

/-- Why a share is turned down. -/
inductive RejectReason
  | lowDiff
  | invalid
  deriving DecidableEq, Repr

/-- What an accepted share carries. -/
structure ShareCheckOk where
  isBlock : Bool
  meetsShare : Bool
  blockHashHexBE : JsString
  serializedHeader : List Byte
  serializedBlockHex : Option JsString

/-- `ShareCheck`. -/
inductive ShareCheck
  | ok (check : ShareCheckOk)
  | fail (reason : RejectReason)

/-- `varInt`. -/
def varInt (n : Nat) : List Byte :=
  if n < 0xfd then leBytes 1 n
  else if n ≤ 0xffff then 0xfd :: leBytes 2 n
  else if n ≤ 0xffffffff then 0xfe :: leBytes 4 n
  else 0xff :: leBytes 8 n

/-- `serializeBlockHex`. -/
def serializeBlockHex (header : List Byte) (txns : List (List Byte)) :
    JsString :=
  JsString.bytesToHex (header ++ varInt txns.length ++ txns.flatten)

/-- `classifyCandidate`: a block or not and a share or not; `none` is low. -/
def classifyCandidate (powInt shareTarget networkTarget : Nat) :
    Option (Bool × Bool) :=
  if ¬ powInt ≤ shareTarget ∧ ¬ powInt ≤ networkTarget then none
  else some (decide (powInt ≤ networkTarget), decide (powInt ≤ shareTarget))

/-- The block to submit, if the share is one. -/
def blockText (s : ShareInput) (built : BuiltHeader) :
    Bool → Except String (Option JsString)
  | false => .ok none
  | true => do
      let txns ← s.job.txnsHex.mapM JsString.hexToBytes
      .ok (some (serializeBlockHex built.header (built.coinbase :: txns)))

/-- `validateShare` from the header on. -/
def judgeHeader (hashes : Hashes) (s : ShareInput) (built : BuiltHeader) :
    Except String ShareCheck := do
  let targetBE ← JsString.hexToBytes s.job.networkTargetHexBE
  let shareTarget ← targetFromShareDifficulty s.shareDifficulty
  match classifyCandidate (hashes.pow built.header built.prevHashLE)
      shareTarget (leValue targetBE.reverse) with
  | none => .ok (.fail .lowDiff)
  | some (isBlock, meetsShare) => do
      let serializedBlockHex ← blockText s built isBlock
      .ok (.ok
        { isBlock, meetsShare,
          blockHashHexBE :=
            JsString.bytesToHex (hashes.sha256d built.header).reverse,
          serializedHeader := built.header, serializedBlockHex })

/-- `validateShare`; what stands after the header is built may throw. -/
def validateShare (hashes : Hashes) (s : ShareInput) :
    Except String ShareCheck :=
  match buildHeader hashes s with
  | .error _ => .ok (.fail .invalid)
  | .ok built => judgeHeader hashes s built

theorem header_of_judgeHeader {hashes : Hashes} {s : ShareInput}
    {built : BuiltHeader} {check : ShareCheckOk}
    (accepted : judgeHeader hashes s built = .ok (.ok check)) :
    check.serializedHeader = built.header := by
  rw [judgeHeader] at accepted
  obtain ⟨targetBE, -, accepted⟩ := Machine.bind_eq_ok_iff.mp accepted
  obtain ⟨shareTarget, -, accepted⟩ := Machine.bind_eq_ok_iff.mp accepted
  split at accepted
  · cases accepted
  · obtain ⟨block, -, accepted⟩ := Machine.bind_eq_ok_iff.mp accepted
    cases accepted
    rfl

/-- An accepted share carries the header that was built for it. -/
theorem buildHeader_of_validateShare {hashes : Hashes} {s : ShareInput}
    {check : ShareCheckOk} (accepted : validateShare hashes s = .ok (.ok check)) :
    ∃ built, buildHeader hashes s = .ok built ∧
      check.serializedHeader = built.header := by
  rw [validateShare] at accepted
  cases built : buildHeader hashes s with
  | error thrown =>
    rw [built] at accepted
    cases accepted
  | ok header =>
    rw [built] at accepted
    exact ⟨header, rfl, header_of_judgeHeader accepted⟩

/-- Shares that are both accepted with one header are the same attempt. -/
theorem validateShare_determines {hashes : Hashes} {s t : ShareInput}
    {left right : ShareCheckOk}
    (first : validateShare hashes s = .ok (.ok left))
    (second : validateShare hashes t = .ok (.ok right))
    (uncollided : Uncollided hashes s t)
    (same : left.serializedHeader = right.serializedHeader) :
    s.work = t.work ∧ JsNumber.bits s.ntime = JsNumber.bits t.ntime ∧
      JsNumber.bits s.nonce = JsNumber.bits t.nonce := by
  obtain ⟨built, made, header⟩ := buildHeader_of_validateShare first
  obtain ⟨other, otherMade, otherHeader⟩ := buildHeader_of_validateShare second
  exact buildHeader_determines made otherMade uncollided
    (header.symm.trans (same.trans otherHeader))

end B3Chain.Stratum
