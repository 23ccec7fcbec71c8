import B3Chain.Machine.Tables
import B3Chain.Stratum.Client

/-!
# Jobs made from block templates

The job manager polls the node for block templates.  A template that differs
from the last one only in its time is broadcast again under the same job; any
other template becomes a new job.  The jobs built last can be looked up by
their ids, and the oldest is dropped once there are more than `maxJobs`.
-/

namespace B3Chain.Stratum

open Words
open Machine (setEntry)

/-! ## Templates -/

/-- A transaction of a template. -/
structure TemplateTransaction where
  data : JsString
  hash : JsString
  txid : Option JsString

/-- `BlockTemplate`; the node writes `bits` as eight digits. -/
structure Template where
  version : Int
  previousblockhash : JsString
  transactions : List TemplateTransaction
  coinbasevalue : Int
  target : JsString
  mintime : Int
  curtime : Int
  bits : JsString
  nBits : Int
  height : Int
  defaultWitnessCommitment : Option JsString
  bits_read : JsString.parseInt bits = some nBits

/-- The decimal text of an integer. -/
def numberText (n : Int) : JsString :=
  JsString.ofString (toString n)

/-- `workSignature`. -/
def workSignature (tpl : Template) : JsString :=
  tpl.previousblockhash ++ JsString.ofString "|" ++
    numberText tpl.transactions.length ++ JsString.ofString "|" ++
      tpl.bits ++ JsString.ofString "|" ++ numberText tpl.version

/-- `cleanJobsFor`. -/
def cleanJobsFor (lastPrev nextPrev : JsString) : Bool :=
  lastPrev ≠ nextPrev

/-! ## The coinbase -/

/-- The bytes of a positive height, lowest first; `>>>` keeps 32 bits. -/
def heightBytes : Nat → Nat → List Byte
  | 0, _ => []
  | rounds + 1, abs =>
    if abs = 0 then []
    else BitVec.ofNat 8 abs :: heightBytes rounds (abs % 2 ^ 32 / 256)

/-- The sign bit of a script number, in a byte of its own if it has to be. -/
def signed (negative : Bool) : List Byte → List Byte
  | [] => []
  | [last] =>
    if last &&& 0x80 ≠ 0 then [last, if negative then 0x80 else 0]
    else if negative then [last ||| 0x80]
    else [last]
  | byte :: next :: rest => byte :: signed negative (next :: rest)

/-- `scriptNumPush`; after the first round at most three more are left. -/
def scriptNumPush (n : Int) : List Byte :=
  if n = 0 then [0]
  else
    let bytes := signed (n < 0) (heightBytes 5 n.natAbs)
    BitVec.ofNat 8 bytes.length :: bytes

/-- `new TextEncoder().encode("/B3Chain Pool/")`. -/
def poolTag : List Byte :=
  "/B3Chain Pool/".toList.map fun letter => BitVec.ofNat 8 letter.toNat

/-- The pool's tag, pushed to the script. -/
def tagPush : List Byte :=
  BitVec.ofNat 8 poolTag.length :: poolTag

/-- An output of the coinbase. -/
def coinbaseOutput (value : Int) (script : List Byte) : List Byte :=
  leBytes 8 (value % 2 ^ 64).toNat ++ varInt script.length ++ script

/-- The outputs of the coinbase. -/
def coinbaseOutputs (tpl : Template) (spk : List Byte) :
    Except String (List (List Byte)) :=
  match tpl.defaultWitnessCommitment with
  | none => .ok [coinbaseOutput tpl.coinbasevalue spk]
  | some [] => .ok [coinbaseOutput tpl.coinbasevalue spk]
  | some commitment => do
      let script ← JsString.hexToBytes commitment
      return [coinbaseOutput tpl.coinbasevalue spk, coinbaseOutput 0 script]

/-- `buildCoinbase`: the halves around the eight bytes of the extranonce. -/
def buildCoinbase (tpl : Template) (payoutScript : Option (List Byte)) :
    Except String (JsString × JsString) :=
  match payoutScript with
  | none => .error "B3POOL_PAYOUT_ADDRESS is not a valid bech32 address"
  | some spk => do
      let heightPush := scriptNumPush tpl.height
      let scriptLength := heightPush.length + 8 + tagPush.length
      if 100 < scriptLength then .error "coinbase scriptSig > 100 bytes"
      else
        let vouts ← coinbaseOutputs tpl spk
        let prevout := List.replicate 32 0 ++ List.replicate 4 0xff
        let coinb1 := leBytes 4 1 ++ [1] ++ prevout ++
          varInt scriptLength ++ heightPush
        let coinb2 := tagPush ++ List.replicate 4 0xff ++
          leBytes 1 vouts.length ++ vouts.flatten ++ leBytes 4 0
        return (JsString.bytesToHex coinb1, JsString.bytesToHex coinb2)

/-! ## The merkle branches -/

/-- `buf.set(bytes, offset)` of a typed array. -/
def setBytes (buf : List Byte) (offset : Nat) (bytes : List Byte) :
    Except String (List Byte) :=
  if buf.length < offset + bytes.length then
    .error "offset is out of bounds"
  else
    .ok (buf.take offset ++ bytes ++ buf.drop (offset + bytes.length))

/-- `combineHashesBE`. -/
def combineHashesBE (hashes : Hashes) (aBE bBE : JsString) :
    Except String JsString := do
  let a ← JsString.hexToBytes aBE
  let b ← JsString.hexToBytes bBE
  let left ← setBytes (List.replicate 64 0) 0 a.reverse
  let concat ← setBytes left 32 b.reverse
  return JsString.bytesToHex (hashes.sha256d concat).reverse

/-- The hashes of consecutive pairs; a last one is paired with itself. -/
def combinePairs (hashes : Hashes) :
    List JsString → Except String (List JsString)
  | [] => .ok []
  | [left] => do
      let hash ← combineHashesBE hashes left left
      return [hash]
  | left :: right :: rest => do
      let hash ← combineHashesBE hashes left right
      let others ← combinePairs hashes rest
      return hash :: others

/-- The branches of the levels; a level is given without the coinbase. -/
def branchLevels (hashes : Hashes) :
    Nat → List JsString → Except String (List JsString)
  | 0, _ => .ok []
  | _ + 1, [] => .ok []
  | rounds + 1, sibling :: rest => do
      let next ← combinePairs hashes rest
      let branches ← branchLevels hashes rounds next
      return sibling :: branches

/-- `computeMerkleBranches`; each level is shorter than the one before. -/
def computeMerkleBranches (hashes : Hashes) (txids : List JsString) :
    Except String (List JsString) :=
  branchLevels hashes txids.length txids

/-! ## Jobs -/

/-- The count after which job ids repeat. -/
def jobIdCycle : Nat := 0xfffffff

/-- The lowest `count` hexadecimal digits of a number, highest first. -/
def hexDigits : Nat → Nat → JsString
  | 0, _ => []
  | count + 1, n => hexDigits count (n / 16) ++ [JsString.digitUnit (n % 16)]

/-- `jobCounter.toString(16).padStart(7, "0")`; the counter has seven digits. -/
def jobIdText (counter : Nat) : JsString :=
  hexDigits 7 counter

/-- What is fixed while jobs are made. -/
structure JobSetup where
  hashes : Hashes
  payoutScript : Option (List Byte)

/-- `maxJobs`. -/
def maxJobs : Nat := 32

/-- `JobManager`, with the counter of its module. -/
structure JobManager where
  lastTemplateHash : JsString
  lastWorkSig : JsString
  lastPrev : JsString
  currentJob : Option StratumJob
  jobsById : List (JsString × StratumJob)
  jobCounter : Nat

/-- What a poll led to. -/
inductive Polled
  | unchanged
  | again (job : StratumJob)
  | built (job : StratumJob)
  | failed (message : String)

/-- The job that is broadcast. -/
def Polled.emitted : Polled → Option StratumJob
  | .again job => some job
  | .built job => some job
  | _ => none

/-- The oldest entry goes once there are too many. -/
def trimmed (table : List (JsString × StratumJob)) :
    List (JsString × StratumJob) :=
  if maxJobs < table.length then table.tail else table

namespace JobManager

/-- The job manager at its start. -/
def started : JobManager where
  lastTemplateHash := []
  lastWorkSig := []
  lastPrev := []
  currentJob := none
  jobsById := []
  jobCounter := 0

/-- `getById`. -/
def getById (manager : JobManager) (id : JsString) : Option StratumJob :=
  manager.jobsById.lookup id

/-- `buildJob`. -/
def buildJob (config : JobSetup) (manager : JobManager) (tpl : Template)
    (cleanJobs : Bool) : Except String StratumJob := do
  let (coinb1Hex, coinb2Hex) ← buildCoinbase tpl config.payoutScript
  let branches ← computeMerkleBranches config.hashes
    (tpl.transactions.map fun tx => tx.txid.getD tx.hash)
  return {
    jobId := jobIdText ((manager.jobCounter + 1) % jobIdCycle)
    coinb1Hex
    coinb2Hex
    merkleBranchesHexBE := branches
    version := tpl.version
    bits := tpl.nBits
    prevHashHexBE := tpl.previousblockhash
    networkTargetHexBE := tpl.target
    txnsHex := tpl.transactions.map TemplateTransaction.data
    height := tpl.height
    cleanJobs
    ntimeMin := tpl.mintime
    ntimeRoll := tpl.curtime }

/-- The job that is broadcast again is the one in the table. -/
def rolled (manager : JobManager) (job : StratumJob) (curtime : Int) :
    StratumJob × JobManager :=
  let again := { job with ntimeRoll := curtime, cleanJobs := false }
  (again, { manager with
    currentJob := some again
    jobsById := manager.jobsById.map fun entry =>
      if entry.1 = job.jobId then (entry.1, again) else entry })

/-- A new job is kept and broadcast. -/
def kept (manager : JobManager) (job : StratumJob) : JobManager :=
  { manager with
    currentJob := some job
    jobsById := trimmed (setEntry manager.jobsById job.jobId job)
    jobCounter := (manager.jobCounter + 1) % jobIdCycle }

/-- `poll` for a template that is to become a new job. -/
def build (config : JobSetup) (manager : JobManager) (tpl : Template)
    (timeSig : JsString) : Polled × JobManager :=
  let clean := cleanJobsFor manager.lastPrev tpl.previousblockhash
  let noted := { manager with
    lastTemplateHash := timeSig
    lastWorkSig := workSignature tpl
    lastPrev := tpl.previousblockhash }
  match noted.buildJob config tpl clean with
  | .error message => (.failed message, noted)
  | .ok job => (.built job, noted.kept job)

/-- `poll` once the template is there. -/
def poll (config : JobSetup) (manager : JobManager) (tpl : Template) :
    Polled × JobManager :=
  let workSig := workSignature tpl
  let timeSig := workSig ++ JsString.ofString "|" ++ numberText tpl.curtime
  match manager.currentJob with
  | none => manager.build config tpl timeSig
  | some job =>
    if timeSig = manager.lastTemplateHash then (.unchanged, manager)
    else if ¬ cleanJobsFor manager.lastPrev tpl.previousblockhash ∧
        workSig = manager.lastWorkSig then
      let (again, rolled) := manager.rolled job tpl.curtime
      (.again again, { rolled with lastTemplateHash := timeSig })
    else manager.build config tpl timeSig

end JobManager

/-! ## Ids -/

theorem digitUnit_injective {left right : Nat} (leftDigit : left < 16)
    (rightDigit : right < 16)
    (same : JsString.digitUnit left = JsString.digitUnit right) :
    left = right := by
  revert same
  interval_cases left <;> interval_cases right <;> decide

theorem hexDigits_injective (count : Nat) {left right : Nat}
    (same : hexDigits count left = hexDigits count right) :
    left % 16 ^ count = right % 16 ^ count := by
  induction count generalizing left right with
  | zero => rw [pow_zero, Nat.mod_one, Nat.mod_one]
  | succ count induction =>
    obtain ⟨high, low⟩ := List.append_inj' same rfl
    have digits := digitUnit_injective (Nat.mod_lt _ (by decide))
      (Nat.mod_lt _ (by decide)) (List.cons.inj low).1
    rw [pow_succ', Nat.mod_mul, Nat.mod_mul, digits, induction high]

/-- Different counters have different ids. -/
theorem jobIdText_injective {left right : Nat} (leftFits : left < jobIdCycle)
    (rightFits : right < jobIdCycle)
    (same : jobIdText left = jobIdText right) : left = right := by
  have values := hexDigits_injective 7 same
  have cycle : jobIdCycle < 16 ^ 7 := by decide
  rwa [Nat.mod_eq_of_lt (leftFits.trans cycle),
    Nat.mod_eq_of_lt (rightFits.trans cycle)] at values

end B3Chain.Stratum
