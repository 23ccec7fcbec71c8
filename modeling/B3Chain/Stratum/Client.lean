import B3Chain.Stratum.Json
import B3Chain.Stratum.Submit
import B3Chain.Words.Double

/-!
# A connection of the Stratum V1 server

The state of one miner's connection: what it subscribed and was authorized as,
its difficulty, the difficulty each job was stamped with, its device key and
the messages written to its socket.
-/

namespace B3Chain.Stratum

open Words

/-- `StratumJob`. -/
structure StratumJob extends JobContext where
  cleanJobs : Bool
  ntimeMin : Int
  ntimeRoll : Int
  deriving DecidableEq

/-! ## Difficulties -/

/-- `targetFromBits`. -/
def targetFromBits (bits : Int) : Nat :=
  let word := JsNumber.bits bits
  let exp := (word >>> 24).toNat
  let mant := (word &&& 0x007fffff).toNat
  if exp ≤ 3 then mant >>> (8 * (3 - exp)) else mant <<< (8 * (exp - 3))

/-- `networkDifficultyFromBits`. -/
def networkDifficultyFromBits (bits : Int) : ℚ :=
  let target := targetFromBits bits
  if target = 0 then 2 ^ 53 - 1
  else Double.nearest
    (JsNumber.roundDouble (poolDiff1Target * 10000000 / target : Nat) /
      10000000)

/-- `assignedShareDifficulty`. -/
def assignedShareDifficulty (configured : ℚ) (network : Option ℚ) : ℚ :=
  match network with
  | none => configured
  | some difficulty =>
    if difficulty ≤ 0 then configured
    else if configured ≤ 0 then difficulty
    else min configured difficulty

/-- `MIN_SHARE_DIFFICULTY`, as it is written. -/
def minShareDifficulty : ℚ := 1 / 1000000

/-- `VardiffParams`. -/
structure VardiffParams where
  targetSeconds : ℚ
  retuneSeconds : ℚ
  minDiff : ℚ
  maxDiff : ℚ
  initialDiff : ℚ
  maxStep : ℚ

/-- `Vardiff`; times are in milliseconds. -/
structure Vardiff where
  currentDiff : ℚ
  windowStart : Int
  sharesInWindow : Nat

namespace Vardiff

/-- A connection's difficulty at its start. -/
def new (params : VardiffParams) (now : Int) : Vardiff where
  currentDiff := params.initialDiff
  windowStart := now
  sharesInWindow := 0

/-- `onShareAccepted`. -/
def onShareAccepted (vardiff : Vardiff) : Vardiff :=
  { vardiff with sharesInWindow := vardiff.sharesInWindow + 1 }

/-- `setDiff`: the difficulty that was set, or the text of the error. -/
def setDiff (runtime : Runtime) (params : VardiffParams) (now : Int)
    (next : Numeric) : Except JsString (ℚ × Vardiff) :=
  match next with
  | .finite value =>
    if value ≤ 0 then .error (notPositive next)
    else if value < params.minDiff ∨ params.maxDiff < value then
      .error (JsString.ofString "difficulty " ++ runtime.numberText next ++
        JsString.ofString " outside [" ++
        runtime.numberText (.finite params.minDiff) ++
        JsString.ofString ", " ++
        runtime.numberText (.finite params.maxDiff) ++
        JsString.ofString "]")
    else
      .ok (value,
        { currentDiff := value, windowStart := now, sharesInWindow := 0 })
  | _ => .error (notPositive next)
where
  notPositive (next : Numeric) : JsString :=
    JsString.ofString "difficulty must be finite and > 0, got " ++
      runtime.numberText next

/-- The observed interval of `maybeRetune`. -/
def observedInterval (vardiff : Vardiff) (elapsed : ℚ) : ℚ :=
  if 0 < vardiff.sharesInWindow then
    Double.nearest (elapsed / vardiff.sharesInWindow)
  else elapsed

/-- Above 1 if shares are too frequent. -/
def ratio (params : VardiffParams) (vardiff : Vardiff) (elapsed : ℚ) : ℚ :=
  if 0 < params.targetSeconds then
    if 0 < vardiff.observedInterval elapsed then
      Double.nearest
        (params.targetSeconds / vardiff.observedInterval elapsed)
    else 1
  else 1

/-- The ratio, clamped to the largest step. -/
def multiplier (params : VardiffParams) (vardiff : Vardiff) (elapsed : ℚ) :
    ℚ :=
  max (min (vardiff.ratio params elapsed) params.maxStep)
    (Double.nearest (1 / params.maxStep))

/-- The difficulty a retune would set, before the 10 % rule. -/
def retuned (params : VardiffParams) (vardiff : Vardiff) (elapsed : ℚ) : ℚ :=
  min (max (Double.nearest
    (vardiff.currentDiff * vardiff.multiplier params elapsed))
      params.minDiff) params.maxDiff

/-- A change of less than 10 %. -/
def Slight (current next : ℚ) : Prop :=
  Double.nearest (|Double.nearest (next - current)| / current) <
    Double.nearest (1 / 10)

instance decidableSlight (current next : ℚ) :
    Decidable (Slight current next) :=
  inferInstanceAs (Decidable (_ < _))

/-- The age of the window in seconds. -/
def age (vardiff : Vardiff) (now : Int) : ℚ :=
  Double.nearest ((now - vardiff.windowStart : Int) / 1000)

/-- `maybeRetune`: the new difficulty, if it is to be announced. -/
def maybeRetune (params : VardiffParams) (now : Int) (vardiff : Vardiff) :
    Option ℚ × Vardiff :=
  let elapsed := vardiff.age now
  if elapsed < params.retuneSeconds then (none, vardiff)
  else if vardiff.sharesInWindow = 0 ∧ elapsed < params.targetSeconds then
    (none, { vardiff with windowStart := now })
  else
    let next := retuned params vardiff elapsed
    let restarted := { vardiff with windowStart := now, sharesInWindow := 0 }
    if Slight vardiff.currentDiff next then (none, restarted)
    else (some next, { restarted with currentDiff := next })

end Vardiff

/-! ## The connection -/

/-- `attest`; `none` is the empty text. -/
inductive AttestState
  | none
  | pending
  | valid
  | invalid
  deriving DecidableEq, Repr

/-- What is written to the socket. -/
inductive Sent
  | result (id result : Json)
  | error (id : Json) (code : Int) (message : JsString)
  | notify (method : String) (params : List Json)

/-- `StratumClient`. -/
structure Client where
  connId : Nat
  state : ClientState
  extranonce1Hex : JsString
  userAgent : JsString
  username : JsString
  lastShareAt : Int
  sharesAccepted : Nat
  sharesRejected : Nat
  lastJob : Option StratumJob
  jobShareDiff : List (JsString × ℚ)
  lastNotifiedDiff : Option ℚ
  seenShares : List JsString
  pubkey : Option JsString
  attest : AttestState
  userId : Option Nat
  authorizedAt : Int
  challenge : Option (List Byte)
  reservedSlotId : Option Nat
  buf : JsString
  vardiff : Vardiff
  sent : List Sent
  destroyed : Bool
  closed : Bool

namespace Client

/-- A new connection. -/
def new (params : VardiffParams) (now : Int) (connId : Nat)
    (extranonce1Hex : JsString) : Client where
  connId := connId
  state := .new
  extranonce1Hex := extranonce1Hex
  userAgent := []
  username := []
  lastShareAt := 0
  sharesAccepted := 0
  sharesRejected := 0
  lastJob := none
  jobShareDiff := []
  lastNotifiedDiff := none
  seenShares := []
  pubkey := none
  attest := .none
  userId := none
  authorizedAt := 0
  challenge := none
  reservedSlotId := none
  buf := []
  vardiff := Vardiff.new params now
  sent := []
  destroyed := false
  closed := false

/-- `write`; nothing is written to a destroyed socket. -/
def write (client : Client) (message : Sent) : Client :=
  if client.destroyed then client
  else { client with sent := client.sent ++ [message] }

/-- `pushDifficulty`. -/
def pushDifficulty (client : Client) (difficulty : ℚ) : Client :=
  { client with lastNotifiedDiff := some difficulty }.write
    (.notify "mining.set_difficulty" [.num (.finite difficulty)])

/-- `wireShareDifficulty`. -/
def wireShareDifficulty (client : Client) (configured : ℚ) : ℚ :=
  assignedShareDifficulty configured
    (client.lastJob.map fun job => networkDifficultyFromBits job.bits)

/-- The connection's difficulty, never harder than the job's network target. -/
def cappedDiff (client : Client) (job : StratumJob) : ℚ :=
  let network := networkDifficultyFromBits job.bits
  if 0 < network ∧ network < client.vardiff.currentDiff then network
  else client.vardiff.currentDiff

/-- `stampJob`: the difficulty of the job and the connection afterwards. -/
def stampJob (client : Client) (job : StratumJob) :
    Except JsError (ℚ × Client) :=
  match client.jobShareDiff.lookup job.jobId with
  | some existing => .ok (existing, client)
  | none =>
    let d := client.cappedDiff job
    if d < Double.nearest minShareDifficulty then
      .error (.jobDifficulty job.jobId d)
    else
      .ok (d, { client with
        jobShareDiff := client.jobShareDiff ++ [(job.jobId, d)] })

/-- `n.toString(16).padStart(8, "0")`. -/
def paddedHex (n : Int) : JsString :=
  let digits := (if n < 0 then ['-'] else []) ++ Nat.toDigits 16 n.natAbs
  JsString.ofString (String.ofList
    (List.replicate (8 - digits.length) '0' ++ digits))

/-- The parameters of `mining.notify`. -/
def notifyParams (job : StratumJob) : List Json :=
  let word (n : Int) : Json := .str (JsString.ofString "0x" ++ paddedHex n)
  [.str job.jobId, .str job.prevHashHexBE, .str job.coinb1Hex,
    .str job.coinb2Hex, .arr (job.merkleBranchesHexBE.map .str),
    word job.version, word job.bits, word job.ntimeRoll, .bool job.cleanJobs]

/-- The messages of `pushJob` once the job is stamped. -/
def announceJob (client : Client) (job : StratumJob) (assigned : ℚ) :
    Client :=
  let told :=
    if client.lastNotifiedDiff = some assigned then client
    else client.pushDifficulty assigned
  told.write (.notify "mining.notify" (notifyParams job))

/-- `pushJob`: what was thrown, if anything, and the connection afterwards. -/
def pushJob (client : Client) (job : StratumJob) :
    Except JsError Unit × Client :=
  let client := { client with lastJob := some job }
  match client.stampJob job with
  | .error thrown => (.error thrown, client)
  | .ok (assigned, stamped) => (.ok (), stamped.announceJob job assigned)

end Client

/-- `splitUserName`: the account and the worker. -/
def splitUserName (s : JsString) : JsString × JsString :=
  let worker := (s.reverse.takeWhile (· ≠ 46)).reverse
  let dot := s.length - worker.length - 1
  -- Without a dot the worker is the whole text.
  if worker.length = s.length ∨ dot = 0 ∨ worker = [] then
    (s, JsString.ofString "default")
  else (s.take dot, worker)

end B3Chain.Stratum
