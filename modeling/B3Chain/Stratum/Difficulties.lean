import B3Chain.Stratum.Server

/-!
# Difficulties in millionths

`targetFromShareDifficulty` rounds a difficulty to millionths before it
divides, while a share is credited with the difficulty as it was assigned, and
a job is stamped with the network difficulty in units of a tenth of that.  A
difficulty that is rounded down is credited with more than its hashes prove;
a network difficulty that is rounded up has a target that is harder than the
network's.  What a difficulty proves is computed exactly; the comparison with
the network's is made with the doubles of the source.
-/

namespace B3Chain.Stratum

open Words

/-! ## The target of a difficulty -/

/-- `BigInt(Math.round(shareDiff * Number(scale)))`; the product is rounded as
given. -/
def scaledRounding (round : ℚ → ℚ) (d : ℚ) : Nat :=
  ⌊round (d * 1000000) + 1 / 2⌋.toNat

/-- The difficulty in millionths, with the product taken exactly. -/
def scaledDiff (d : ℚ) : Nat :=
  ⌊d * 1000000 + 1 / 2⌋.toNat

theorem targetRounding_eq_ok_iff {round : ℚ → ℚ} {d : ℚ} {target : Nat} :
    targetRounding round d = .ok target ↔
      (0 < d ∧ round (1 / 1000000) ≤ d) ∧ 0 < scaledRounding round d ∧
        target = poolDiff1Target * 1000000 / scaledRounding round d := by
  rw [targetRounding, scaledRounding]
  by_cases negative : d ≤ 0
  · rw [if_pos negative]
    exact iff_of_false nofun fun found => absurd found.1.1 (not_lt.mpr negative)
  · rw [if_neg negative]
    by_cases small : d < round (1 / 1000000)
    · rw [if_pos small]
      exact iff_of_false nofun fun found =>
        absurd found.1.2 (not_le.mpr small)
    · rw [if_neg small, and_iff_right ⟨not_le.mp negative, not_lt.mp small⟩]
      dsimp only
      by_cases none : ⌊round (d * 1000000) + 1 / 2⌋ ≤ 0
      · rw [if_pos none]
        exact iff_of_false nofun fun found => by omega
      · rw [if_neg none, Except.ok.injEq,
          and_iff_right (show 0 < ⌊round (d * 1000000) + 1 / 2⌋.toNat by
            omega)]
        exact eq_comm

theorem scaledDiff_pos {d : ℚ} (least : minShareDifficulty ≤ d) :
    0 < scaledDiff d := by
  rw [minShareDifficulty] at least
  have one : (1 : ℤ) ≤ ⌊d * 1000000 + 1 / 2⌋ := by
    rw [Int.le_floor]
    push_cast
    linarith
  rw [scaledDiff]
  omega

/-- The difficulties that have a target, and the target. -/
theorem targetFromShareDifficulty_eq_ok_iff {d : ℚ} {target : Nat} :
    targetFromShareDifficulty d = .ok target ↔
      minShareDifficulty ≤ d ∧
        target = poolDiff1Target * 1000000 / scaledDiff d := by
  refine targetRounding_eq_ok_iff.trans ⟨?_, ?_⟩
  · exact fun found => ⟨found.1.2, found.2.2⟩
  · rintro ⟨least, same⟩
    have above : 0 < d := lt_of_lt_of_le (by norm_num [minShareDifficulty]) least
    exact ⟨⟨above, least⟩, scaledDiff_pos least, same⟩

/-! ## What a share proves -/

/-- A share that meets its target has a hash that is at most the target. -/
theorem pow_le_of_meetsShare {hashes : Hashes} {s : ShareInput}
    {built : BuiltHeader} {check : ShareCheckOk}
    (header : buildHeader hashes s = .ok built)
    (accepted : validateShare hashes s = .ok (.ok check))
    (meets : check.meetsShare = true) :
    ∃ target, targetFromShareDifficulty s.shareDifficulty = .ok target ∧
      hashes.pow built.header built.prevHashLE ≤ target := by
  rw [validateShare, header] at accepted
  change judgeHeader hashes s built = _ at accepted
  rw [judgeHeader] at accepted
  obtain ⟨targetBE, -, accepted⟩ := Machine.bind_eq_ok_iff.mp accepted
  obtain ⟨target, found, accepted⟩ := Machine.bind_eq_ok_iff.mp accepted
  refine ⟨target, found, ?_⟩
  split at accepted
  · cases accepted
  · next isBlock meetsShare classified =>
      obtain ⟨block, -, accepted⟩ := Machine.bind_eq_ok_iff.mp accepted
      cases accepted
      rw [classifyCandidate] at classified
      split at classified
      · cases classified
      · cases classified
        exact of_decide_eq_true meets

/-- Each share that is accepted at the difficulty proves the difficulty its
event carries. -/
def CreditProven (d : ℚ) : Prop :=
  ∀ (hashes : Hashes) (s : ShareInput) (built : BuiltHeader)
    (check : ShareCheckOk) (moment : Moment) (username : JsString)
    (attest : ShareAttest),
    s.shareDifficulty = d → buildHeader hashes s = .ok built →
      validateShare hashes s = .ok (.ok check) → check.meetsShare = true →
        (hashes.pow built.header built.prevHashLE : ℚ) *
            (shareEvent moment username s check attest).diff ≤
          poolDiff1Target

/-- What rounding takes off the difficulty, times the target, is no more than
the remainder of the division. -/
def RoundingCovered (d : ℚ) : Prop :=
  (d * 1000000 - scaledDiff d) *
      (poolDiff1Target * 1000000 / scaledDiff d : Nat) ≤
    (poolDiff1Target * 1000000 % scaledDiff d : Nat)

/-- A difficulty that is not rounded down is covered. -/
theorem roundingCovered_of_le {d : ℚ} (up : d * 1000000 ≤ scaledDiff d) :
    RoundingCovered d := by
  rw [RoundingCovered]
  have lost : d * 1000000 - scaledDiff d ≤ 0 := sub_nonpos.mpr up
  have target : (0 : ℚ) ≤
      (poolDiff1Target * 1000000 / scaledDiff d : Nat) := Nat.cast_nonneg _
  have remainder : (0 : ℚ) ≤
      (poolDiff1Target * 1000000 % scaledDiff d : Nat) := Nat.cast_nonneg _
  exact (mul_nonpos_of_nonpos_of_nonneg lost target).trans remainder

theorem roundingCovered_iff (d : ℚ) :
    RoundingCovered d ↔
      (poolDiff1Target * 1000000 / scaledDiff d : Nat) * d ≤
        poolDiff1Target := by
  have parts : ((scaledDiff d *
      (poolDiff1Target * 1000000 / scaledDiff d) +
        poolDiff1Target * 1000000 % scaledDiff d : Nat) : ℚ) =
          (poolDiff1Target * 1000000 : Nat) :=
    congrArg Nat.cast (Nat.div_add_mod _ _)
  push_cast at parts
  rw [RoundingCovered]
  constructor
  · intro covered
    linarith
  · intro proven
    linarith

/-- A share of a job that can be read is accepted if it meets the target. -/
theorem judgeHeader_of_meets {hashes : Hashes} {s : ShareInput}
    {built : BuiltHeader} {target : Nat} {bytes : List Byte}
    {txns : List (List Byte)}
    (network : JsString.hexToBytes s.job.networkTargetHexBE = .ok bytes)
    (read : s.job.txnsHex.mapM JsString.hexToBytes = .ok txns)
    (found : targetFromShareDifficulty s.shareDifficulty = .ok target)
    (meets : hashes.pow built.header built.prevHashLE ≤ target) :
    ∃ check, judgeHeader hashes s built = .ok (.ok check) ∧
      check.meetsShare = true := by
  have classified (net : Nat) :
      classifyCandidate (hashes.pow built.header built.prevHashLE) target
        net = some (decide (hashes.pow built.header built.prevHashLE ≤ net),
          true) := by
    rw [classifyCandidate, if_neg fun both => both.1 meets,
      decide_eq_true meets]
  have text (isBlock : Bool) :
      ∃ block, blockText s built isBlock = .ok block := by
    cases isBlock with
    | false => exact ⟨none, rfl⟩
    | true =>
      rw [blockText, read]
      exact ⟨_, rfl⟩
  obtain ⟨block, submitted⟩ := text
    (decide (hashes.pow built.header built.prevHashLE ≤
      leValue bytes.reverse))
  rw [judgeHeader, network, found]
  dsimp only [bind, Except.bind]
  rw [classified]
  dsimp only
  rw [submitted]
  exact ⟨_, rfl, rfl⟩

/-- A job that can be read, at a difficulty. -/
def plainShare (d : ℚ) : ShareInput where
  job := emptyJob
  extranonce1Hex := []
  extranonce2Hex := []
  ntime := 0
  nonce := 0
  shareDifficulty := d

/-- Hashes with one proof-of-work hash for all headers. -/
def hashesAt (pow : Nat) : Hashes :=
  { constantHashes with pow := fun _ _ => pow }

theorem buildHeader_plainShare (pow : Nat) (d : ℚ) :
    ∃ built, buildHeader (hashesAt pow) (plainShare d) = .ok built := by
  have empty : JsString.hexToBytes [] = .ok [] := rfl
  simp only [buildHeader, plainShare, emptyJob, empty, serializeHeader,
    JsString.hexToBytes_bytesToHex, computeMerkleRoot, bind, Except.bind]
  exact ⟨_, rfl⟩

/-- A share of the empty job at exactly its target is accepted. -/
theorem validateShare_plainShare {d : ℚ} {target : Nat}
    (found : targetFromShareDifficulty d = .ok target) :
    ∃ built check,
      buildHeader (hashesAt target) (plainShare d) = .ok built ∧
        validateShare (hashesAt target) (plainShare d) = .ok (.ok check) ∧
        check.meetsShare = true := by
  obtain ⟨built, header⟩ := buildHeader_plainShare target d
  have network : JsString.hexToBytes
      (plainShare d).job.networkTargetHexBE = .ok [] := rfl
  have read : (plainShare d).job.txnsHex.mapM JsString.hexToBytes =
      .ok [] := rfl
  obtain ⟨check, judged, meets⟩ := judgeHeader_of_meets network read found
    (show (hashesAt target).pow built.header built.prevHashLE ≤ target
      from le_rfl)
  refine ⟨built, check, header, ?_, meets⟩
  rw [validateShare, header]
  exact judged

/--
A difficulty is credited with no more than its hashes prove exactly if the
rounding is covered.
-/
theorem credit_proven_iff_rounding_covered {d : ℚ}
    (least : minShareDifficulty ≤ d) :
    CreditProven d ↔ RoundingCovered d := by
  have found := targetFromShareDifficulty_eq_ok_iff.mpr ⟨least, rfl⟩
  rw [roundingCovered_iff]
  constructor
  · intro proven
    obtain ⟨built, check, header, accepted, meets⟩ :=
      validateShare_plainShare found
    have credited := proven _ _ built check ⟨0, none, fun _ => none⟩ []
      ⟨[], [], none, none, .valid⟩ rfl header accepted meets
    rw [shareEvent, if_pos meets] at credited
    exact credited
  · intro covered hashes s built check moment username attest same header
      accepted meets
    obtain ⟨target, computed, below⟩ :=
      pow_le_of_meetsShare header accepted meets
    rw [same] at computed
    cases found.symm.trans computed
    have positive : (0 : ℚ) ≤ d := by
      rw [minShareDifficulty] at least
      linarith
    rw [shareEvent, if_pos meets, same]
    exact (mul_le_mul_of_nonneg_right (Nat.cast_le.mpr below) positive).trans
      covered

theorem scaledDiff_one : scaledDiff 1 = 1000000 := by
  have floor : ⌊(1 : ℚ) * 1000000 + 1 / 2⌋ = 1000000 := by norm_num
  rw [scaledDiff, floor]
  rfl

/-- Difficulty 1 is not rounded. -/
theorem credit_proven_at_one : minShareDifficulty ≤ 1 ∧ CreditProven 1 := by
  have least : minShareDifficulty ≤ 1 := by
    rw [minShareDifficulty]
    norm_num
  refine ⟨least, (credit_proven_iff_rounding_covered least).mpr ?_⟩
  refine roundingCovered_of_le ?_
  rw [scaledDiff_one]
  norm_num

/-- A share at difficulty 0.0000014 is checked at 0.000001. -/
theorem rounded_down_difficulty_credited :
    ∃ (hashes : Hashes) (s : ShareInput) (built : BuiltHeader)
      (check : ShareCheckOk), s.shareDifficulty = 14 / 10000000 ∧
      buildHeader hashes s = .ok built ∧
      validateShare hashes s = .ok (.ok check) ∧ check.meetsShare = true ∧
      ∀ moment username attest,
        (poolDiff1Target : ℚ) <
          hashes.pow built.header built.prevHashLE *
            (shareEvent moment username s check attest).diff := by
  have scaled : scaledDiff (14 / 10000000) = 1 := by
    rw [scaledDiff]
    norm_num
  have found : targetFromShareDifficulty (14 / 10000000) =
      .ok (poolDiff1Target * 1000000) := by
    refine targetFromShareDifficulty_eq_ok_iff.mpr ⟨?_, ?_⟩
    · rw [minShareDifficulty]
      norm_num
    · rw [scaled, Nat.div_one]
  obtain ⟨built, check, header, accepted, meets⟩ :=
    validateShare_plainShare found
  refine ⟨_, _, built, check, rfl, header, accepted, meets, ?_⟩
  intro moment username attest
  rw [shareEvent, if_pos meets]
  change (poolDiff1Target : ℚ) <
    (poolDiff1Target * 1000000 : Nat) * (14 / 10000000)
  rw [poolDiff1Target]
  norm_num

/-! ## The network target -/

/-- The network difficulty in units of a tenth of a millionth. -/
def networkUnits (bits : Int) : Nat :=
  poolDiff1Target * 10000000 / targetFromBits bits

/-- The difficulty in millionths, as the source computes it. -/
def roundedDiff (d : ℚ) : Nat :=
  scaledRounding Double.nearest d

/-- The share target is at least the network target exactly if the difficulty
in millionths is at most the network difficulty in whole millionths. -/
theorem network_le_target_iff {bits : Int} {d : ℚ} {target : Nat}
    (positive : 1 ≤ targetFromBits bits)
    (found : targetRounding Double.nearest d = .ok target) :
    targetFromBits bits ≤ target ↔ roundedDiff d ≤ networkUnits bits / 10 := by
  obtain ⟨-, some, rfl⟩ := targetRounding_eq_ok_iff.mp found
  have tens : networkUnits bits / 10 =
      poolDiff1Target * 1000000 / targetFromBits bits := by
    rw [networkUnits, Nat.div_div_eq_div_mul,
      show poolDiff1Target * 10000000 = poolDiff1Target * 1000000 * 10
        from by ring]
    exact Nat.mul_div_mul_right _ _ (by decide)
  rw [tens, Nat.le_div_iff_mul_le some, Nat.le_div_iff_mul_le positive,
    Nat.mul_comm, roundedDiff]

/-- How a connection comes by the difficulty of a job: the job is stamped with
the connection's difficulty, or a difficulty is announced while it is the
last job. -/
inductive Assigned (client : Client) (job : StratumJob) : ℚ → ℚ → Prop
  | stamp {d : ℚ} {next : Client}
      (fresh : client.jobShareDiff.lookup job.jobId = none)
      (stamped : client.stampJob job = .ok (d, next)) :
      Assigned client job client.vardiff.currentDiff d
  | wire (configured : ℚ) (last : client.lastJob = some job) :
      Assigned client job configured (client.wireShareDifficulty configured)

/-- The network difficulty takes the place of the configured one. -/
def Capped (bits : Int) (configured : ℚ) : Prop :=
  0 < networkDifficultyFromBits bits ∧
    (networkDifficultyFromBits bits < configured ∨ configured ≤ 0)

theorem Assigned.eq {client : Client} {job : StratumJob} {configured d : ℚ}
    (assigned : Assigned client job configured d)
    (above : 0 < d) :
    (Capped job.bits configured → d = networkDifficultyFromBits job.bits) ∧
      (¬ Capped job.bits configured → d = configured) := by
  cases assigned with
  | stamp fresh stamped =>
    rw [Client.stampJob, fresh] at stamped
    have same : client.cappedDiff job = d := by
      dsimp only at stamped
      split at stamped
      · cases stamped
      · cases stamped
        rfl
    rw [Client.cappedDiff] at same
    split at same
    · next harder =>
        exact ⟨fun _ => same.symm, fun free => absurd
          ⟨harder.1, Or.inl harder.2⟩ free⟩
    · next easier =>
        refine ⟨fun capped => ?_, fun _ => same.symm⟩
        obtain ⟨positive, below | negative⟩ := capped
        · exact absurd ⟨positive, below⟩ easier
        · exact absurd above (not_lt.mpr (same ▸ negative))
  | wire configured last =>
    rw [Client.wireShareDifficulty, last, Option.map_some,
      assignedShareDifficulty]
    by_cases none : networkDifficultyFromBits job.bits ≤ 0
    · rw [if_pos none]
      exact ⟨fun capped => absurd capped.1 (not_lt.mpr none), fun _ => rfl⟩
    · rw [if_neg none]
      by_cases negative : configured ≤ 0
      · rw [if_pos negative]
        exact ⟨fun _ => rfl, fun free => absurd
          ⟨not_le.mp none, Or.inr negative⟩ free⟩
      · rw [if_neg negative]
        constructor
        · rintro ⟨-, below | nonpositive⟩
          · exact min_eq_right below.le
          · exact absurd nonpositive negative
        · intro free
          refine min_eq_left (not_lt.mp fun below => ?_)
          exact free ⟨not_le.mp none, Or.inl below⟩

/-- Rounding does not lift the difficulty above the network's: the network
difficulty or the configured one, in millionths, is at most the network
difficulty in whole millionths. -/
def RoundsBelow (bits : Int) (configured : ℚ) : Prop :=
  (Capped bits configured →
    roundedDiff (networkDifficultyFromBits bits) ≤ networkUnits bits / 10) ∧
    (¬ Capped bits configured →
      roundedDiff configured ≤ networkUnits bits / 10)

/-- A connection at difficulty 1024. -/
def hardClient : Client :=
  Client.new ⟨10, 30, 1 / 1000000, 16000000, 1024, 4⟩ 0 0 []

/-- A job with a compact target. -/
def jobOf (bits : Int) : StratumJob where
  toJobContext := { emptyJob with bits := bits }
  cleanJobs := true
  ntimeMin := 0
  ntimeRoll := 0

/-- The difficulty a job is stamped with, and its target. -/
def stampedTarget (client : Client) (job : StratumJob) : Option (ℚ × Nat) :=
  match client.stampJob job with
  | .error _ => none
  | .ok (d, _) =>
    match targetRounding Double.nearest d with
    | .error _ => none
    | .ok target => some (d, target)

theorem eq_of_stampedTarget {client : Client} {job : StratumJob} {d : ℚ}
    {target : Nat} (stamped : stampedTarget client job = some (d, target)) :
    ∃ next, client.stampJob job = .ok (d, next) ∧
      targetRounding Double.nearest d = .ok target := by
  rw [stampedTarget] at stamped
  split at stamped
  · cases stamped
  · next d next stampedAt =>
      split at stamped
      · cases stamped
      · next target found =>
          cases stamped
          exact ⟨next, stampedAt, found⟩

end B3Chain.Stratum
