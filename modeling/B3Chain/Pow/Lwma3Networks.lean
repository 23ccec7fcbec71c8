import B3Chain.Pow.Lwma3Arithmetic

/-!
# LWMA-3 on the shipped networks

Two questions about the four networks that retarget with LWMA-3.  When does
the wrapping arithmetic agree with the formula over unbounded integers?  And
when does the operating floor bound the encoded target?
-/

namespace B3Chain.Pow

open B3Chain.Arith
open B3Chain.Chain
open B3Chain.Consensus
open B3Chain.Tree

/-! ## Shared bounds -/

/-- Every block of the chain has a target between one and `powLimit`. -/
def TargetsWithin (limit : Nat) (pindexLast : CBlockIndex) : Prop :=
  ∀ block : CBlockIndex, block ≤ pindexLast →
    1 ≤ decodeTarget block.nBits ∧ decodeTarget block.nBits ≤ limit

variable {pindexLast : CBlockIndex} {network : Network}

theorem sumOfTargets_le {limit : Nat}
    (within : TargetsWithin limit pindexLast) :
    sumOfTargets pindexLast ≤ windowLength pindexLast * limit := by
  have bound :=
    List.sum_le_card_nsmul
      ((windowBlocks pindexLast).map fun index =>
        decodeTarget (CBlockIndex.nBits index)) limit (by
          intro target member
          obtain ⟨block, inWindow, rfl⟩ := List.mem_map.mp member
          exact (within block (le_of_mem_windowBlocks inWindow)).2)
  rw [List.length_map, smul_eq_mul] at bound
  exact bound

theorem average_le {limit : Nat} (within : TargetsWithin limit pindexLast) :
    sumOfTargets pindexLast / windowLength pindexLast ≤ limit :=
  Nat.div_le_of_le_mul (sumOfTargets_le within)

theorem network_weightDivisor_bounds
    (network : Network) (pindexLast : CBlockIndex) :
    0 < weightDivisor network.params pindexLast ∧
      weightDivisor network.params pindexLast ≤ 1098000 := by
  obtain ⟨trianglePos, _, triangleLe, _⟩ :=
    triangle_bounds (windowLength_pos pindexLast)
      (windowLength_le pindexLast)
  rw [weightDivisor, Network.nPowTargetSpacing_params]
  omega

theorem network_narrow (network : Network) :
    network.params.nPowTargetSpacing * 10980 < 2 ^ 32 := by
  rw [Network.nPowTargetSpacing_params]
  norm_num

theorem network_spacing_pos (network : Network) :
    0 < network.params.nPowTargetSpacing := by
  rw [Network.nPowTargetSpacing_params]
  norm_num

/-- The sum of the targets stays below the modulus on every LWMA network. -/
theorem sumOfTargets_lt (lwma : network.params.useLwma3 = true)
    (within : TargetsWithin network.powLimitNat pindexLast) :
    sumOfTargets pindexLast < 2 ^ 256 := by
  have limit : network.powLimitNat < 2 ^ 240 := by
    cases network with
    | regtest enforceBip94 => cases lwma
    | _ => norm_num [Network.powLimitNat]
  calc
    sumOfTargets pindexLast
        ≤ windowLength pindexLast * network.powLimitNat :=
          sumOfTargets_le within
    _ ≤ 60 * network.powLimitNat :=
          Nat.mul_le_mul_right _ (windowLength_le pindexLast)
    _ < 2 ^ 256 := by omega

/-- Under the narrower limits the product stays below the modulus too. -/
theorem scaledTarget_lt (lwma : network.params.useLwma3 = true)
    (narrow : network ≠ .testnet)
    (within : TargetsWithin network.powLimitNat pindexLast) :
    scaledTarget network.params pindexLast < 2 ^ 256 := by
  have limit : network.powLimitNat < 2 ^ 231 := by
    cases network with
    | regtest enforceBip94 => cases lwma
    | testnet => exact absurd rfl narrow
    | _ => norm_num [Network.powLimitNat]
  have divisor := (network_weightDivisor_bounds network pindexLast).2
  have sumLe := boundedWeightedSum_le network.params pindexLast
  have average := average_le within
  have factor :
      (boundedWeightedSum network.params pindexLast).toNat ≤ 6588000 := by
    omega
  calc
    scaledTarget network.params pindexLast
        ≤ network.powLimitNat * 6588000 :=
          Nat.mul_le_mul average factor
    _ < 2 ^ 256 := by omega

theorem wrappedQuotient_eq (lwma : network.params.useLwma3 = true)
    (within : TargetsWithin network.powLimitNat pindexLast) :
    wrappedQuotient network.params pindexLast =
      scaledTarget network.params pindexLast % 2 ^ 256 /
        weightDivisor network.params pindexLast := by
  rw [wrappedQuotient, Nat.mod_eq_of_lt (sumOfTargets_lt lwma within)]
  rfl

/-! ## The floor -/

theorem floorTarget_le (params : Params) (pindexLast : CBlockIndex) :
    floorTarget params pindexLast ≤ params.powLimit.toNat := by
  simp only [floorTarget, effectiveFloor]
  split_ifs with active usable
  · simp only [Bool.and_eq_true, ArithUint256.lt_iff] at usable
    exact usable.2.le
  · exact le_rfl
  · exact le_rfl

/-- The sign bit in testnet's operating floor disables it. -/
theorem floorTarget_testnet (pindexLast : CBlockIndex) :
    floorTarget Network.testnet.params pindexLast =
      Network.testnet.powLimitNat := by
  have negative :
      (setCompact Network.testnet.params.operatingPowFloorBits).negative =
        true := by
    rw [setCompact_negative]
    decide
  unfold floorTarget effectiveFloor
  simp only [negative, Bool.not_true, Bool.false_and, Bool.false_eq_true,
    if_false, ite_self, Network.toNat_powLimit]

/-- The operating floor of a network, once it is past its guard. -/
theorem floorTarget_operating (kind : network = .main ∨ network = .testnet4)
    (past : network.params.nEarlyDifficultyGuardHeight <
      CBlockIndex.nHeight pindexLast + 1) :
    floorTarget network.params pindexLast =
      decodeTarget network.params.operatingPowFloorBits := by
  have facts :
      network.params.operatingPowFloorBits = 0x1d3fffff ∧
        network.params.nEarlyDifficultyGuardHeight = 10000 ∧
        network.powLimitNat = 2 ^ 231 - 1 := by
    rcases kind with rfl | rfl
    · exact ⟨rfl, rfl, by norm_num [Network.powLimitNat]⟩
    · exact ⟨rfl, rfl, by norm_num [Network.powLimitNat]⟩
  obtain ⟨bits, guard, limit⟩ := facts
  have decoded : decodeTarget 0x1d3fffff = 0x3fffff * 2 ^ 208 := by decide
  have positive : compactNegative 0x1d3fffff = false := by decide
  have small : compactOverflow 0x1d3fffff = false := by decide
  have nonzero : (setCompact 0x1d3fffff).target.equalTo 0 = false := by
    rw [← Bool.not_eq_true, ArithUint256.equalTo_iff _ _ (by norm_num),
      toNat_setCompact, decoded]
    norm_num
  have below :
      (setCompact 0x1d3fffff).target.lt network.params.powLimit = true := by
    rw [ArithUint256.lt_iff, toNat_setCompact, decoded,
      Network.toNat_powLimit, limit]
    norm_num
  have active :
      (0x1d3fffff : Nat) ≠ 0 ∧
        network.params.nEarlyDifficultyGuardHeight > 0 ∧
        CBlockIndex.nHeight pindexLast + 1 >
          network.params.nEarlyDifficultyGuardHeight :=
    ⟨by norm_num, by omega, past⟩
  rw [floorTarget, effectiveFloor, bits, if_pos active]
  simp only [setCompact_negative, setCompact_overflow, positive, small,
    nonzero, below, Bool.not_false, Bool.and_self, if_true,
    toNat_setCompact]

/-! ## Exactness of the arithmetic -/

/-- The code returns the formula's value and no step of it loses digits. -/
structure ExactArithmetic (params : Params) (pindexLast : CBlockIndex) :
    Prop where
  result :
    calculateLwma3Target pindexLast params =
      some (getCompact (.ofNat (lwma3Formula params pindexLast)))
  sum : sumOfTargets pindexLast < 2 ^ 256
  product : scaledTarget params pindexLast < 2 ^ 256
  multiplier :
    toUint64 (boundedWeightedSum params pindexLast) % 2 ^ 32 =
      (boundedWeightedSum params pindexLast).toNat

theorem getCompact_formula (network : Network) (pindexLast : CBlockIndex) :
    getCompact (.ofNat (lwma3Formula network.params pindexLast)) =
      encodeTarget (lwma3Formula network.params pindexLast) := by
  have floor := floorTarget_le network.params pindexLast
  have limit := network.powLimitNat_lt
  rw [Network.toNat_powLimit] at floor
  rw [getCompact_eq, ArithUint256.toNat_ofNat]
  rw [lwma3Formula]
  omega

/-- Clearing low bytes loses less than `2 ^ 224` below `2 ^ 240`. -/
theorem lt_roundTarget_add
    {target : Nat} (bounded : target < 2 ^ 240) :
    target < roundTarget target + 2 ^ 224 := by
  have bytes : byteSize target ≤ 30 := byteSize_le (by
    rw [pow_256]
    exact bounded)
  have dropped : 256 ^ droppedBytes target ≤ 2 ^ 224 := by
    rw [pow_256]
    apply Nat.pow_le_pow_right (by norm_num)
    rw [droppedBytes]
    split_ifs <;> omega
  have positive : 0 < 256 ^ droppedBytes target :=
    Nat.pow_pos (by norm_num)
  have split := Nat.div_add_mod target (256 ^ droppedBytes target)
  have remainder := Nat.mod_lt target positive
  rw [roundTarget, Nat.mul_comm]
  omega

/-- On testnet a product past the modulus shows in the result, unless the
reduced quotient is still at the limit. -/
theorem wrapped_result_ne
    {scaled divisor : Nat} (positive : 0 < divisor)
    (bounded : divisor ≤ 1098000) (past : 2 ^ 256 ≤ scaled)
    (below : scaled % 2 ^ 256 / divisor < Network.testnet.powLimitNat) :
    encodeTarget
        (max 1 (min Network.testnet.powLimitNat
          (scaled % 2 ^ 256 / divisor))) ≠
      encodeTarget
        (max 1 (min Network.testnet.powLimitNat (scaled / divisor))) := by
  have limitEq : Network.testnet.powLimitNat = 0xffff * 2 ^ 224 := by
    norm_num [Network.powLimitNat]
  have limitRound :
      roundTarget Network.testnet.powLimitNat =
        Network.testnet.powLimitNat := by
    decide
  have gap : scaled % 2 ^ 256 / divisor + 2 ^ 235 ≤ scaled / divisor := by
    have step : 2 ^ 235 ≤ 2 ^ 256 / divisor :=
      (Nat.le_div_iff_mul_le positive).mpr (by
        calc
          2 ^ 235 * divisor ≤ 2 ^ 235 * 1098000 :=
            Nat.mul_le_mul_left _ bounded
          _ ≤ 2 ^ 256 := by norm_num)
    have less : scaled % 2 ^ 256 + 2 ^ 256 ≤ scaled := by omega
    calc
      scaled % 2 ^ 256 / divisor + 2 ^ 235
          ≤ scaled % 2 ^ 256 / divisor + 2 ^ 256 / divisor :=
            Nat.add_le_add_left step _
      _ ≤ (scaled % 2 ^ 256 + 2 ^ 256) / divisor :=
            Nat.div_add_div_le_add_div
      _ ≤ scaled / divisor := Nat.div_le_div_right less
  generalize scaled % 2 ^ 256 / divisor = reduced at *
  generalize scaled / divisor = exact at *
  intro equal
  have rounds := congrArg decodeTarget equal
  rw [decodeTarget_encodeTarget (by omega),
    decodeTarget_encodeTarget (by omega)] at rounds
  have reducedLe := roundTarget_le
    (max 1 (min Network.testnet.powLimitNat reduced))
  rcases Nat.lt_or_ge exact Network.testnet.powLimitNat with inside | above
  · have exactEq :
        max 1 (min Network.testnet.powLimitNat exact) = exact := by
      omega
    have close : exact < roundTarget exact + 2 ^ 224 :=
      lt_roundTarget_add (by omega)
    rw [exactEq] at rounds
    omega
  · have exactEq :
        max 1 (min Network.testnet.powLimitNat exact) =
          Network.testnet.powLimitNat := by
      omega
    rw [exactEq, limitRound] at rounds
    omega

/-- When the LWMA-3 arithmetic is exact on the shipped networks: exactly when
the product of the average target and the weighted sum stays below the
modulus.  This always holds on mainnet, testnet4 and signet.  The returned
value alone also agrees when both quotients are cut down to the floor. -/
theorem lwma3_exact_iff
    (network : Network) (lwma : network.params.useLwma3 = true)
    (pindexLast : CBlockIndex)
    (several : 1 ≤ CBlockIndex.nHeight pindexLast)
    (within : TargetsWithin network.powLimitNat pindexLast) :
    (ExactArithmetic network.params pindexLast ↔
        scaledTarget network.params pindexLast < 2 ^ 256) ∧
      (network ≠ .testnet →
        scaledTarget network.params pindexLast < 2 ^ 256) ∧
      (calculateLwma3Target pindexLast network.params =
          some (getCompact
            (.ofNat (lwma3Formula network.params pindexLast))) ↔
        scaledTarget network.params pindexLast < 2 ^ 256 ∨
          floorTarget network.params pindexLast ≤
            scaledTarget network.params pindexLast % 2 ^ 256 /
              weightDivisor network.params pindexLast) := by
  have computed :=
    calculateLwma3Target_eq several (network_spacing_pos network)
      (network_narrow network)
  rw [wrappedQuotient_eq lwma within] at computed
  have multiplier :=
    multiplier_word (network_spacing_pos network) (network_narrow network)
      pindexLast
  have agree :
      scaledTarget network.params pindexLast < 2 ^ 256 →
        calculateLwma3Target pindexLast network.params =
          some (getCompact
            (.ofNat (lwma3Formula network.params pindexLast))) := by
    intro bounded
    rw [computed, getCompact_formula, Nat.mod_eq_of_lt bounded]
    rfl
  refine ⟨⟨fun exactness => exactness.product, fun bounded => ?_⟩,
    fun narrow => scaledTarget_lt lwma narrow within, ?_, ?_⟩
  · exact ⟨agree bounded, sumOfTargets_lt lwma within, bounded, multiplier⟩
  · intro result
    by_contra neither
    obtain ⟨past, below⟩ := not_or.mp neither
    have testnet : network = .testnet := by
      by_contra narrow
      exact past (scaledTarget_lt lwma narrow within)
    subst testnet
    rw [computed, getCompact_formula, lwma3Formula] at result
    rw [floorTarget_testnet] at result below
    obtain ⟨divisorPos, divisorLe⟩ :=
      network_weightDivisor_bounds .testnet pindexLast
    exact wrapped_result_ne divisorPos divisorLe (Nat.le_of_not_lt past)
      (Nat.lt_of_not_le below) (Option.some_inj.mp result)
  · rintro (bounded | cut)
    · exact agree bounded
    · have exactCut :
          floorTarget network.params pindexLast ≤
            scaledTarget network.params pindexLast /
              weightDivisor network.params pindexLast :=
        le_trans cut (Nat.div_le_div_right (Nat.mod_le _ _))
      rw [computed, getCompact_formula, lwma3Formula, min_eq_left cut,
        min_eq_left exactCut]

/-- Blocks with the `nBits` of their genesis, one hour apart. -/
def hourlyChain (genesis : CBlockHeader) : Nat → CBlockIndex
  | 0 => .root genesis
  | count + 1 =>
    .child (hourlyChain genesis count)
      { genesis with nTime := genesis.nTime + 3600 * (count + 1) }

theorem nBits_of_le_hourlyChain
    (genesis : CBlockHeader) (count : Nat) {block : CBlockIndex}
    (below : block ≤ hourlyChain genesis count) :
    CBlockIndex.nBits block = genesis.nBits := by
  induction count with
  | zero =>
    rw [hourlyChain, Branch.le_root_iff] at below
    rw [below]
    rfl
  | succ count induction =>
    rcases (Branch.le_child_iff _ _ _).mp below with top | lower
    · rw [top]
      rfl
    · exact induction lower

@[simp]
theorem nHeight_hourlyChain (genesis : CBlockHeader) (count : Nat) :
    CBlockIndex.nHeight (hourlyChain genesis count) = count := by
  induction count with
  | zero => rfl
  | succ count induction =>
    rw [hourlyChain, CBlockIndex.nHeight_child, induction]

/-- The header of testnet's genesis block, its merkle root left out. -/
def testnetGenesis : CBlockHeader :=
  ⟨1, 0, 1739145601, 0x1f00ffff, 111470⟩

theorem targetsWithin_testnet (count : Nat) :
    TargetsWithin Network.testnet.powLimitNat
      (hourlyChain testnetGenesis count) := by
  intro block below
  rw [nBits_of_le_hourlyChain testnetGenesis count below]
  decide

/-- Five testnet blocks an hour apart: still exact. -/
theorem lwma3_exact_on_five_testnet_blocks :
    ExactArithmetic Network.testnet.params (hourlyChain testnetGenesis 4) :=
  (lwma3_exact_iff .testnet rfl (hourlyChain testnetGenesis 4) (by decide)
    (targetsWithin_testnet 4)).1.mpr (by decide +kernel)

/-- Six testnet blocks an hour apart: the formula stays at `powLimit`, but the
product wraps and the code asks for about half that target. -/
theorem lwma3_wraps_on_six_testnet_blocks :
    Network.testnet.params.useLwma3 = true ∧
      1 ≤ CBlockIndex.nHeight (hourlyChain testnetGenesis 5) ∧
      TargetsWithin Network.testnet.powLimitNat
        (hourlyChain testnetGenesis 5) ∧
      calculateLwma3Target (hourlyChain testnetGenesis 5)
        Network.testnet.params = some 0x1f00834f ∧
      getCompact
        (.ofNat (lwma3Formula Network.testnet.params
          (hourlyChain testnetGenesis 5))) = 0x1f00ffff ∧
      ¬ ExactArithmetic Network.testnet.params
        (hourlyChain testnetGenesis 5) := by
  refine ⟨rfl, by decide, targetsWithin_testnet 5, ?_, ?_, ?_⟩
  · rw [calculateLwma3Target_eq (by decide) (network_spacing_pos _)
      (network_narrow _)]
    decide +kernel
  · rw [getCompact_formula]
    decide +kernel
  · intro exactness
    exact absurd exactness.product (by decide +kernel)

/-! ## The operating floor -/

/-- The encoded target is not wider than the configured operating floor. -/
def FloorRespected (params : Params) (pindexLast : CBlockIndex) : Prop :=
  ∃ bits,
    calculateLwma3Target pindexLast params = some bits ∧
      decodeTarget bits ≤ decodeTarget params.operatingPowFloorBits

theorem floorRespected_iff (network : Network)
    (several : 1 ≤ CBlockIndex.nHeight pindexLast) :
    FloorRespected network.params pindexLast ↔
      roundTarget
          (max 1 (min (floorTarget network.params pindexLast)
            (wrappedQuotient network.params pindexLast))) ≤
        decodeTarget network.params.operatingPowFloorBits := by
  have floor := floorTarget_le network.params pindexLast
  have limit := network.powLimitNat_lt
  rw [Network.toNat_powLimit] at floor
  rw [FloorRespected, calculateLwma3Target_eq several
    (network_spacing_pos network) (network_narrow network)]
  simp only [Option.some_inj, exists_eq_left']
  rw [decodeTarget_encodeTarget (by omega)]

/-- On a full window the reduced product bounds the quotient by itself. -/
theorem wrappedQuotient_lt_of_full (network : Network)
    (full : 59 ≤ CBlockIndex.nHeight pindexLast) :
    wrappedQuotient network.params pindexLast < 2 ^ 236 := by
  have length : windowLength pindexLast = 60 := by
    rw [windowLength_eq]
    omega
  have divisor : weightDivisor network.params pindexLast = 1098000 := by
    rw [weightDivisor, length, Network.nPowTargetSpacing_params]
  rw [wrappedQuotient, divisor]
  apply Nat.div_lt_of_lt_mul
  exact lt_trans (Nat.mod_lt _ (by norm_num)) (by norm_num)

/-- Which targets below signet's limit encode to at most `0x1d3fffff`. -/
theorem roundTarget_le_signet_iff
    {target : Nat} (bounded : target < 2 ^ 231) :
    roundTarget target ≤ 0x3fffff * 2 ^ 208 ↔ target < 2 ^ 230 := by
  have bytes : byteSize target ≤ 29 := byteSize_le (by
    rw [pow_256]
    omega)
  rcases Nat.lt_or_ge target (2 ^ 224) with small | large
  · have rounded := roundTarget_le target
    constructor
    · intro
      omega
    · intro
      omega
  · have size : byteSize target = 29 := by
      by_contra other
      have bound := lt_pow_byteSize target
      have power : 256 ^ byteSize target ≤ 256 ^ 28 :=
        Nat.pow_le_pow_right (by norm_num) (by omega)
      norm_num at power
      omega
    have leading : leadingBytes target = target / 2 ^ 208 := by
      rw [leadingBytes, size]
      norm_num
    have dropped : droppedBytes target = 26 := by
      rw [droppedBytes, leading, size, if_neg (by omega)]
    rw [roundTarget, dropped, pow_256]
    omega

/-- Which chains respect the operating floor past the guard height: all of
them when the guard height is positive, and otherwise (signet) those of two or
more blocks whose scaled target stays below `2 ^ 230`. -/
theorem floorRespected_past_guard_iff
    (network : Network) (lwma : network.params.useLwma3 = true)
    (pindexLast : CBlockIndex)
    (past : network.params.nEarlyDifficultyGuardHeight <
      CBlockIndex.nHeight pindexLast + 1) :
    FloorRespected network.params pindexLast ↔
      0 < network.params.nEarlyDifficultyGuardHeight ∨
        (1 ≤ CBlockIndex.nHeight pindexLast ∧
          wrappedQuotient network.params pindexLast < 2 ^ 230) := by
  have operating :
      network = .main ∨ network = .testnet4 →
        FloorRespected network.params pindexLast := by
    intro kind
    have several : 1 ≤ CBlockIndex.nHeight pindexLast := by
      have guard : network.params.nEarlyDifficultyGuardHeight = 10000 := by
        rcases kind with rfl | rfl <;> rfl
      omega
    have floorPos :
        0 < decodeTarget network.params.operatingPowFloorBits := by
      rcases kind with rfl | rfl <;> decide
    rw [floorRespected_iff network several,
      floorTarget_operating kind past]
    apply le_trans (roundTarget_le _)
    omega
  cases network with
  | regtest enforceBip94 => cases lwma
  | main =>
    exact ⟨fun _ => Or.inl (by decide), fun _ => operating (Or.inl rfl)⟩
  | testnet4 =>
    exact ⟨fun _ => Or.inl (by decide), fun _ => operating (Or.inr rfl)⟩
  | testnet =>
    -- The disabled floor never matters: a full window divides a 256-bit
    -- numerator by more than the distance to the floor.
    refine ⟨fun _ => Or.inl (by decide), fun _ => ?_⟩
    have tall : 10000 < CBlockIndex.nHeight pindexLast + 1 := past
    rw [floorRespected_iff .testnet (by omega)]
    have quotient :
        wrappedQuotient Network.testnet.params pindexLast < 2 ^ 236 :=
      wrappedQuotient_lt_of_full .testnet (by omega)
    have floor :
        decodeTarget Network.testnet.params.operatingPowFloorBits =
          0x7fff80 * 2 ^ 216 := by
      decide
    apply le_trans (roundTarget_le _)
    rw [floor]
    omega
  | signet =>
    have floor :
        decodeTarget Network.signet.params.operatingPowFloorBits =
          0x3fffff * 2 ^ 208 := by
      decide
    have limit : Network.signet.powLimitNat = 2 ^ 231 - 1 := by
      norm_num [Network.powLimitNat]
    have open' : ¬ 0 < Network.signet.params.nEarlyDifficultyGuardHeight :=
      by decide
    rw [or_iff_right open']
    rcases Nat.eq_zero_or_pos (CBlockIndex.nHeight pindexLast) with
      genesis | several
    · constructor
      · rintro ⟨bits, computed, respected⟩
        rw [calculateLwma3Target_genesis genesis, Option.some_inj,
          Network.toNat_powLimit] at computed
        rw [← computed] at respected
        exact absurd respected (by decide)
      · rintro ⟨several, _⟩
        omega
    · have unfloored :
          floorTarget Network.signet.params pindexLast =
            2 ^ 231 - 1 := by
        rw [← limit, ← Network.toNat_powLimit]
        rfl
      rw [floorRespected_iff .signet several, floor, unfloored,
        roundTarget_le_signet_iff (by omega)]
      omega

/-- The operating floor bounds the target of every chain past the guard height
exactly on the networks with a positive guard height.  The configured floor
itself is below `powLimit` on every network that sets one. -/
theorem operating_floor_iff
    (network : Network) (lwma : network.params.useLwma3 = true)
    (configured : network.params.operatingPowFloorBits ≠ 0) :
    decodeTarget network.params.operatingPowFloorBits <
        network.powLimitNat ∧
      ((∀ pindexLast : CBlockIndex,
          network.params.nEarlyDifficultyGuardHeight <
              CBlockIndex.nHeight pindexLast + 1 →
            FloorRespected network.params pindexLast) ↔
        0 < network.params.nEarlyDifficultyGuardHeight) ∧
      ∀ pindexLast : CBlockIndex,
        network.params.nEarlyDifficultyGuardHeight <
            CBlockIndex.nHeight pindexLast + 1 →
          (FloorRespected network.params pindexLast ↔
            0 < network.params.nEarlyDifficultyGuardHeight ∨
              (1 ≤ CBlockIndex.nHeight pindexLast ∧
                wrappedQuotient network.params pindexLast < 2 ^ 230)) := by
  have below :
      decodeTarget network.params.operatingPowFloorBits <
        network.powLimitNat := by
    cases network with
    | regtest enforceBip94 => exact absurd rfl configured
    | _ => decide
  refine ⟨below, ⟨fun respected => ?_, fun guarded pindexLast past => ?_⟩,
    floorRespected_past_guard_iff network lwma⟩
  · -- A chain of the genesis block alone gets `powLimit`.
    by_contra unguarded
    have past :
        network.params.nEarlyDifficultyGuardHeight <
          CBlockIndex.nHeight (.root ⟨1, 0, 0, 0, 0⟩) + 1 := by
      omega
    rcases (floorRespected_past_guard_iff network lwma _ past).mp
      (respected _ past) with guarded | ⟨several, _⟩
    · exact unguarded guarded
    · exact absurd several (by decide)
  · exact (floorRespected_past_guard_iff network lwma pindexLast past).mpr
      (Or.inl guarded)

/-- The header of mainnet's genesis block, its merkle root left out. -/
def mainGenesis : CBlockHeader :=
  ⟨1, 0, 1739145600, 0x1d7fffff, 89222440⟩

/-- Ten thousand slow mainnet blocks end at the operating floor. -/
theorem operating_floor_on_slow_mainnet :
    FloorRespected Network.main.params (hourlyChain mainGenesis 10000) :=
  (operating_floor_iff .main rfl (by decide)).2.1.mpr (by decide)
    (hourlyChain mainGenesis 10000) (by
      rw [nHeight_hourlyChain]
      decide)

/-- The header of signet's genesis block, its merkle root left out. -/
def signetGenesis : CBlockHeader :=
  ⟨1, 0, 1739145604, 0x1d7fffff, 24911779⟩

/-- Three signet blocks an hour apart are followed by a target at `powLimit`,
twice as wide as signet's operating floor. -/
theorem signet_ignores_operating_floor :
    Network.signet.params.useLwma3 = true ∧
      Network.signet.params.operatingPowFloorBits ≠ 0 ∧
      Network.signet.params.nEarlyDifficultyGuardHeight <
        CBlockIndex.nHeight (hourlyChain signetGenesis 2) + 1 ∧
      calculateLwma3Target (hourlyChain signetGenesis 2)
        Network.signet.params = some 0x1d7fffff ∧
      decodeTarget Network.signet.params.operatingPowFloorBits <
        decodeTarget 0x1d7fffff ∧
      ¬ FloorRespected Network.signet.params
        (hourlyChain signetGenesis 2) := by
  have computed :
      calculateLwma3Target (hourlyChain signetGenesis 2)
        Network.signet.params = some 0x1d7fffff := by
    rw [calculateLwma3Target_eq (by decide) (network_spacing_pos _)
      (network_narrow _)]
    decide +kernel
  refine ⟨rfl, by decide, by decide, computed, by decide, ?_⟩
  rintro ⟨bits, returned, respected⟩
  rw [computed, Option.some_inj] at returned
  rw [← returned] at respected
  exact absurd respected (by decide)

end B3Chain.Pow
