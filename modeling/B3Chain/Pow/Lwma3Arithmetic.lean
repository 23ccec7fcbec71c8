import B3Chain.Pow.Lwma3

/-!
# What the LWMA-3 code computes

`calculateLwma3Target_eq` removes the limbs: the code computes the formula
with two reductions modulo `2 ^ 256`, one on the sum of the targets and one on
the product with the weighted sum.  On the shipped networks the sum never
reaches the modulus.  The product stays below it under the `powLimit` of
mainnet, testnet4 and signet, and can pass it under the one of testnet.
-/

namespace B3Chain.Pow

open B3Chain.Arith
open B3Chain.Chain
open B3Chain.Consensus
open B3Chain.Tree

/-! ## Bounds on the window -/

theorem windowLength_eq (pindexLast : CBlockIndex) :
    windowLength pindexLast =
      min 60 (CBlockIndex.nHeight pindexLast + 1) :=
  length_windowBlocks pindexLast

theorem windowLength_le (pindexLast : CBlockIndex) :
    windowLength pindexLast ≤ 60 := by
  rw [windowLength_eq]
  exact min_le_left _ _

theorem windowLength_pos (pindexLast : CBlockIndex) :
    0 < windowLength pindexLast := by
  rw [windowLength_eq]
  omega

/-- The sum of the weights of a window. -/
theorem triangle_bounds
    {length : Nat} (positive : 0 < length) (bounded : length ≤ 60) :
    0 < length * (length + 1) / 2 ∧
      length ≤ length * (length + 1) / 2 ∧
      length * (length + 1) / 2 ≤ 1830 ∧
      2 * (length * (length + 1) / 2) = length * (length + 1) := by
  have even : 2 ∣ length * (length + 1) :=
    (Nat.even_mul_succ_self length).two_dvd
  have double : 2 * (length * (length + 1) / 2) = length * (length + 1) :=
    Nat.mul_div_cancel' even
  have upper : length * (length + 1) ≤ 60 * 61 :=
    Nat.mul_le_mul bounded (by omega)
  have lower : length * 2 ≤ length * (length + 1) :=
    Nat.mul_le_mul_left length (by omega)
  omega

theorem boundedWeightedSum_nonneg
    (params : Params) (pindexLast : CBlockIndex) :
    0 ≤ boundedWeightedSum params pindexLast := by
  apply le_max_of_le_right
  positivity

/-- The weighted sum is at most `6T` for each unit of weight. -/
theorem boundedWeightedSum_le
    (params : Params) (pindexLast : CBlockIndex) :
    boundedWeightedSum params pindexLast ≤
      6 * weightDivisor params pindexLast := by
  obtain ⟨_, lengthLe, _, double⟩ :=
    triangle_bounds (windowLength_pos pindexLast)
      (windowLength_le pindexLast)
  have weights := congrArg (Nat.cast : Nat → Int) double
  push_cast at weights
  rw [weightDivisor]
  apply max_le
  · have bound :=
      weightedTimes_le (Int.natCast_nonneg params.nPowTargetSpacing) 1
        (solveTimes (windowAnchor (windowBlocks pindexLast))
          ((windowBlocks pindexLast).map CBlockIndex.getBlockTime))
    rw [length_solveTimes, List.length_map] at bound
    change
      2 * _ ≤ 6 * (params.nPowTargetSpacing : Int) *
        (windowLength pindexLast *
          (2 * ((1 : Nat) : Int) + windowLength pindexLast - 1)) at bound
    have shape :
        (windowLength pindexLast : Int) *
            (2 * ((1 : Nat) : Int) + windowLength pindexLast - 1) =
          2 * (windowLength pindexLast * (windowLength pindexLast + 1) / 2) := by
      rw [weights]
      push_cast
      ring
    rw [shape] at bound
    push_cast
    linarith only [bound]
  · have product :
        params.nPowTargetSpacing * windowLength pindexLast ≤
          params.nPowTargetSpacing *
            (windowLength pindexLast * (windowLength pindexLast + 1) / 2) :=
      Nat.mul_le_mul_left _ lengthLe
    have integers := Int.ofNat_le.mpr product
    push_cast at integers ⊢
    omega

/-! ## Removing the limbs -/

theorem toUint64_of_bounds
    {number : Int} (nonnegative : 0 ≤ number) (bounded : number < 2 ^ 64) :
    toUint64 number = number.toNat := by
  rw [toUint64, Int.emod_eq_of_lt nonnegative bounded]

theorem toNat_foldl_add
    (targets : List ArithUint256) (start : ArithUint256) :
    (targets.foldl ArithUint256.add start).toNat =
      (start.toNat + (targets.map ArithUint256.toNat).sum) % 2 ^ 256 := by
  induction targets generalizing start with
  | nil =>
    rw [List.foldl_nil, List.map_nil, List.sum_nil, Nat.add_zero,
      Nat.mod_eq_of_lt start.toNat_lt]
  | cons target rest induction =>
    rw [List.foldl_cons, induction, ArithUint256.toNat_add, List.map_cons,
      List.sum_cons, Nat.mod_add_mod, Nat.add_assoc]

theorem toNat_capped (limit target : ArithUint256) :
    (if target.gt limit then limit else target).toNat =
      min limit.toNat target.toNat := by
  split_ifs with above
  · rw [ArithUint256.gt_iff] at above
    omega
  · rw [ArithUint256.gt_iff] at above
    omega

theorem toNat_clampTarget (floor target : ArithUint256) :
    (clampTarget floor target).toNat =
      max 1 (min floor.toNat target.toNat) := by
  have capped := toNat_capped floor target
  simp only [clampTarget]
  generalize (if target.gt floor then floor else target) = number at *
  by_cases zero : number.equalTo 0 = true
  · rw [if_pos zero, ArithUint256.toNat_ofUint64 (by norm_num)]
    rw [ArithUint256.equalTo_iff _ _ (by norm_num)] at zero
    omega
  · rw [if_neg zero, capped]
    rw [ArithUint256.equalTo_iff _ _ (by norm_num)] at zero
    omega

/-- The quotient the code clamps, with its two reductions. -/
def wrappedQuotient (params : Params) (pindexLast : CBlockIndex) : Nat :=
  sumOfTargets pindexLast % 2 ^ 256 / windowLength pindexLast *
      (boundedWeightedSum params pindexLast).toNat % 2 ^ 256 /
    weightDivisor params pindexLast

theorem weightDivisor_bounds
    {params : Params} (positive : 0 < params.nPowTargetSpacing)
    (narrow : params.nPowTargetSpacing * 10980 < 2 ^ 32)
    (pindexLast : CBlockIndex) :
    0 < weightDivisor params pindexLast ∧
      6 * weightDivisor params pindexLast < 2 ^ 32 := by
  obtain ⟨trianglePos, _, triangleLe, _⟩ :=
    triangle_bounds (windowLength_pos pindexLast)
      (windowLength_le pindexLast)
  have bounded := Nat.mul_le_mul_left params.nPowTargetSpacing triangleLe
  rw [weightDivisor]
  exact ⟨Nat.mul_pos positive trianglePos, by omega⟩

/-- A single block leaves the code at `powLimit`. -/
theorem calculateLwma3Target_genesis
    {pindexLast : CBlockIndex} (genesis : CBlockIndex.nHeight pindexLast = 0)
    (params : Params) :
    calculateLwma3Target pindexLast params =
      some (encodeTarget params.powLimit.toNat) := by
  have length : (gatherWindow pindexLast).length ≤ 1 := by
    change windowLength pindexLast ≤ 1
    rw [windowLength_eq, genesis]
    omega
  rw [calculateLwma3Target, if_pos length, getCompact_eq]

/-- The loop variables after the weighting loop. -/
def windowTimes (params : Params) (pindexLast : CBlockIndex) : SolveTimes :=
  weighSolveTimes params.nPowTargetSpacing 0
    ⟨0, 0, (gatherWindow pindexLast).tsAnchor⟩
    (gatherWindow pindexLast).timestamps

theorem weightedSum_windowTimes
    (params : Params) (pindexLast : CBlockIndex) :
    (if (windowTimes params pindexLast).weightedSum <
          params.nPowTargetSpacing * windowLength pindexLast / 20 then
        (params.nPowTargetSpacing * windowLength pindexLast / 20 : Int)
      else (windowTimes params pindexLast).weightedSum) =
      boundedWeightedSum params pindexLast := by
  have weighted :
      (windowTimes params pindexLast).weightedSum =
        weightedTimes params.nPowTargetSpacing 1
          (solveTimes (windowAnchor (windowBlocks pindexLast))
            ((windowBlocks pindexLast).map CBlockIndex.getBlockTime)) := by
    rw [windowTimes, weightedSum_weighSolveTimes (Int.natCast_nonneg _),
      Int.zero_add]
    rfl
  rw [boundedWeightedSum, ← weighted]
  split_ifs <;> omega

theorem weightDenominator_windowTimes
    (params : Params) (pindexLast : CBlockIndex) :
    (windowTimes params pindexLast).weightDenominator =
      ((windowLength pindexLast * (windowLength pindexLast + 1) / 2 : Nat) :
        Int) := by
  have loop :=
    weightDenominator_weighSolveTimes params.nPowTargetSpacing 0
      ⟨0, 0, (gatherWindow pindexLast).tsAnchor⟩
      (gatherWindow pindexLast).timestamps
  have timestampsLength :
      (gatherWindow pindexLast).timestamps.length =
        windowLength pindexLast :=
    List.length_map _
  have double :=
    (triangle_bounds (windowLength_pos pindexLast)
      (windowLength_le pindexLast)).2.2.2
  have weights := congrArg (Nat.cast : Nat → Int) double
  rw [← windowTimes, timestampsLength] at loop
  push_cast at loop weights ⊢
  linarith only [loop, weights]

/-- The product of unsigned words in the divisor is exact. -/
theorem denominator_words
    {params : Params} (positive : 0 < params.nPowTargetSpacing)
    (narrow : params.nPowTargetSpacing * 10980 < 2 ^ 32)
    (pindexLast : CBlockIndex) :
    toUint64 params.nPowTargetSpacing *
        toUint64 (windowTimes params pindexLast).weightDenominator % 2 ^ 64 =
      weightDivisor params pindexLast := by
  obtain ⟨_, _, triangleLe, _⟩ :=
    triangle_bounds (windowLength_pos pindexLast)
      (windowLength_le pindexLast)
  have divisorLt := (weightDivisor_bounds positive narrow pindexLast).2
  rw [weightDenominator_windowTimes,
    toUint64_of_bounds (Int.natCast_nonneg _) (by omega),
    toUint64_of_bounds (Int.natCast_nonneg _) (by omega),
    Int.toNat_natCast, Int.toNat_natCast]
  exact Nat.mod_eq_of_lt (by rw [weightDivisor] at divisorLt; omega)

/-- The conversion of the weighted sum to the 32-bit multiplier is exact. -/
theorem multiplier_word
    {params : Params} (positive : 0 < params.nPowTargetSpacing)
    (narrow : params.nPowTargetSpacing * 10980 < 2 ^ 32)
    (pindexLast : CBlockIndex) :
    toUint64 (boundedWeightedSum params pindexLast) % 2 ^ 32 =
      (boundedWeightedSum params pindexLast).toNat := by
  have divisorLt := (weightDivisor_bounds positive narrow pindexLast).2
  have sumLe := boundedWeightedSum_le params pindexLast
  have sumNonneg := boundedWeightedSum_nonneg params pindexLast
  rw [toUint64_of_bounds sumNonneg (by omega)]
  exact Nat.mod_eq_of_lt (by omega)

theorem toNat_sumTargets (pindexLast : CBlockIndex) :
    ((gatherWindow pindexLast).targets.foldl ArithUint256.add
        (.ofUint64 0)).toNat =
      sumOfTargets pindexLast % 2 ^ 256 := by
  rw [toNat_foldl_add, ArithUint256.toNat_ofUint64 (by norm_num),
    Nat.zero_add, sumOfTargets, gatherWindow, List.map_map]
  simp only [Function.comp_def, toNat_setCompact]

/-- What the code computes, without limbs, on two or more blocks. -/
theorem calculateLwma3Target_eq
    {params : Params} {pindexLast : CBlockIndex}
    (several : 1 ≤ CBlockIndex.nHeight pindexLast)
    (positive : 0 < params.nPowTargetSpacing)
    (narrow : params.nPowTargetSpacing * 10980 < 2 ^ 32) :
    calculateLwma3Target pindexLast params =
      some (encodeTarget
        (max 1 (min (floorTarget params pindexLast)
          (wrappedQuotient params pindexLast)))) := by
  obtain ⟨divisorPos, divisorLt⟩ :=
    weightDivisor_bounds positive narrow pindexLast
  have lengthLe := windowLength_le pindexLast
  have lengthPos := windowLength_pos pindexLast
  have lengthEq :
      (gatherWindow pindexLast).length = windowLength pindexLast := rfl
  have longWindow : ¬ windowLength pindexLast ≤ 1 := by
    rw [windowLength_eq]
    omega
  have lengthWord :
      (ArithUint256.ofUint64 (windowLength pindexLast)).toNat =
        windowLength pindexLast :=
    ArithUint256.toNat_ofUint64 (by omega)
  have divisorWord :
      (ArithUint256.ofUint64 (weightDivisor params pindexLast)).toNat =
        weightDivisor params pindexLast :=
    ArithUint256.toNat_ofUint64 (by omega)
  obtain ⟨average, averaged, averageEq⟩ :=
    ArithUint256.div_eq
      ((gatherWindow pindexLast).targets.foldl ArithUint256.add (.ofUint64 0))
      (.ofUint64 (windowLength pindexLast)) (by rw [lengthWord]; omega)
  obtain ⟨quotient, divided, quotientEq⟩ :=
    ArithUint256.div_eq
      (average.mulUint32 (boundedWeightedSum params pindexLast).toNat)
      (.ofUint64 (weightDivisor params pindexLast))
      (by rw [divisorWord]; omega)
  rw [toNat_sumTargets, lengthWord] at averageEq
  rw [ArithUint256.toNat_mulUint32, divisorWord, averageEq,
    Nat.mul_comm (Int.toNat _)] at quotientEq
  rw [calculateLwma3Target, lengthEq, if_neg longWindow, ← windowTimes]
  simp only [weightedSum_windowTimes, averaged, Option.bind_eq_bind,
    Option.bind_some, multiplier_word positive narrow,
    denominator_words positive narrow, divided, getCompact_eq,
    toNat_clampTarget, quotientEq]
  rfl

end B3Chain.Pow
