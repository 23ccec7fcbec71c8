import B3Chain.Stratum.Difficulties

/-!
# The share target of the CPU miner

`target_from_share_difficulty` of the Python miner is meant to compute the
integer that the pool computes.  It truncates the difficulty in millionths,
though, where the pool rounds it.  So the two agree on the difficulties that the
pool rounds down; on the others the miner's target is the easier one, and some
of the shares it submits are below the pool's difficulty.
-/

namespace B3Chain.Stratum

/-- `target_from_share_difficulty`, with the product taken exactly. -/
def minerTargetFromShareDifficulty (shareDiff : ℚ) : Nat :=
  if shareDiff ≤ 0 then 2 ^ 256 - 1
  else
    let scaled := ⌊shareDiff * 1000000⌋
    if scaled ≤ 0 then 2 ^ 256 - 1
    else poolDiff1Target * 1000000 / scaled.toNat

/-- The difficulty in whole millionths. -/
def wholeMillionths (d : ℚ) : Nat :=
  ⌊d * 1000000⌋.toNat

theorem wholeMillionths_pos {d : ℚ} (least : minShareDifficulty ≤ d) :
    0 < wholeMillionths d := by
  rw [minShareDifficulty] at least
  have one : (1 : ℤ) ≤ ⌊d * 1000000⌋ := by
    rw [Int.le_floor]
    push_cast
    linarith
  rw [wholeMillionths]
  omega

theorem minerTarget_eq {d : ℚ} (least : minShareDifficulty ≤ d) :
    minerTargetFromShareDifficulty d =
      poolDiff1Target * 1000000 / wholeMillionths d := by
  have positive := wholeMillionths_pos least
  have above : ¬ d ≤ 0 := by
    rw [minShareDifficulty] at least
    linarith
  rw [wholeMillionths] at positive ⊢
  rw [minerTargetFromShareDifficulty, if_neg above]
  dsimp only
  rw [if_neg (by omega)]

/-- The pool rounds the millionths down below one half and up from there. -/
theorem scaledDiff_eq {d : ℚ} (least : minShareDifficulty ≤ d) :
    scaledDiff d =
      if Int.fract (d * 1000000) < 1 / 2 then wholeMillionths d
      else wholeMillionths d + 1 := by
  have positive := wholeMillionths_pos least
  have parts := Int.floor_add_fract (d * 1000000)
  have below := Int.fract_lt_one (d * 1000000)
  have nonnegative := Int.fract_nonneg (d * 1000000)
  rw [wholeMillionths] at positive ⊢
  rw [scaledDiff]
  split_ifs with half
  · have down : ⌊d * 1000000 + 1 / 2⌋ = ⌊d * 1000000⌋ := by
      rw [Int.floor_eq_iff]
      constructor
      · linarith
      · linarith
    rw [down]
  · have up : ⌊d * 1000000 + 1 / 2⌋ = ⌊d * 1000000⌋ + 1 := by
      rw [Int.floor_eq_iff]
      push_cast
      constructor
      · linarith
      · linarith
    rw [up]
    omega

/-- A quotient by the next divisor is the same if the remainder covers it. -/
theorem div_succ_eq_iff {number divisor : Nat} (positive : 0 < divisor) :
    number / (divisor + 1) = number / divisor ↔
      number / divisor ≤ number % divisor := by
  have split := Nat.div_add_mod number divisor
  have small := Nat.mod_lt number positive
  have le : number / (divisor + 1) ≤ number / divisor :=
    Nat.div_le_div_left (Nat.le_succ divisor) positive
  rw [le_antisymm_iff, and_iff_right le,
    Nat.le_div_iff_mul_le (Nat.succ_pos divisor), Nat.mul_succ,
    Nat.mul_comm]
  omega

/-- The miner and the pool compute the same target exactly when the difficulty
has less than half a millionth beyond its whole millionths, or when the diff-1
target divides so that one more millionth does not show.  Otherwise the miner's
target is the larger one. -/
theorem miner_and_pool_targets_agree_iff
    (d : ℚ) (least : minShareDifficulty ≤ d) :
    (targetFromShareDifficulty d =
        .ok (minerTargetFromShareDifficulty d) ↔
      Int.fract (d * 1000000) < 1 / 2 ∨
        poolDiff1Target * 1000000 / wholeMillionths d ≤
          poolDiff1Target * 1000000 % wholeMillionths d) ∧
      ∃ target, targetFromShareDifficulty d = .ok target ∧
        target ≤ minerTargetFromShareDifficulty d := by
  have positive := wholeMillionths_pos least
  rw [minerTarget_eq least]
  refine ⟨?_, _, targetFromShareDifficulty_eq_ok_iff.mpr ⟨least, rfl⟩, ?_⟩
  · rw [targetFromShareDifficulty_eq_ok_iff, and_iff_right least,
      scaledDiff_eq least]
    by_cases half : Int.fract (d * 1000000) < 1 / 2
    · rw [if_pos half]
      exact iff_of_true rfl (Or.inl half)
    · rw [if_neg half, or_iff_right half, eq_comm, div_succ_eq_iff positive]
  · apply Nat.div_le_div_left _ positive
    rw [scaledDiff_eq least]
    split_ifs
    · exact le_rfl
    · exact Nat.le_succ _

/-- At difficulty one both use the diff-1 target. -/
theorem targets_agree_at_one :
    targetFromShareDifficulty 1 = .ok (minerTargetFromShareDifficulty 1) :=
  (miner_and_pool_targets_agree_iff 1 (by norm_num [minShareDifficulty])).1.mpr
    (Or.inl (by norm_num [Int.fract]))

/-- At 0.0000015 the miner's target is twice the pool's. -/
theorem targets_differ_above_the_least :
    minShareDifficulty ≤ 3 / 2000000 ∧
      targetFromShareDifficulty (3 / 2000000) =
        .ok (poolDiff1Target * 1000000 / 2) ∧
      minerTargetFromShareDifficulty (3 / 2000000) =
        poolDiff1Target * 1000000 := by
  refine ⟨by norm_num [minShareDifficulty], by decide +kernel,
    by decide +kernel⟩

end B3Chain.Stratum
