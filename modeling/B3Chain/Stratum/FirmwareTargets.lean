import B3Chain.Limbs.Division
import B3Chain.Stratum.Difficulties

/-!
# The share targets of the firmware and the GPU miner

The firmware divides the scaled diff-1 target, held in eight 32-bit limbs, by a
64-bit divisor one bit at a time; the Rust miner uses big integers, as the pool
does.  All three round a difficulty to millionths the same way, and all three
refuse one below the smallest, even if it would round to one millionth.
-/

namespace B3Chain.Stratum

open Words
open Limbs

/-! ## The firmware -/

/-- `limbs`: the diff-1 target, lowest limb first. -/
def diff1Limbs : List Nat := [0, 0, 0, 0, 0, 0, 0xFFFF0000, 0]

/-- The loop that multiplies by a million; it ends with the last carry. -/
def scaleLimbs : Nat → List Nat → List Nat × Nat
  | carry, [] => ([], carry)
  | carry, limb :: rest =>
    let product := (limb * 1000000 + carry) % 2 ^ 64
    let scaled := scaleLimbs (product >>> 32) rest
    (product % 2 ^ 32 :: scaled.1, scaled.2)

/-- `remainder` and `quotient`. -/
structure Division where
  remainder : Nat
  quotient : List Nat

/-- The body of the division loop, on `uint64_t` remainders. -/
def divisionStep (limbs : List Nat) (scaledDiff bit : Nat)
    (state : Division) : Division :=
  let inputBit := (limbAt limbs (bit / 32) >>> (bit % 32)) &&& 1
  let overflow := state.remainder >>> 63 ≠ 0
  let remainder := (state.remainder <<< 1) % 2 ^ 64 ||| inputBit
  if overflow ∨ remainder ≥ scaledDiff then
    { remainder := (remainder + 2 ^ 64 - scaledDiff) % 2 ^ 64
      quotient := setBit 32 state.quotient bit }
  else { state with remainder }

/-- The division loop over the lowest bits, from the top one down. -/
def divisionLoop (limbs : List Nat) (scaledDiff : Nat) :
    Nat → Division → Division
  | 0, state => state
  | bit + 1, state =>
    divisionLoop limbs scaledDiff bit
      (divisionStep limbs scaledDiff bit state)

/-- The four bytes of a word, highest first. -/
def wordBytes (word : Nat) : List Byte :=
  [BitVec.ofNat 8 (word >>> 24), BitVec.ofNat 8 (word >>> 16),
    BitVec.ofNat 8 (word >>> 8), BitVec.ofNat 8 word]

/-- `target_from_share_diff`, with the product taken exactly; `none` is
`ESP_ERR_INVALID_ARG`. -/
def targetFromShareDiff (difficulty : ℚ) : Option (List Byte) :=
  if ¬ difficulty ≥ minShareDifficulty then none
  else
    -- `llround`, which the code applies within the range of `long long`
    let scaledDiff := ⌊difficulty * 1000000 + 1 / 2⌋.toNat % 2 ^ 64
    if scaledDiff = 0 then none
    else
      let scaled := scaleLimbs 0 diff1Limbs
      if scaled.2 ≠ 0 then none
      else
        let division := divisionLoop scaled.1 scaledDiff 256
          ⟨0, List.replicate 8 0⟩
        some ((List.range 8).flatMap fun i =>
          wordBytes (limbAt division.quotient (7 - i)))

/-! ## The GPU miner -/

/-- `target_from_share_difficulty` of the Rust miner, with the product taken
exactly. -/
def rustTargetFromShareDifficulty (shareDiff : ℚ) : Except String Nat :=
  if shareDiff ≤ 0 then .error "share difficulty must be finite and > 0"
  else if shareDiff < minShareDifficulty then
    .error "share difficulty is below the smallest one"
  else
    let scaled := min ⌊shareDiff * 1000000 + 1 / 2⌋ (2 ^ 127 - 1)
    if scaled ≤ 0 then
      .error "share difficulty failed fixed-point conversion"
    else .ok (poolDiff1Target * 1000000 / scaled.toNat)

/-! ## The division loop -/

/-- What the loop has reached with `bits` bits to go. -/
structure Division.Reached (limbs : List Nat) (divisor bits : Nat)
    (state : Division) : Prop where
  fits : Fits 32 state.quotient
  length : state.quotient.length = 8
  remainder : state.remainder = value 32 limbs / 2 ^ bits % divisor
  quotient : value 32 state.quotient =
    value 32 limbs / 2 ^ bits / divisor * 2 ^ bits

theorem limb_bit {limbs : List Nat} (fits : Fits 32 limbs) (bit : Nat) :
    (limbAt limbs (bit / 32) >>> (bit % 32)) &&& 1 =
      value 32 limbs / 2 ^ bit % 2 := by
  have same := testBit_value (by decide) fits bit
  rw [Nat.testBit_eq_decide_div_mod_eq, Nat.testBit_eq_decide_div_mod_eq,
    decide_eq_decide] at same
  rw [Nat.and_one_is_mod, Nat.shiftRight_eq_div_pow]
  omega

/-- The remainder shifted in a 64-bit word. -/
theorem shifted_remainder (remainder : Nat) {bit : Nat} (small : bit < 2) :
    (remainder <<< 1) % 2 ^ 64 ||| bit =
      (2 * remainder) % 2 ^ 64 + bit := by
  have even : (remainder <<< 1) % 2 ^ 64 = (remainder % 2 ^ 63) <<< 1 := by
    rw [Nat.shiftLeft_eq, Nat.shiftLeft_eq]
    omega
  rw [even, ← Nat.shiftLeft_add_eq_or_of_lt small, Nat.shiftLeft_eq]
  omega

/-- One more bit of the number, where the divisor fits once more. -/
theorem div_mod_of_fits {number divisor : Nat} (positive : 0 < divisor)
    (fits : divisor ≤ 2 * (number / 2 % divisor) + number % 2) :
    number / divisor = 2 * (number / 2 / divisor) + 1 ∧
      number % divisor =
        2 * (number / 2 % divisor) + number % 2 - divisor := by
  have below := Nat.mod_lt (number / 2) positive
  have euclid := Nat.div_add_mod (number / 2) divisor
  have product : divisor * (2 * (number / 2 / divisor) + 1) =
      2 * (divisor * (number / 2 / divisor)) + divisor := by
    ring
  rw [Nat.div_mod_unique positive, product]
  omega

/-- The same where the divisor does not fit. -/
theorem div_mod_of_lt {number divisor : Nat} (positive : 0 < divisor)
    (less : 2 * (number / 2 % divisor) + number % 2 < divisor) :
    number / divisor = 2 * (number / 2 / divisor) ∧
      number % divisor = 2 * (number / 2 % divisor) + number % 2 := by
  have euclid := Nat.div_add_mod (number / 2) divisor
  rw [Nat.div_mod_unique positive, Nat.mul_left_comm]
  omega

theorem Division.Reached.step {limbs : List Nat} {divisor bit : Nat}
    {state : Division} (fits : Fits 32 limbs) (positive : 0 < divisor)
    (word : divisor < 2 ^ 64) (inside : bit < 256)
    (reached : state.Reached limbs divisor (bit + 1)) :
    (divisionStep limbs divisor bit state).Reached limbs divisor bit := by
  obtain ⟨quotientFits, length, remainder, quotient⟩ := reached
  rw [pow_succ, ← Nat.div_div_eq_div_mul] at remainder quotient
  have below : state.remainder < divisor :=
    remainder ▸ Nat.mod_lt _ positive
  have bitSmall := Nat.mod_lt (value 32 limbs / 2 ^ bit) Nat.two_pos
  rw [divisionStep, limb_bit fits, shifted_remainder _ bitSmall,
    Nat.shiftRight_eq_div_pow]
  split_ifs with subtracts
  · have large : divisor ≤ 2 * state.remainder +
        value 32 limbs / 2 ^ bit % 2 := by
      omega
    obtain ⟨quotientEq, remainderEq⟩ :=
      div_mod_of_fits positive (remainder ▸ large)
    refine ⟨fits_setBit (by decide) quotientFits bit, by simpa using length,
      ?_, ?_⟩
    · -- The wrapped difference is the true one, as it is below the divisor.
      rw [remainderEq, ← remainder]
      dsimp only
      omega
    · have clear : value 32 state.quotient % 2 ^ (bit + 1) = 0 := by
        rw [quotient, pow_succ, Nat.mul_mod_left]
      rw [value_setBit (by decide) quotientFits (by omega),
        or_two_pow_eq_add clear, quotient, quotientEq]
      ring
  · have small : 2 * state.remainder + value 32 limbs / 2 ^ bit % 2 <
        divisor := by
      omega
    obtain ⟨quotientEq, remainderEq⟩ :=
      div_mod_of_lt positive (remainder ▸ small)
    refine ⟨quotientFits, length, ?_, ?_⟩
    · rw [remainderEq, ← remainder]
      dsimp only
      omega
    · rw [quotient, quotientEq]
      ring

theorem Division.Reached.loop {limbs : List Nat} {divisor bits : Nat}
    {state : Division} (fits : Fits 32 limbs) (positive : 0 < divisor)
    (word : divisor < 2 ^ 64) (inside : bits ≤ 256)
    (reached : state.Reached limbs divisor bits) :
    (divisionLoop limbs divisor bits state).Reached limbs divisor 0 := by
  induction bits generalizing state with
  | zero => exact reached
  | succ bit induction =>
    exact induction (by omega) (reached.step fits positive word (by omega))

/-! ## Bytes -/

/-- The bytes of the words from the top are those of the number. -/
theorem flatMap_wordBytes {limbs : List Nat} (fits : Fits 32 limbs) :
    limbs.reverse.flatMap wordBytes =
      (leBytes (4 * limbs.length) (value 32 limbs)).reverse := by
  induction limbs with
  | nil => rfl
  | cons limb rest induction =>
    rw [fits_cons] at fits
    obtain ⟨small, fits⟩ := fits
    have wide : radix 32 = 4294967296 := by decide
    rw [wide] at small
    have rest_eq : (limb + 4294967296 * value 32 rest) / 256 / 256 / 256 /
        256 = value 32 rest := by
      omega
    have byte : ∀ left right : Nat, left % 256 = right % 256 →
        BitVec.ofNat 8 left = BitVec.ofNat 8 right := by
      intro left right same
      apply BitVec.eq_of_toNat_eq
      rw [BitVec.toNat_ofNat, BitVec.toNat_ofNat]
      exact same
    rw [List.length_cons, Nat.mul_add, value_cons, wide,
      List.reverse_cons, List.flatMap_append, induction fits]
    simp only [leBytes, rest_eq, List.reverse_cons, List.append_assoc,
      List.flatMap_singleton, wordBytes, Nat.shiftRight_eq_div_pow]
    refine congrArg _ ?_
    simp only [List.cons_append, List.nil_append, List.cons.injEq, and_true]
    refine ⟨byte _ _ ?_, byte _ _ ?_, byte _ _ ?_, byte _ _ ?_⟩
    all_goals omega

theorem flatMap_range_wordBytes {limbs : List Nat} (fits : Fits 32 limbs)
    (length : limbs.length = 8) :
    ((List.range 8).flatMap fun i => wordBytes (limbAt limbs (7 - i))) =
      (leBytes 32 (value 32 limbs)).reverse := by
  have words := flatMap_wordBytes fits
  rw [length] at words
  rw [← words]
  match limbs, length with
  | [_, _, _, _, _, _, _, _], _ => rfl

/-! ## Agreement -/

theorem scaleLimbs_diff1 :
    Fits 32 (scaleLimbs 0 diff1Limbs).1 ∧
      (scaleLimbs 0 diff1Limbs).2 = 0 ∧
      value 32 (scaleLimbs 0 diff1Limbs).1 = poolDiff1Target * 1000000 := by
  refine ⟨?_, by decide, by decide +kernel⟩
  intro limb member
  revert limb
  decide

theorem targetFromShareDiff_eq {d : ℚ} (least : minShareDifficulty ≤ d)
    (most : scaledDiff d < 2 ^ 64) :
    targetFromShareDiff d =
      some (leBytes 32
        (poolDiff1Target * 1000000 / scaledDiff d)).reverse := by
  obtain ⟨fits, carry, product⟩ := scaleLimbs_diff1
  have positive := scaledDiff_pos least
  have start : (Division.mk 0 (List.replicate 8 0)).Reached
      (scaleLimbs 0 diff1Limbs).1 (scaledDiff d) 256 := by
    have none : value 32 (scaleLimbs 0 diff1Limbs).1 / 2 ^ 256 = 0 := by
      rw [product]
      decide +kernel
    refine ⟨fits_replicate_zero 32 8, List.length_replicate, ?_, ?_⟩
    · rw [none, Nat.zero_mod]
    · rw [none, Nat.zero_div, Nat.zero_mul, value_replicate_zero]
  have ended := start.loop fits positive most le_rfl
  have quotient := ended.quotient
  rw [pow_zero, Nat.div_one, Nat.mul_one, product] at quotient
  rw [targetFromShareDiff, if_neg (not_not.mpr least)]
  dsimp only
  rw [← scaledDiff, Nat.mod_eq_of_lt most, if_neg positive.ne',
    if_neg (not_not.mpr carry), flatMap_range_wordBytes ended.fits
      ended.length, quotient]

theorem rustTarget_eq {d : ℚ} (least : minShareDifficulty ≤ d)
    (most : scaledDiff d < 2 ^ 64) :
    rustTargetFromShareDifficulty d =
      .ok (poolDiff1Target * 1000000 / scaledDiff d) := by
  have positive := scaledDiff_pos least
  have above : ¬ d ≤ 0 := by
    rw [minShareDifficulty] at least
    linarith
  rw [scaledDiff] at positive most ⊢
  rw [rustTargetFromShareDifficulty, if_neg above, if_neg (not_lt.mpr least)]
  dsimp only
  rw [min_eq_left (by omega), if_neg (by omega)]

/--
For a difficulty whose millionths round to a number of at most 63 bits, the
firmware, the GPU miner and the pool compute the same target, and the firmware
writes its 32 bytes from the highest; a difficulty below the smallest one is
refused by all three.
-/
theorem firmware_gpu_and_pool_targets_agree (d : ℚ)
    (rounds : 1 ≤ scaledDiff d) (most : scaledDiff d ≤ 2 ^ 63 - 1) :
    if minShareDifficulty ≤ d then
      let target := poolDiff1Target * 1000000 / scaledDiff d
      targetFromShareDiff d = some (leBytes 32 target).reverse ∧
        target < 2 ^ 256 ∧
        rustTargetFromShareDifficulty d = .ok target ∧
        targetFromShareDifficulty d = .ok target
    else
      targetFromShareDiff d = none ∧
        (∃ reason, rustTargetFromShareDifficulty d = .error reason) ∧
        ∃ reason, targetFromShareDifficulty d = .error reason := by
  split_ifs with least
  · have word : scaledDiff d < 2 ^ 64 := by omega
    refine ⟨targetFromShareDiff_eq least word, ?_, rustTarget_eq least word,
      targetFromShareDifficulty_eq_ok_iff.mpr ⟨least, rfl⟩⟩
    exact (Nat.div_le_self _ _).trans_lt (by decide +kernel)
  · refine ⟨if_pos least, ?_, ?_⟩
    · rw [rustTargetFromShareDifficulty, if_pos (not_le.mp least)]
      split_ifs <;> exact ⟨_, rfl⟩
    · cases found : targetFromShareDifficulty d with
      | error reason => exact ⟨reason, rfl⟩
      | ok target =>
        exact absurd (targetFromShareDifficulty_eq_ok_iff.mp found).1 least

/-- At difficulty one all three have the diff-1 target. -/
theorem targets_agree_at_diff1 :
    targetFromShareDiff 1 = some (leBytes 32 poolDiff1Target).reverse := by
  have agreed := firmware_gpu_and_pool_targets_agree 1
    (by decide +kernel) (by decide +kernel)
  rw [if_pos (by norm_num [minShareDifficulty])] at agreed
  have same : poolDiff1Target * 1000000 / scaledDiff 1 =
      poolDiff1Target := by
    decide +kernel
  exact same ▸ agreed.1

/-- 0.6 millionths round to one, but no implementation has a target for
them. -/
theorem rounded_up_difficulty_refused :
    scaledDiff (6 / 10000000) = 1 ∧
      targetFromShareDiff (6 / 10000000) = none := by
  refine ⟨by decide +kernel, by decide +kernel⟩

end B3Chain.Stratum
