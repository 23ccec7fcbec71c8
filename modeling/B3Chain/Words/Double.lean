import Mathlib

/-!
# Rounding to doubles

A quotient, a product or a difference of ECMAScript is the double nearest to
the exact result, the even one of two.  The exponent of a double is taken
without bounds here.  Each rounding changes a number by a factor close to 1;
`Near` counts the roundings between two numbers.
-/

namespace B3Chain.Words.Double

/-- The nearest integer, the even one of two. -/
def evenRound (x : ℚ) : ℤ :=
  if 2 * (x - ⌊x⌋) < 1 ∨ (2 * (x - ⌊x⌋) = 1 ∧ ⌊x⌋ % 2 = 0) then ⌊x⌋
  else ⌊x⌋ + 1

/-- The weight of the last of the 53 bits of a double. -/
def lastBit (x : ℚ) : ℚ := 2 ^ (Int.log 2 |x| - 52)

/-- The nearest double. -/
def nearest (x : ℚ) : ℚ := evenRound (x / lastBit x) * lastBit x

theorem evenRound_error (x : ℚ) : |evenRound x - x| ≤ 1 / 2 := by
  have low := Int.floor_le x
  have high := Int.lt_floor_add_one x
  rw [evenRound, abs_le]
  split
  · next down =>
      have half : 2 * (x - ⌊x⌋) ≤ 1 := down.elim le_of_lt fun tie => tie.1.le
      constructor <;> linarith
  · next up =>
      have half : 1 ≤ 2 * (x - ⌊x⌋) := not_lt.mp fun less => up (.inl less)
      push_cast
      constructor <;> linarith

/-- A double is off by at most half of its last bit. -/
theorem nearest_error (x : ℚ) : |nearest x - x| ≤ |x| / 2 ^ 53 := by
  obtain rfl | other := eq_or_ne x 0
  · simp [nearest, evenRound]
  · have positive : 0 < lastBit x := zpow_pos (by norm_num) _
    have leading : lastBit x * 2 ^ 52 ≤ |x| := by
      have power := Int.zpow_log_le_self Nat.one_lt_two (abs_pos.mpr other)
      rw [lastBit, zpow_sub₀ (by norm_num)]
      exact (div_mul_cancel₀ _ (by norm_num)).trans_le power
    have scaled : nearest x - x =
        (evenRound (x / lastBit x) - x / lastBit x) * lastBit x := by
      rw [nearest, sub_mul, div_mul_cancel₀ _ positive.ne']
    calc |nearest x - x|
        = |evenRound (x / lastBit x) - x / lastBit x| * lastBit x := by
          rw [scaled, abs_mul, abs_of_pos positive]
      _ ≤ 1 / 2 * lastBit x :=
          mul_le_mul_of_nonneg_right (evenRound_error _) positive.le
      _ ≤ |x| / 2 ^ 53 := by linarith

theorem nearest_nonpos {x : ℚ} (nonpos : x ≤ 0) : nearest x ≤ 0 := by
  have error := abs_le.mp (nearest_error x)
  rw [abs_of_nonpos nonpos] at error
  linarith

/-! ## Counting roundings -/

/-- The most a rounding changes a number, as a factor. -/
def factor : ℚ := 1 + 1 / 2 ^ 52

theorem one_le_factor : 1 ≤ factor := by
  norm_num [factor]

/-- Two numbers with so many roundings between them. -/
def Near (count : Nat) (x y : ℚ) : Prop :=
  x ≤ y * factor ^ count ∧ y ≤ x * factor ^ count

section

variable {x y z c : ℚ} {count other : Nat}

theorem near_self (nonneg : 0 ≤ x) : Near count x x := by
  have grown := le_mul_of_one_le_right nonneg
    (one_le_pow₀ one_le_factor : 1 ≤ factor ^ count)
  exact ⟨grown, grown⟩

theorem near_nearest (nonneg : 0 ≤ x) : Near 1 (nearest x) x := by
  have error := abs_le.mp (nearest_error x)
  rw [abs_of_nonneg nonneg] at error
  rw [Near, pow_one, factor]
  constructor <;> linarith

/-- A difference, whichever is larger. -/
theorem near_abs_nearest (x : ℚ) : Near 1 |nearest x| |x| := by
  have error := nearest_error x
  have above := abs_sub_abs_le_abs_sub (nearest x) x
  have below := abs_sub_abs_le_abs_sub x (nearest x)
  rw [abs_sub_comm] at below
  have size := abs_nonneg x
  rw [Near, pow_one, factor]
  constructor <;> linarith

theorem Near.trans (first : Near count x y) (second : Near other y z) :
    Near (count + other) x z := by
  have positive : 0 ≤ factor := zero_le_one.trans one_le_factor
  have one := pow_nonneg positive count
  have two := pow_nonneg positive other
  constructor
  · calc x ≤ y * factor ^ count := first.1
      _ ≤ z * factor ^ other * factor ^ count :=
          mul_le_mul_of_nonneg_right second.1 one
      _ = z * factor ^ (count + other) := by rw [pow_add]; ring
  · calc z ≤ y * factor ^ other := second.2
      _ ≤ x * factor ^ count * factor ^ other :=
          mul_le_mul_of_nonneg_right first.2 two
      _ = x * factor ^ (count + other) := by rw [pow_add]; ring

theorem Near.div (near : Near count x y) (nonneg : 0 ≤ c) :
    Near count (x / c) (y / c) := by
  constructor
  · rw [div_mul_eq_mul_div]
    exact div_le_div_of_nonneg_right near.1 nonneg
  · rw [div_mul_eq_mul_div]
    exact div_le_div_of_nonneg_right near.2 nonneg

/-- A quotient, rounded in the denominator. -/
theorem Near.const_div (near : Near count x y) (nonneg : 0 ≤ c)
    (left : 0 < x) (right : 0 < y) : Near count (c / x) (c / y) := by
  constructor
  · rw [div_mul_eq_mul_div, div_le_div_iff₀ left right, mul_assoc,
      mul_comm _ x]
    exact mul_le_mul_of_nonneg_left near.2 nonneg
  · rw [div_mul_eq_mul_div, div_le_div_iff₀ right left, mul_assoc,
      mul_comm _ y]
    exact mul_le_mul_of_nonneg_left near.1 nonneg

theorem Near.mul_le (near : Near count x y) (nonneg : 0 ≤ c)
    (small : y * c ≤ 1) : x * c ≤ factor ^ count :=
  calc x * c ≤ y * factor ^ count * c :=
        mul_le_mul_of_nonneg_right near.1 nonneg
    _ = y * c * factor ^ count := by ring
    _ ≤ factor ^ count := mul_le_of_le_one_left
        (pow_nonneg (zero_le_one.trans one_le_factor) count) small

theorem Near.pos (near : Near count x y) (right : 0 < y) : 0 < x := by
  have positive := pow_pos (zero_lt_one.trans_le one_le_factor) count
  exact (mul_pos_iff_of_pos_right positive).mp (right.trans_le near.2)

end

end B3Chain.Words.Double
