import B3Chain.Limbs.Division

/-!
# The 256-bit integer of `arith_uint256`

`base_uint<256>` keeps eight 32-bit limbs, least significant first, and
computes with 64-bit accumulators.  The operators below are its loops, written
over the limb lists of the library.  Every operator comes with the value it
has on natural numbers, so that later modules never look at limbs again.
-/

namespace B3Chain.Arith

open B3Chain.Limbs

/-- Eight 32-bit limbs, least significant first. -/
structure ArithUint256 where
  pn : List Nat
  width : pn.length = 8
  fits : Fits 32 pn
deriving DecidableEq

namespace ArithUint256

/-- The number represented by the limbs. -/
def toNat (number : ArithUint256) : Nat :=
  value 32 number.pn

theorem radix_pow_width (number : ArithUint256) :
    radix 32 ^ number.pn.length = 2 ^ 256 := by
  rw [radix_pow, number.width]

theorem toNat_lt (number : ArithUint256) :
    number.toNat < 2 ^ 256 := by
  rw [← number.radix_pow_width]
  exact value_lt number.fits

/-! ## Construction and access -/

/-- `base_uint(uint64_t)`: the two low limbs, the others zero. -/
def ofUint64 (number : Nat) : ArithUint256 where
  pn := [number % 2 ^ 32, (number >>> 32) % 2 ^ 32, 0, 0, 0, 0, 0, 0]
  width := rfl
  fits := by
    have positive : 0 < radix 32 := radix_pos 32
    have low : number % 2 ^ 32 < radix 32 := Nat.mod_lt _ positive
    have high : (number >>> 32) % 2 ^ 32 < radix 32 :=
      Nat.mod_lt _ positive
    exact fits_cons.mpr
      ⟨low, fits_cons.mpr ⟨high, fits_replicate_zero 32 6⟩⟩

theorem toNat_ofUint64
    {number : Nat} (bounded : number < 2 ^ 64) :
    (ofUint64 number).toNat = number := by
  simp only [toNat, ofUint64, value_cons, value_nil, radix,
    Nat.shiftRight_eq_div_pow]
  omega

/-- The limbs of a natural number below `2 ^ 256`. -/
def ofNat (number : Nat) : ArithUint256 where
  pn := tabulate 8 fun index => number / radix 32 ^ index % radix 32
  width := by simp
  fits := fits_tabulate fun _ => Nat.mod_lt _ (radix_pos 32)

theorem toNat_ofNat
    {number : Nat} (bounded : number < 2 ^ 256) :
    (ofNat number).toNat = number := by
  rw [toNat, ofNat, value_tabulate_digits, radix_pow]
  exact Nat.mod_eq_of_lt bounded

/-- `GetLow64`: the two low limbs joined. -/
def getLow64 (number : ArithUint256) : Nat :=
  limbAt number.pn 0 ||| (limbAt number.pn 1 <<< 32)

theorem getLow64_eq (number : ArithUint256) :
    number.getLow64 = number.toNat % 2 ^ 64 := by
  apply Nat.eq_of_testBit_eq
  intro index
  rw [getLow64, Nat.testBit_or, Nat.testBit_shiftLeft,
    Nat.testBit_mod_two_pow, toNat, testBit_value (by norm_num) number.fits]
  have lowFits := limbAt_lt number.fits 0
  have highFits := limbAt_lt number.fits 1
  rcases Nat.lt_or_ge index 32 with low | notLow
  · have word : index / 32 = 0 := by omega
    have bit : index % 32 = index := by omega
    have small : index < 64 := by omega
    have notHigh : ¬ index ≥ 32 := by omega
    simp [word, bit, small, notHigh]
  · have lowClear : (limbAt number.pn 0).testBit index = false :=
      Nat.testBit_lt_two_pow (lt_of_lt_of_le lowFits
        (Nat.pow_le_pow_right (by norm_num) notLow))
    rcases Nat.lt_or_ge index 64 with middle | beyond
    · have word : index / 32 = 1 := by omega
      have bit : index % 32 = index - 32 := by omega
      simp [lowClear, word, bit, middle, notLow]
    · have highClear :
          (limbAt number.pn 1).testBit (index - 32) = false :=
        Nat.testBit_lt_two_pow (lt_of_lt_of_le highFits
          (Nat.pow_le_pow_right (by norm_num) (by omega)))
      have notSmall : ¬ index < 64 := by omega
      simp [lowClear, highClear, notSmall]

/-- `bits`: position of the highest set bit plus one. -/
def bits (number : ArithUint256) : Nat :=
  bitLength 32 number.pn

theorem bits_eq (number : ArithUint256) :
    number.bits = number.toNat.size :=
  bitLength_eq_size (by norm_num) number.fits

/-! ## Comparison -/

/-- `CompareTo`: most significant limb first. -/
def compareTo (left right : ArithUint256) : Ordering :=
  compareLimbs left.pn right.pn

theorem compareTo_eq (left right : ArithUint256) :
    left.compareTo right = compare left.toNat right.toNat :=
  compareLimbs_eq left.fits right.fits
    (left.width.trans right.width.symm)

/-- `operator>`. -/
def gt (left right : ArithUint256) : Bool :=
  left.compareTo right == .gt

@[simp]
theorem gt_iff (left right : ArithUint256) :
    left.gt right = true ↔ right.toNat < left.toNat := by
  rw [gt, beq_iff_eq, compareTo_eq, Nat.compare_eq_gt]

/-- `operator<`. -/
def lt (left right : ArithUint256) : Bool :=
  left.compareTo right == .lt

@[simp]
theorem lt_iff (left right : ArithUint256) :
    left.lt right = true ↔ left.toNat < right.toNat := by
  rw [lt, beq_iff_eq, compareTo_eq, Nat.compare_eq_lt]

/-- `EqualTo(uint64_t)`: high limbs zero, low limbs equal. -/
def equalTo (number : ArithUint256) (word : Nat) : Bool :=
  (number.pn.drop 2).all (· == 0) &&
    limbAt number.pn 1 == word >>> 32 &&
    limbAt number.pn 0 == word % 2 ^ 32

@[simp]
theorem equalTo_iff
    (number : ArithUint256) (word : Nat) (bounded : word < 2 ^ 64) :
    number.equalTo word = true ↔ number.toNat = word := by
  obtain ⟨pn, width, fits⟩ := number
  match pn, width with
  | [a, b, c, d, e, f, g, h], _ =>
    simp only [Fits, radix, List.mem_cons, List.not_mem_nil, or_false,
      forall_eq_or_imp, forall_eq] at fits
    simp only [equalTo, toNat, List.drop_succ_cons, List.drop_zero,
      List.all_cons, List.all_nil, limbAt_cons_zero, limbAt_cons_succ,
      value_cons, value_nil, radix, Nat.shiftRight_eq_div_pow,
      Bool.and_eq_true, beq_iff_eq, Bool.and_true]
    omega

/-! ## Arithmetic -/

/-- `operator+=`. -/
def add (left right : ArithUint256) : ArithUint256 where
  pn := addCarry 32 0 left.pn right.pn
  width := by
    rw [length_addCarry 32 0 _ _ (left.width.trans right.width.symm),
      left.width]
  fits := fits_addCarry 32 0 _ _

theorem toNat_add (left right : ArithUint256) :
    (left.add right).toNat = (left.toNat + right.toNat) % 2 ^ 256 := by
  rw [toNat, add, value_addCarry 32 0 _ _
    (left.width.trans right.width.symm), radix_pow_width, Nat.zero_add]
  rfl

/-- `operator*=(uint32_t)`. -/
def mulUint32 (number : ArithUint256) (factor : Nat) : ArithUint256 where
  pn := mulWord 32 factor 0 number.pn
  width := by rw [length_mulWord, number.width]
  fits := fits_mulWord 32 factor 0 _

theorem toNat_mulUint32
    (number : ArithUint256) (factor : Nat) :
    (number.mulUint32 factor).toNat =
      (factor * number.toNat) % 2 ^ 256 := by
  rw [toNat, mulUint32, value_mulWord, radix_pow_width, Nat.zero_add]
  rfl

/-- `operator<<=`. -/
def shiftLeft (number : ArithUint256) (shift : Nat) : ArithUint256 where
  pn := Limbs.shiftLeft 32 number.pn shift
  width := by rw [length_shiftLeft, number.width]
  fits := fits_shiftLeft number.fits shift

theorem toNat_shiftLeft
    (number : ArithUint256) (shift : Nat) :
    (number.shiftLeft shift).toNat =
      (number.toNat * 2 ^ shift) % 2 ^ 256 := by
  rw [toNat, shiftLeft, value_shiftLeft (by norm_num) number.fits,
    radix_pow_width]
  rfl

/-- `operator>>=`. -/
def shiftRight (number : ArithUint256) (shift : Nat) : ArithUint256 where
  pn := Limbs.shiftRight 32 number.pn shift
  width := by rw [length_shiftRight, number.width]
  fits := fits_shiftRight number.fits shift

theorem toNat_shiftRight
    (number : ArithUint256) (shift : Nat) :
    (number.shiftRight shift).toNat = number.toNat / 2 ^ shift :=
  value_shiftRight (by norm_num) number.fits shift

/-- `operator/=`; division by zero throws `uint_error`. -/
def div (numerator divisor : ArithUint256) : Option ArithUint256 :=
  match divided : divide 32 numerator.pn divisor.pn with
  | none => none
  | some limbs =>
    have shape := divide_shape (by norm_num) numerator.fits
      divisor.fits (divisor.width.trans numerator.width.symm) divided
    some ⟨limbs, shape.1.trans numerator.width, shape.2⟩

/-- A nonzero divisor never throws, and the quotient is the exact one. -/
theorem div_eq
    (numerator divisor : ArithUint256)
    (nonzero : divisor.toNat ≠ 0) :
    ∃ quotient,
      numerator.div divisor = some quotient ∧
        quotient.toNat = numerator.toNat / divisor.toNat := by
  obtain ⟨limbs, divided, fits, length, quotientValue⟩ :=
    divide_spec (by norm_num) numerator.fits divisor.fits
      (divisor.width.trans numerator.width.symm) nonzero
  rw [numerator.width] at length
  refine ⟨⟨limbs, length, fits⟩, ?_, quotientValue⟩
  rw [div]
  split
  · rename_i threw
    rw [threw] at divided
    cases divided
  · rename_i found foundEq
    rw [foundEq] at divided
    cases divided
    rfl

end ArithUint256

end B3Chain.Arith
