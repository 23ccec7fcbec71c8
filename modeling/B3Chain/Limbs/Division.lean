import B3Chain.Limbs.Bits

/-!
# Comparison, bit length and restoring division of limb lists

The division is the shift-and-subtract loop: the divisor is aligned with the
numerator, and at every position from the top one the aligned divisor is
subtracted when it still fits, setting that bit of the quotient.  The loop
invariant is that the remaining numerator is below twice the aligned divisor
and that the quotient has no bit below the next position.
-/

namespace B3Chain.Limbs

/-! ## Comparison -/

/-- Compare two limb lists of one length, most significant limb first. -/
def compareLimbs : List Nat → List Nat → Ordering
  | left :: lefts, right :: rights =>
    (compareLimbs lefts rights).then (compare left right)
  | _, _ => .eq

variable {bits : Nat} {limbs : List Nat}

theorem radix_step_lt {left high low : Nat} (leftFits : left < radix bits)
    (ordered : high < low) (right : Nat) :
    left + radix bits * high < right + radix bits * low := by
  have step : radix bits * (high + 1) ≤ radix bits * low :=
    Nat.mul_le_mul_left _ ordered
  rw [Nat.mul_add] at step
  omega

/-- Limb comparison is comparison of the values. -/
theorem compareLimbs_eq {lefts rights : List Nat} (leftFits : Fits bits lefts)
    (rightFits : Fits bits rights) (sameLength : lefts.length = rights.length) :
    compareLimbs lefts rights =
      compare (value bits lefts) (value bits rights) := by
  induction lefts generalizing rights with
  | nil =>
    cases rights with
    | nil => simp [compareLimbs]
    | cons right rights => simp at sameLength
  | cons left lefts induction =>
    cases rights with
    | nil => simp at sameLength
    | cons right rights =>
      rw [fits_cons] at leftFits rightFits
      simp only [List.length_cons, Nat.add_right_cancel_iff]
        at sameLength
      rw [compareLimbs,
        induction leftFits.2 rightFits.2 sameLength,
        value_cons, value_cons]
      rcases Nat.lt_trichotomy (value bits lefts)
          (value bits rights) with below | equal | above
      · rw [Nat.compare_eq_lt.mpr below,
          Nat.compare_eq_lt.mpr
            (radix_step_lt leftFits.1 below right)]
        rfl
      · rw [equal, Nat.compare_eq_eq.mpr rfl]
        simp only [Ordering.then]
        rcases Nat.lt_trichotomy left right with
          less | same | more
        · rw [Nat.compare_eq_lt.mpr less,
            Nat.compare_eq_lt.mpr (by omega)]
        · rw [same, Nat.compare_eq_eq.mpr rfl,
            Nat.compare_eq_eq.mpr rfl]
        · rw [Nat.compare_eq_gt.mpr more,
            Nat.compare_eq_gt.mpr (by omega)]
      · rw [Nat.compare_eq_gt.mpr above,
          Nat.compare_eq_gt.mpr
            (radix_step_lt rightFits.1 above left)]
        rfl

/-! ## Bit length -/

/-- Search downwards for the highest set bit of a nonzero word. -/
def wordLengthBelow (word : Nat) : Nat → Nat
  | 0 => 1
  | position + 1 =>
    if word.testBit (position + 1) then position + 2
    else wordLengthBelow word position

/-- Position of the highest set bit of a limb list plus one, or zero. -/
def bitLength (bits : Nat) : List Nat → Nat
  | [] => 0
  | limb :: rest =>
    if bitLength bits rest ≠ 0 then bits + bitLength bits rest
    else if limb ≠ 0 then wordLengthBelow limb (bits - 1)
    else 0

theorem size_eq_of_bounds
    {number exponent : Nat}
    (lower : 2 ^ exponent ≤ number)
    (upper : number < 2 ^ (exponent + 1)) :
    number.size = exponent + 1 :=
  Nat.le_antisymm (Nat.size_le.mpr upper) (Nat.lt_size.mpr lower)

theorem wordLengthBelow_eq_size
    {word : Nat} (nonzero : word ≠ 0)
    {position : Nat} (bounded : word < 2 ^ (position + 1)) :
    wordLengthBelow word position = word.size := by
  induction position with
  | zero =>
    have one : word = 1 := by
      rw [Nat.zero_add, Nat.pow_one] at bounded
      omega
    subst word
    simp [wordLengthBelow]
  | succ position induction =>
    rw [wordLengthBelow]
    by_cases set : word.testBit (position + 1) = true
    · rw [if_pos set]
      exact (size_eq_of_bounds (Nat.ge_two_pow_of_testBit set)
        bounded).symm
    · rw [if_neg set]
      apply induction
      apply Nat.lt_pow_two_of_testBit
      intro index above
      rcases Nat.eq_or_lt_of_le above with same | beyond
      · rw [← same]
        simpa using set
      · apply Nat.testBit_lt_two_pow
        exact lt_of_lt_of_le bounded
          (Nat.pow_le_pow_right (by norm_num) (by omega))

/-- The scan returns the binary size of the value. -/
theorem bitLength_eq_size (positive : 0 < bits) (fits : Fits bits limbs) :
    bitLength bits limbs = (value bits limbs).size := by
  induction limbs with
  | nil => simp [bitLength]
  | cons limb rest induction =>
    rw [fits_cons] at fits
    rw [bitLength, induction fits.2, value_cons]
    by_cases restZero : value bits rest = 0
    · rw [restZero, Nat.size_zero, Nat.mul_zero, Nat.add_zero]
      by_cases limbZero : limb = 0
      · simp [limbZero]
      · rw [if_neg (by simp), if_pos limbZero]
        apply wordLengthBelow_eq_size limbZero
        rw [Nat.sub_add_cancel positive]
        exact fits.1
    · have sizePositive : (value bits rest).size ≠ 0 := by
        rw [Nat.ne_zero_iff_zero_lt, Nat.size_pos]
        omega
      rw [if_pos sizePositive]
      obtain ⟨exponent, sizeEq⟩ := Nat.exists_eq_succ_of_ne_zero
        sizePositive
      have lower : 2 ^ exponent ≤ value bits rest :=
        Nat.lt_size.mp (by omega)
      have upper : value bits rest < 2 ^ (exponent + 1) :=
        Nat.size_le.mp (by omega)
      rw [sizeEq, Nat.succ_eq_add_one, ← Nat.add_assoc]
      symm
      apply size_eq_of_bounds
      · rw [Nat.pow_add]
        exact le_trans (Nat.mul_le_mul_left _ lower)
          (Nat.le_add_left _ _)
      · have step : radix bits * (value bits rest + 1) ≤
            radix bits * 2 ^ (exponent + 1) :=
          Nat.mul_le_mul_left _ upper
        have limbFits := fits.1
        rw [Nat.mul_add] at step
        rw [Nat.add_assoc, Nat.pow_add]
        simp only [radix] at *
        omega

/-! ## Subtraction and single bits -/

/-- Subtraction as addition of the two's complement. -/
def subtract (bits : Nat) (lefts rights : List Nat) : List Nat :=
  addCarry bits 0 lefts (increment bits (complement bits rights))

@[simp]
theorem length_complement
    (bits : Nat) (limbs : List Nat) :
    (complement bits limbs).length = limbs.length := by
  simp [complement]

theorem length_subtract
    (bits : Nat) {lefts rights : List Nat}
    (sameLength : lefts.length = rights.length) :
    (subtract bits lefts rights).length = lefts.length := by
  apply length_addCarry
  simp [sameLength]

theorem fits_subtract
    (bits : Nat) (lefts rights : List Nat) :
    Fits bits (subtract bits lefts rights) :=
  fits_addCarry bits _ _ _

theorem value_subtract {lefts rights : List Nat} (leftFits : Fits bits lefts)
    (rightFits : Fits bits rights) (sameLength : lefts.length = rights.length)
    (ordered : value bits rights ≤ value bits lefts) :
    value bits (subtract bits lefts rights) =
      value bits lefts - value bits rights := by
  have leftBound := value_lt leftFits
  have rightBound := value_lt rightFits
  have flipped := value_complement rightFits
  rw [subtract, value_addCarry bits 0 lefts _ (by simp [sameLength]),
    value_increment (fits_complement bits rights), length_complement,
    ← sameLength]
  rw [← sameLength] at flipped rightBound
  generalize radix bits ^ lefts.length = modulus at *
  by_cases zero : value bits rights = 0
  · have full : value bits (complement bits rights) + 1 = modulus := by
      omega
    rw [full, Nat.mod_self, zero, Nat.zero_add, Nat.add_zero,
      Nat.mod_eq_of_lt leftBound, Nat.sub_zero]
  · have below : value bits (complement bits rights) + 1 < modulus := by
      omega
    rw [Nat.mod_eq_of_lt below]
    have wrapped :
        0 + value bits lefts +
            (value bits (complement bits rights) + 1) =
          (value bits lefts - value bits rights) + modulus := by
      omega
    rw [wrapped, Nat.add_mod_right, Nat.mod_eq_of_lt (by omega)]

/-- Set one bit of the number. -/
def setBit (bits : Nat) (limbs : List Nat) (index : Nat) : List Nat :=
  limbs.set (index / bits)
    (limbAt limbs (index / bits) ||| 1 <<< (index % bits))

@[simp]
theorem length_setBit
    (bits : Nat) (limbs : List Nat) (index : Nat) :
    (setBit bits limbs index).length = limbs.length := by
  simp [setBit]

theorem fits_setBit (positive : 0 < bits) (fits : Fits bits limbs)
    (index : Nat) :
    Fits bits (setBit bits limbs index) := by
  intro limb member
  rcases List.mem_or_eq_of_mem_set member with old | new
  · exact fits limb old
  · rw [new, Nat.shiftLeft_eq, Nat.one_mul]
    exact Nat.or_lt_two_pow (limbAt_lt fits _)
      (Nat.pow_lt_pow_right (by norm_num) (Nat.mod_lt _ positive))

theorem limbAt_setBit {index : Nat} (inside : index / bits < limbs.length)
    (position : Nat) :
    limbAt (setBit bits limbs index) position =
      if position = index / bits then
        limbAt limbs position ||| 1 <<< (index % bits)
      else limbAt limbs position := by
  rw [setBit, limbAt, List.getD_eq_getElem?_getD, List.getElem?_set]
  by_cases same : position = index / bits
  · subst position
    simp [inside]
  · rw [if_neg same, if_neg (Ne.symm same)]
    simp [limbAt, List.getD_eq_getElem?_getD]

theorem value_setBit (positive : 0 < bits) (fits : Fits bits limbs)
    {index : Nat} (inside : index < bits * limbs.length) :
    value bits (setBit bits limbs index) =
      value bits limbs ||| 2 ^ index := by
  have wordInside := (index_word_lt_iff positive).mpr inside
  apply Nat.eq_of_testBit_eq
  intro position
  rw [testBit_value positive (fits_setBit positive fits index),
    Nat.testBit_or, testBit_value positive fits,
    limbAt_setBit wordInside, Nat.testBit_two_pow]
  split_ifs with sameWord
  · rw [Nat.testBit_or, Nat.shiftLeft_eq, Nat.one_mul,
      Nat.testBit_two_pow]
    congr 1
    have positionSplit := Nat.div_add_mod position bits
    have indexSplit := Nat.div_add_mod index bits
    rw [sameWord] at positionSplit
    simp only [decide_eq_decide]
    omega
  · have different : index ≠ position := by
      rintro rfl
      exact sameWord rfl
    simp [different]

/-! ## Division -/

/-- One position of the quotient after another, from the top one down. -/
def divideLoop (bits : Nat) :
    Nat → List Nat → List Nat → List Nat → List Nat
  | 0, _, _, quotient => quotient
  | steps + 1, numerator, divisor, quotient =>
    if compareLimbs numerator divisor ≠ .lt then
      divideLoop bits steps (subtract bits numerator divisor)
        (shiftRight bits divisor 1) (setBit bits quotient steps)
    else
      divideLoop bits steps numerator
        (shiftRight bits divisor 1) quotient

/-- Shift-and-subtract division; there is no quotient by zero. -/
def divide (bits : Nat) (numerator divisor : List Nat) :
    Option (List Nat) :=
  let numeratorBits := bitLength bits numerator
  let divisorBits := bitLength bits divisor
  let zero := List.replicate numerator.length 0
  if divisorBits = 0 then none
  else if divisorBits > numeratorBits then some zero
  else
    let shift := numeratorBits - divisorBits
    some (divideLoop bits (shift + 1) numerator
      (shiftLeft bits divisor shift) zero)

/-- A bit above every bit of a number is set by addition. -/
theorem or_two_pow_eq_add
    {number steps : Nat}
    (clear : number % 2 ^ (steps + 1) = 0) :
    number ||| 2 ^ steps = number + 2 ^ steps := by
  obtain ⟨high, rfl⟩ := Nat.dvd_of_mod_eq_zero clear
  exact (Nat.two_pow_add_eq_or_of_lt
    (Nat.pow_lt_pow_right (by norm_num) (Nat.lt_succ_self steps))
    high).symm

/--
The loop invariant of the division.  With `steps` positions to go, the
divisor is aligned at the next one and the numerator is below the divisor
shifted past it.
-/
theorem divideLoop_spec (positive : 0 < bits) (target steps : Nat)
    {numerator divisor quotient : List Nat}
    (numeratorFits : Fits bits numerator) (divisorFits : Fits bits divisor)
    (quotientFits : Fits bits quotient)
    (divisorLength : divisor.length = numerator.length)
    (quotientLength : quotient.length = numerator.length)
    (width : steps ≤ bits * numerator.length)
    (aligned :
      ∀ below, steps = below + 1 →
        value bits divisor = target * 2 ^ below)
    (bounded : value bits numerator < target * 2 ^ steps)
    (clear : value bits quotient % 2 ^ steps = 0) :
    Fits bits (divideLoop bits steps numerator divisor quotient) ∧
      (divideLoop bits steps numerator divisor quotient).length =
        numerator.length ∧
      value bits (divideLoop bits steps numerator divisor quotient) =
        value bits quotient + value bits numerator / target := by
  induction steps generalizing numerator divisor quotient with
  | zero =>
    rw [Nat.pow_zero, Nat.mul_one] at bounded
    refine ⟨quotientFits, quotientLength, ?_⟩
    rw [divideLoop, Nat.div_eq_of_lt bounded, Nat.add_zero]
  | succ steps induction =>
    have divisorValue := aligned steps rfl
    have targetPositive : 0 < target := by
      by_contra zero
      have : target = 0 := by omega
      simp [this] at bounded
    have doubled : target * 2 ^ (steps + 1) =
        2 * (target * 2 ^ steps) := by
      rw [Nat.pow_succ]
      ring
    have halved :
        ∀ below, steps = below + 1 →
          value bits (shiftRight bits divisor 1) =
            target * 2 ^ below := by
      intro below equal
      rw [value_shiftRight positive divisorFits, divisorValue, equal,
        Nat.pow_succ, Nat.pow_one, ← Nat.mul_assoc,
        Nat.mul_div_cancel _ (by norm_num)]
    have divisorFits' := fits_shiftRight divisorFits 1
    have divisorLength' :
        (shiftRight bits divisor 1).length = numerator.length := by
      rw [length_shiftRight, divisorLength]
    have clearLower : value bits quotient % 2 ^ steps = 0 :=
      Nat.mod_eq_zero_of_dvd
        ((Nat.pow_dvd_pow 2 (Nat.le_succ steps)).trans
          (Nat.dvd_of_mod_eq_zero clear))
    rw [divideLoop, compareLimbs_eq numeratorFits divisorFits
      divisorLength.symm, divisorValue]
    by_cases fitsIn : target * 2 ^ steps ≤ value bits numerator
    · have notLess :
          compare (value bits numerator) (target * 2 ^ steps) ≠ .lt := by
        rw [Ne, Nat.compare_eq_lt]
        omega
      rw [if_pos notLess]
      have difference := value_subtract numeratorFits divisorFits
        divisorLength.symm (by rw [divisorValue]; exact fitsIn)
      rw [divisorValue] at difference
      have subtractLength :
          (subtract bits numerator divisor).length = numerator.length :=
        length_subtract bits divisorLength.symm
      have quotientWidth : steps < bits * quotient.length := by
        rw [quotientLength]
        omega
      have quotientValue := value_setBit positive quotientFits
        quotientWidth
      rw [or_two_pow_eq_add clear] at quotientValue
      obtain ⟨resultFits, resultLength, resultValue⟩ :=
        induction (fits_subtract bits numerator divisor)
          divisorFits' (fits_setBit positive quotientFits steps)
          (by rw [subtractLength, divisorLength'])
          (by rw [length_setBit, subtractLength, quotientLength])
          (by rw [subtractLength]; omega)
          halved
          (by rw [difference]; omega)
          (by
            rw [quotientValue, Nat.add_mod, clearLower,
              Nat.mod_self]
            simp)
      refine ⟨resultFits, by rw [resultLength, subtractLength], ?_⟩
      rw [resultValue, quotientValue, difference, Nat.sub_mul_div,
        Nat.add_assoc]
      congr 1
      have stepsLe : 2 ^ steps ≤ value bits numerator / target := by
        rw [Nat.le_div_iff_mul_le targetPositive, Nat.mul_comm]
        exact fitsIn
      omega
    · have less :
          ¬ compare (value bits numerator) (target * 2 ^ steps) ≠
            .lt := by
        rw [not_not, Nat.compare_eq_lt]
        omega
      rw [if_neg less]
      exact induction numeratorFits divisorFits' quotientFits
        divisorLength' quotientLength (by omega) halved
        (by omega) clearLower

@[simp]
theorem value_replicate_zero
    (bits count : Nat) :
    value bits (List.replicate count 0) = 0 := by
  induction count with
  | zero => rfl
  | succ count induction => simp [List.replicate_succ, induction]

theorem fits_replicate_zero
    (bits count : Nat) :
    Fits bits (List.replicate count 0) := by
  intro limb member
  rw [List.eq_of_mem_replicate member]
  exact radix_pos bits

/-- Division by a nonzero limb list computes the floor quotient. -/
theorem divide_spec (positive : 0 < bits) {numerator divisor : List Nat}
    (numeratorFits : Fits bits numerator) (divisorFits : Fits bits divisor)
    (sameLength : divisor.length = numerator.length)
    (nonzero : value bits divisor ≠ 0) :
    ∃ quotient,
      divide bits numerator divisor = some quotient ∧
        Fits bits quotient ∧
        quotient.length = numerator.length ∧
        value bits quotient =
          value bits numerator / value bits divisor := by
  have numeratorSize := bitLength_eq_size positive numeratorFits
  have divisorSize := bitLength_eq_size positive divisorFits
  have divisorPositive : (value bits divisor).size ≠ 0 := by
    rw [Nat.ne_zero_iff_zero_lt, Nat.size_pos]
    omega
  rw [divide, numeratorSize, divisorSize]
  simp only [if_neg divisorPositive]
  by_cases longer :
      (value bits divisor).size > (value bits numerator).size
  · rw [if_pos longer]
    refine ⟨_, rfl, fits_replicate_zero bits _, by simp, ?_⟩
    have smaller : value bits numerator < value bits divisor := by
      have below := Nat.lt_size_self (value bits numerator)
      have above : 2 ^ (value bits numerator).size ≤
          value bits divisor := Nat.lt_size.mp longer
      omega
    rw [value_replicate_zero, Nat.div_eq_of_lt smaller]
  · rw [if_neg longer]
    generalize shiftEq :
      (value bits numerator).size - (value bits divisor).size = shift
    have numeratorBound := Nat.lt_size_self (value bits numerator)
    have divisorTop :
        2 ^ ((value bits divisor).size - 1) ≤ value bits divisor :=
      Nat.lt_size.mp (by omega)
    have bounded :
        value bits numerator < value bits divisor * 2 ^ (shift + 1) := by
      calc
        value bits numerator
            < 2 ^ (value bits numerator).size := numeratorBound
        _ = 2 ^ ((value bits divisor).size - 1) * 2 ^ (shift + 1) := by
            rw [← Nat.pow_add]
            congr 1
            omega
        _ ≤ value bits divisor * 2 ^ (shift + 1) :=
            Nat.mul_le_mul_right _ divisorTop
    have numeratorWidth :
        (value bits numerator).size ≤ bits * numerator.length := by
      rw [Nat.size_le, ← radix_pow]
      exact value_lt numeratorFits
    have alignedValue :
        value bits (shiftLeft bits divisor shift) =
          value bits divisor * 2 ^ shift := by
      rw [value_shiftLeft positive divisorFits, sameLength, radix_pow]
      apply Nat.mod_eq_of_lt
      calc
        value bits divisor * 2 ^ shift
            < 2 ^ (value bits divisor).size * 2 ^ shift :=
              Nat.mul_lt_mul_of_pos_right (Nat.lt_size_self _)
                (Nat.two_pow_pos shift)
        _ = 2 ^ (value bits numerator).size := by
            rw [← Nat.pow_add]
            congr 1
            omega
        _ ≤ 2 ^ (bits * numerator.length) :=
            Nat.pow_le_pow_right (by norm_num) numeratorWidth
    obtain ⟨resultFits, resultLength, resultValue⟩ :=
      divideLoop_spec positive (value bits divisor) (shift + 1)
        numeratorFits (fits_shiftLeft divisorFits shift)
        (fits_replicate_zero bits numerator.length)
        (by rw [length_shiftLeft, sameLength])
        (by simp)
        (by omega)
        (by
          intro below equal
          have : below = shift := by omega
          rw [alignedValue, this])
        bounded
        (by simp)
    refine ⟨_, rfl, resultFits, resultLength, ?_⟩
    rw [resultValue, value_replicate_zero, Nat.zero_add]

/-- Every quotient that is returned has the width and word bounds. -/
theorem divide_shape (positive : 0 < bits)
    {numerator divisor quotient : List Nat}
    (numeratorFits : Fits bits numerator) (divisorFits : Fits bits divisor)
    (sameLength : divisor.length = numerator.length)
    (divided : divide bits numerator divisor = some quotient) :
    quotient.length = numerator.length ∧ Fits bits quotient := by
  have nonzero : value bits divisor ≠ 0 := by
    intro zero
    have none : bitLength bits divisor = 0 := by
      rw [bitLength_eq_size positive divisorFits, zero, Nat.size_zero]
    simp [divide, none] at divided
  obtain ⟨limbs, limbsDivided, fits, length, _⟩ :=
    divide_spec positive numeratorFits divisorFits sameLength nonzero
  rw [limbsDivided] at divided
  cases divided
  exact ⟨length, fits⟩

end B3Chain.Limbs
