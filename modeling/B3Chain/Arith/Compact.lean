import B3Chain.Arith.ArithUint256

/-!
# The compact target encoding

`SetCompact` and `GetCompact` convert between a 256-bit target and the 32-bit
`nBits` field: an exponent byte, a sign bit and a 23-bit mantissa.  The limb
versions are translated from the source; `decodeTarget` and `encodeTarget` are
what they compute on natural numbers.  Encoding a nonzero target and decoding
it again clears the bytes below the mantissa, so the result is a nonzero
target that is not larger, and neither flag is raised.
-/

namespace B3Chain.Arith

open B3Chain.Limbs

/-! ## Decoding -/

/-- The target `SetCompact` stores and the two flags it reports. -/
structure CompactValue where
  target : ArithUint256
  negative : Bool
  overflow : Bool
deriving DecidableEq

/-- `arith_uint256::SetCompact`. -/
def setCompact (nCompact : Nat) : CompactValue :=
  let nSize := nCompact >>> 24
  let nWord := nCompact &&& 0x007fffff
  -- The flags look at the mantissa after the shift of the short form.
  let shifted := if nSize ≤ 3 then nWord >>> (8 * (3 - nSize)) else nWord
  { target :=
      if nSize ≤ 3 then .ofUint64 shifted
      else (ArithUint256.ofUint64 nWord).shiftLeft (8 * (nSize - 3))
    negative :=
      decide (shifted ≠ 0 ∧ nCompact &&& 0x00800000 ≠ 0)
    overflow :=
      decide (shifted ≠ 0 ∧
        (nSize > 34 ∨ (shifted > 0xff ∧ nSize > 33) ∨
          (shifted > 0xffff ∧ nSize > 32))) }

/-- The exponent byte of a compact value. -/
def compactSize (nCompact : Nat) : Nat :=
  nCompact / 2 ^ 24

/-- The mantissa of a compact value after the shift of the short form. -/
def compactWord (nCompact : Nat) : Nat :=
  nCompact % 2 ^ 23 / 256 ^ (3 - compactSize nCompact)

/-- The target of a compact value, over natural numbers. -/
def decodeTarget (nCompact : Nat) : Nat :=
  compactWord nCompact * 256 ^ (compactSize nCompact - 3) % 2 ^ 256

/-- The sign flag of a compact value. -/
def compactNegative (nCompact : Nat) : Bool :=
  decide (compactWord nCompact ≠ 0 ∧ nCompact / 2 ^ 23 % 2 = 1)

/-- The overflow flag of a compact value. -/
def compactOverflow (nCompact : Nat) : Bool :=
  decide (compactWord nCompact ≠ 0 ∧
    (compactSize nCompact > 34 ∨
      (compactWord nCompact > 0xff ∧ compactSize nCompact > 33) ∨
      (compactWord nCompact > 0xffff ∧ compactSize nCompact > 32)))

theorem pow_256 (exponent : Nat) :
    256 ^ exponent = 2 ^ (8 * exponent) := by
  rw [Nat.pow_mul]

theorem low_mantissa (nCompact : Nat) :
    nCompact &&& 0x007fffff = nCompact % 2 ^ 23 :=
  Nat.and_two_pow_sub_one_eq_mod nCompact 23

theorem sign_bit_iff (nCompact : Nat) :
    nCompact &&& 0x00800000 ≠ 0 ↔ nCompact / 2 ^ 23 % 2 = 1 := by
  have bit : nCompact &&& 2 ^ 23 = (nCompact.testBit 23).toNat * 2 ^ 23 :=
    Nat.and_two_pow nCompact 23
  rw [show (0x00800000 : Nat) = 2 ^ 23 by norm_num, bit,
    Nat.testBit_eq_decide_div_mod_eq]
  by_cases set : nCompact / 2 ^ 23 % 2 = 1 <;> simp

theorem shifted_mantissa (nCompact : Nat) :
    (if nCompact >>> 24 ≤ 3 then
        (nCompact &&& 0x007fffff) >>> (8 * (3 - nCompact >>> 24))
      else nCompact &&& 0x007fffff) =
      compactWord nCompact := by
  rw [low_mantissa, compactWord, compactSize, Nat.shiftRight_eq_div_pow,
    Nat.shiftRight_eq_div_pow, pow_256]
  split_ifs with short
  · rfl
  · have zero : 3 - nCompact / 2 ^ 24 = 0 := by omega
    rw [zero, Nat.mul_zero, Nat.pow_zero, Nat.div_one]

theorem compactWord_lt (nCompact : Nat) :
    compactWord nCompact < 2 ^ 23 :=
  lt_of_le_of_lt (Nat.div_le_self _ _)
    (Nat.mod_lt _ (by norm_num))

/-- `SetCompact` stores the decoded target. -/
theorem toNat_setCompact (nCompact : Nat) :
    (setCompact nCompact).target.toNat = decodeTarget nCompact := by
  have small := compactWord_lt nCompact
  have shiftedEq := shifted_mantissa nCompact
  rw [setCompact, decodeTarget]
  simp only [shiftedEq]
  rw [Nat.shiftRight_eq_div_pow]
  by_cases short : nCompact / 2 ^ 24 ≤ 3
  · have exponent : compactSize nCompact - 3 = 0 := by
      rw [compactSize]
      omega
    rw [if_pos short, ArithUint256.toNat_ofUint64 (by omega), exponent,
      Nat.pow_zero, Nat.mul_one, Nat.mod_eq_of_lt]
    exact lt_trans small (by norm_num)
  · have word : compactWord nCompact = nCompact % 2 ^ 23 := by
      have zero : 3 - compactSize nCompact = 0 := by
        rw [compactSize]
        omega
      rw [compactWord, zero, Nat.pow_zero, Nat.div_one]
    rw [if_neg short, ArithUint256.toNat_shiftLeft, low_mantissa,
      ArithUint256.toNat_ofUint64
        (lt_trans (Nat.mod_lt _ (by norm_num)) (by norm_num)),
      word, pow_256, compactSize]

theorem setCompact_negative (nCompact : Nat) :
    (setCompact nCompact).negative = compactNegative nCompact := by
  rw [setCompact, compactNegative]
  simp only [shifted_mantissa, sign_bit_iff]

theorem setCompact_overflow (nCompact : Nat) :
    (setCompact nCompact).overflow = compactOverflow nCompact := by
  rw [setCompact, compactOverflow]
  simp only [shifted_mantissa]
  rw [compactSize, Nat.shiftRight_eq_div_pow]

/-! ## Encoding -/

/-- `arith_uint256::GetCompact` with its default sign argument. -/
def getCompact (number : ArithUint256) : Nat :=
  let nSize := (number.bits + 7) / 8
  let nCompact :=
    if nSize ≤ 3 then
      (number.getLow64 <<< (8 * (3 - nSize))) % 2 ^ 32
    else (number.shiftRight (8 * (nSize - 3))).getLow64 % 2 ^ 32
  -- A set sign bit moves one byte from the mantissa to the exponent.
  if nCompact &&& 0x00800000 ≠ 0 then
    (nCompact >>> 8) ||| ((nSize + 1) <<< 24)
  else nCompact ||| (nSize <<< 24)

/-- The binary size, by the kernel's logarithm. -/
def bitSize (number : Nat) : Nat :=
  if number = 0 then 0 else number.log2 + 1

theorem bitSize_eq (number : Nat) :
    bitSize number = number.size := by
  rw [bitSize]
  split_ifs with zero
  · simp [zero]
  · exact (size_eq_of_bounds (Nat.log2_self_le zero)
      Nat.lt_log2_self).symm

/-- The number of bytes of a target. -/
def byteSize (target : Nat) : Nat :=
  (bitSize target + 7) / 8

/-- The three leading bytes of a target. -/
def leadingBytes (target : Nat) : Nat :=
  target * 256 ^ (3 - byteSize target) / 256 ^ (byteSize target - 3)

/-- The compact form of a target, over natural numbers. -/
def encodeTarget (target : Nat) : Nat :=
  if 2 ^ 23 ≤ leadingBytes target then
    leadingBytes target / 256 + (byteSize target + 1) * 2 ^ 24
  else leadingBytes target + byteSize target * 2 ^ 24

theorem lt_pow_byteSize (target : Nat) :
    target < 256 ^ byteSize target := by
  rw [pow_256]
  apply lt_of_lt_of_le (Nat.lt_size_self target)
  apply Nat.pow_le_pow_right (by norm_num)
  rw [byteSize, bitSize_eq]
  omega

variable {target : Nat}

theorem pow_byteSize_le (nonzero : target ≠ 0) :
    256 ^ (byteSize target - 1) ≤ target := by
  have sizePositive : 0 < target.size :=
    Nat.size_pos.mpr (Nat.pos_of_ne_zero nonzero)
  rw [pow_256]
  apply Nat.lt_size.mp
  rw [byteSize, bitSize_eq]
  omega

theorem byteSize_pos (nonzero : target ≠ 0) :
    0 < byteSize target := by
  have sizePositive : 0 < target.size :=
    Nat.size_pos.mpr (Nat.pos_of_ne_zero nonzero)
  rw [byteSize, bitSize_eq]
  omega

theorem byteSize_le {bytes : Nat} (bounded : target < 256 ^ bytes) :
    byteSize target ≤ bytes := by
  rw [pow_256, ← Nat.size_le] at bounded
  rw [byteSize, bitSize_eq]
  omega

theorem leadingBytes_lt (target : Nat) :
    leadingBytes target < 2 ^ 24 := by
  have bound := lt_pow_byteSize target
  rw [leadingBytes]
  apply Nat.div_lt_of_lt_mul
  rcases Nat.le_total (byteSize target) 3 with short | long
  · have zero : byteSize target - 3 = 0 := by omega
    rw [zero, Nat.pow_zero, Nat.one_mul]
    calc
      target * 256 ^ (3 - byteSize target)
          < 256 ^ byteSize target * 256 ^ (3 - byteSize target) :=
            Nat.mul_lt_mul_of_pos_right bound
              (Nat.pow_pos (by norm_num))
      _ = 2 ^ 24 := by
          rw [← Nat.pow_add, Nat.add_sub_cancel' short]
          norm_num
  · have zero : 3 - byteSize target = 0 := by omega
    rw [zero, Nat.pow_zero, Nat.mul_one]
    calc
      target < 256 ^ byteSize target := bound
      _ = 256 ^ (byteSize target - 3) * 2 ^ 24 := by
          rw [show (2 : Nat) ^ 24 = 256 ^ 3 by norm_num, ← Nat.pow_add,
            Nat.sub_add_cancel long]

theorem join_exponent
    {mantissa size : Nat} (bounded : mantissa < 2 ^ 24) :
    mantissa ||| (size <<< 24) = mantissa + size * 2 ^ 24 := by
  rw [Nat.or_comm, ← Nat.shiftLeft_add_eq_or_of_lt bounded,
    Nat.shiftLeft_eq, Nat.add_comm]

/-- `GetCompact` computes the encoded target. -/
theorem getCompact_eq (number : ArithUint256) :
    getCompact number = encodeTarget number.toNat := by
  have sizeEq : (number.bits + 7) / 8 = byteSize number.toNat := by
    rw [ArithUint256.bits_eq, byteSize, bitSize_eq]
  have leading := leadingBytes_lt number.toNat
  have compactEq :
      (if byteSize number.toNat ≤ 3 then
          (number.getLow64 <<< (8 * (3 - byteSize number.toNat))) % 2 ^ 32
        else
          (number.shiftRight
            (8 * (byteSize number.toNat - 3))).getLow64 % 2 ^ 32) =
        leadingBytes number.toNat := by
    rw [leadingBytes] at *
    split_ifs with short
    · have zero : byteSize number.toNat - 3 = 0 := by omega
      have small : number.toNat < 2 ^ 64 := by
        apply lt_of_lt_of_le (lt_pow_byteSize number.toNat)
        rw [pow_256]
        exact Nat.pow_le_pow_right (by norm_num) (by omega)
      rw [zero, Nat.pow_zero, Nat.div_one] at leading ⊢
      rw [ArithUint256.getLow64_eq, Nat.mod_eq_of_lt small,
        Nat.shiftLeft_eq, ← pow_256, Nat.mod_eq_of_lt (by omega)]
    · have zero : 3 - byteSize number.toNat = 0 := by omega
      rw [zero, Nat.pow_zero, Nat.mul_one] at leading ⊢
      rw [ArithUint256.getLow64_eq, ArithUint256.toNat_shiftRight,
        ← pow_256, Nat.mod_eq_of_lt (lt_trans leading (by norm_num)),
        Nat.mod_eq_of_lt (lt_trans leading (by norm_num))]
  rw [getCompact, encodeTarget, sizeEq]
  simp only [compactEq]
  have signIff :
      leadingBytes number.toNat &&& 0x00800000 ≠ 0 ↔
        2 ^ 23 ≤ leadingBytes number.toNat := by
    rw [sign_bit_iff]
    omega
  by_cases sign : 2 ^ 23 ≤ leadingBytes number.toNat
  · rw [if_pos sign, if_pos (signIff.mpr sign),
      Nat.shiftRight_eq_div_pow, join_exponent (by omega)]
  · rw [if_neg sign, if_neg (fun set => sign (signIff.mp set)),
      join_exponent leading]

/-! ## Rounding of a round trip -/

/-- The number of low bytes that the encoding clears. -/
def droppedBytes (target : Nat) : Nat :=
  if 2 ^ 23 ≤ leadingBytes target then byteSize target - 2
  else byteSize target - 3

/-- A target with the bytes below its mantissa cleared. -/
def roundTarget (target : Nat) : Nat :=
  target / 256 ^ droppedBytes target * 256 ^ droppedBytes target

theorem roundTarget_le (target : Nat) :
    roundTarget target ≤ target :=
  Nat.div_mul_le_self _ _

/-- The mantissa left by the dropped bytes: below `2 ^ 23`, and at least
`2 ^ 15` when a byte is dropped at all. -/
theorem droppedBytes_spec (target : Nat) :
    target < 2 ^ 23 * 256 ^ droppedBytes target ∧
      (droppedBytes target = 0 ∨
        2 ^ 15 * 256 ^ droppedBytes target ≤ target) := by
  have upper := lt_pow_byteSize target
  rcases Nat.lt_or_ge (byteSize target) 3 with short | long
  · have none : droppedBytes target = 0 := by
      rw [droppedBytes]
      split_ifs <;> omega
    have power : 256 ^ byteSize target ≤ 256 ^ 2 :=
      Nat.pow_le_pow_right (by norm_num) (by omega)
    refine ⟨?_, Or.inl none⟩
    rw [none]
    omega
  · have lower : 256 ^ (byteSize target - 1) ≤ target := by
      apply pow_byteSize_le
      rintro rfl
      exact absurd long (by decide)
    obtain ⟨rest, size⟩ := Nat.exists_eq_add_of_le long
    have leading : leadingBytes target = target / 256 ^ rest := by
      rw [leadingBytes, show 3 - byteSize target = 0 by omega,
        show byteSize target - 3 = rest by omega, Nat.pow_zero,
        Nat.mul_one]
    have positive : 0 < 256 ^ rest := Nat.pow_pos (by norm_num)
    rw [show byteSize target - 1 = rest + 2 by omega, Nat.pow_add] at lower
    rw [size, Nat.pow_add] at upper
    rw [droppedBytes, leading, size]
    split_ifs with wide
    · rw [show 3 + rest - 2 = rest + 1 by omega, Nat.pow_succ]
      have mantissa := (Nat.le_div_iff_mul_le positive).mp wide
      omega
    · rw [show 3 + rest - 3 = rest by omega]
      have mantissa :=
        (Nat.div_lt_iff_lt_mul positive).mp (Nat.lt_of_not_le wide)
      omega

/-- Rounding keeps the order of targets. -/
theorem roundTarget_mono {other : Nat} (ordered : target ≤ other) :
    roundTarget target ≤ roundTarget other := by
  have targetLt := (droppedBytes_spec target).1
  have otherLt := (droppedBytes_spec other).1
  rcases Nat.lt_trichotomy (droppedBytes target) (droppedBytes other) with
    fewer | same | more
  · -- The smaller target ends below the first mantissa of the larger one.
    have power :
        256 ^ (droppedBytes target + 1) ≤ 256 ^ droppedBytes other :=
      Nat.pow_le_pow_right (by norm_num) fewer
    have first : 2 ^ 15 * 256 ^ droppedBytes other ≤ roundTarget other := by
      apply Nat.mul_le_mul_right
      rw [Nat.le_div_iff_mul_le (Nat.pow_pos (by norm_num))]
      exact (droppedBytes_spec other).2.resolve_left (by omega)
    have rounded := roundTarget_le target
    rw [Nat.pow_succ] at power
    omega
  · rw [roundTarget, roundTarget, same]
    exact Nat.mul_le_mul_right _ (Nat.div_le_div_right ordered)
  · have power :
        256 ^ (droppedBytes other + 1) ≤ 256 ^ droppedBytes target :=
      Nat.pow_le_pow_right (by norm_num) more
    have least :=
      (droppedBytes_spec target).2.resolve_left (by omega)
    rw [Nat.pow_succ] at power
    omega

theorem roundTarget_ne_zero (nonzero : target ≠ 0) :
    roundTarget target ≠ 0 := by
  have lower := pow_byteSize_le nonzero
  have sizePositive := byteSize_pos nonzero
  have dropped : 256 ^ droppedBytes target ≤ target := by
    apply le_trans _ lower
    apply Nat.pow_le_pow_right (by norm_num)
    rw [droppedBytes]
    split_ifs <;> omega
  rw [roundTarget]
  have quotient : 1 ≤ target / 256 ^ droppedBytes target :=
    (Nat.le_div_iff_mul_le (Nat.pow_pos (by norm_num))).mpr
      (by rw [Nat.one_mul]; exact dropped)
  have positive : 0 < 256 ^ droppedBytes target :=
    Nat.pow_pos (by norm_num)
  exact Nat.mul_ne_zero (by omega) (by omega)

/-- Rounding loses less than one part in `2 ^ 15`. -/
theorem sub_roundTarget_lt (nonzero : target ≠ 0) :
    (target - roundTarget target) * 2 ^ 15 < target := by
  have split := Nat.div_add_mod' target (256 ^ droppedBytes target)
  have rest : target % 256 ^ droppedBytes target <
      256 ^ droppedBytes target :=
    Nat.mod_lt _ (Nat.pow_pos (by norm_num))
  rw [roundTarget]
  rcases (droppedBytes_spec target).2 with none | least
  · rw [none, Nat.pow_zero] at rest split ⊢
    omega
  · omega

/-- Rounding does not shorten a target. -/
theorem byteSize_roundTarget (nonzero : target ≠ 0) :
    byteSize (roundTarget target) = byteSize target := by
  have sizePositive := byteSize_pos nonzero
  apply le_antisymm
  · exact byteSize_le
      (lt_of_le_of_lt (roundTarget_le target) (lt_pow_byteSize target))
  · have dropped : droppedBytes target ≤ byteSize target - 1 := by
      rw [droppedBytes]
      split_ifs <;> omega
    have kept : 256 ^ (byteSize target - 1) ≤ roundTarget target := by
      -- The leading byte's place is a multiple of the cleared ones.
      obtain ⟨places, split⟩ := Nat.exists_eq_add_of_le' dropped
      rw [roundTarget, split, Nat.pow_add]
      apply Nat.mul_le_mul_right
      rw [Nat.le_div_iff_mul_le (Nat.pow_pos (by norm_num)), ← Nat.pow_add,
        ← split]
      exact pow_byteSize_le nonzero
    have bound := lt_of_le_of_lt kept (lt_pow_byteSize (roundTarget target))
    have longer := (Nat.pow_lt_pow_iff_right (by norm_num)).mp bound
    omega

/-- The leading bytes of a rounded target; the last one may be cleared. -/
theorem leadingBytes_roundTarget (nonzero : target ≠ 0) :
    leadingBytes (roundTarget target) =
      if 2 ^ 23 ≤ leadingBytes target ∧ 3 ≤ byteSize target then
        leadingBytes target / 256 * 256
      else leadingBytes target := by
  rcases Nat.lt_or_ge (byteSize target) 3 with short | long
  · have none : droppedBytes target = 0 := by
      rw [droppedBytes]
      split_ifs <;> omega
    rw [if_neg fun both => absurd both.2 (Nat.not_le.mpr short),
      roundTarget, none, Nat.pow_zero, Nat.div_one, Nat.mul_one]
  · have positive : 0 < 256 ^ (byteSize target - 3) :=
      Nat.pow_pos (by norm_num)
    have leading : leadingBytes target =
        target / 256 ^ (byteSize target - 3) := by
      rw [leadingBytes, show 3 - byteSize target = 0 by omega, Nat.pow_zero,
        Nat.mul_one]
    rw [leadingBytes, byteSize_roundTarget nonzero, roundTarget, droppedBytes,
      show 3 - byteSize target = 0 by omega, Nat.pow_zero, Nat.mul_one]
    by_cases wide : 2 ^ 23 ≤ leadingBytes target
    · rw [if_pos wide, if_pos ⟨wide, long⟩, leading,
        show byteSize target - 2 = byteSize target - 3 + 1 by omega,
        Nat.pow_succ, ← Nat.div_div_eq_div_mul, Nat.mul_comm _ 256,
        ← Nat.mul_assoc, Nat.mul_div_cancel _ positive]
    · rw [if_neg wide, if_neg (fun both => wide both.1), leading,
        Nat.mul_div_cancel _ positive]

/-- Encoding a rounded target gives the compact value it came from. -/
theorem encodeTarget_roundTarget (nonzero : target ≠ 0) :
    encodeTarget (roundTarget target) = encodeTarget target := by
  rw [encodeTarget, encodeTarget, byteSize_roundTarget nonzero,
    leadingBytes_roundTarget nonzero]
  split_ifs <;> omega

/-- The fields of a compact value put together from a mantissa and a size. -/
theorem compact_fields
    {mantissa : Nat} (size : Nat) (bounded : mantissa < 2 ^ 23) :
    compactSize (mantissa + size * 2 ^ 24) = size ∧
      compactWord (mantissa + size * 2 ^ 24) =
        mantissa / 256 ^ (3 - size) ∧
      compactNegative (mantissa + size * 2 ^ 24) = false := by
  have sizeEq : compactSize (mantissa + size * 2 ^ 24) = size := by
    rw [compactSize]
    omega
  have wordEq :
      compactWord (mantissa + size * 2 ^ 24) =
        mantissa / 256 ^ (3 - size) := by
    rw [compactWord, sizeEq]
    congr 1
    omega
  refine ⟨sizeEq, wordEq, ?_⟩
  have clear : ¬ (mantissa + size * 2 ^ 24) / 2 ^ 23 % 2 = 1 := by
    omega
  simp only [compactNegative, clear, and_false, decide_false]

/-- Mantissa and exponent of an encoded target. -/
theorem encodeTarget_fields (target : Nat) :
    ∃ mantissa size,
      encodeTarget target = mantissa + size * 2 ^ 24 ∧
        mantissa < 2 ^ 23 ∧
        size ≤ byteSize target + 1 ∧
        (size = byteSize target + 1 → mantissa < 2 ^ 16) ∧
        mantissa / 256 ^ (3 - size) * 256 ^ (size - 3) =
          roundTarget target := by
  have leading := leadingBytes_lt target
  rw [encodeTarget, roundTarget, droppedBytes]
  split_ifs with sign
  · refine ⟨_, _, rfl, by omega, le_refl _, fun _ => by omega, ?_⟩
    rw [leadingBytes]
    rcases Nat.lt_or_ge (byteSize target) 3 with short | long
    · have low : byteSize target - 3 = 0 := by omega
      have drop : byteSize target - 2 = 0 := by omega
      have high : byteSize target + 1 - 3 = 0 := by omega
      rw [low, drop, high]
      simp only [Nat.pow_zero, Nat.div_one, Nat.mul_one]
      rw [Nat.div_div_eq_div_mul, ← Nat.pow_succ', Nat.succ_eq_add_one,
        show 3 - (byteSize target + 1) + 1 = 3 - byteSize target by omega]
      exact Nat.mul_div_cancel _ (Nat.pow_pos (by norm_num))
    · have low : 3 - byteSize target = 0 := by omega
      have none : 3 - (byteSize target + 1) = 0 := by omega
      have drop : byteSize target + 1 - 3 = byteSize target - 2 := by omega
      have split : byteSize target - 2 = byteSize target - 3 + 1 := by omega
      rw [low, none, drop]
      simp only [Nat.pow_zero, Nat.div_one, Nat.mul_one]
      rw [Nat.div_div_eq_div_mul, ← Nat.pow_succ, Nat.succ_eq_add_one,
        ← split]
  · refine ⟨_, _, rfl, by omega, by omega, fun equal => by omega, ?_⟩
    rw [leadingBytes]
    rcases Nat.le_total (byteSize target) 3 with short | long
    · have low : byteSize target - 3 = 0 := by omega
      rw [low]
      simp only [Nat.pow_zero, Nat.div_one, Nat.mul_one]
      exact Nat.mul_div_cancel _ (Nat.pow_pos (by norm_num))
    · have low : 3 - byteSize target = 0 := by omega
      rw [low]
      simp only [Nat.pow_zero, Nat.div_one, Nat.mul_one]

/-- Decoding an encoded target yields the rounded target. -/
theorem decodeTarget_encodeTarget (bounded : target < 2 ^ 256) :
    decodeTarget (encodeTarget target) = roundTarget target := by
  obtain ⟨mantissa, size, encoded, small, _, _, rounded⟩ :=
    encodeTarget_fields target
  obtain ⟨sizeEq, wordEq, _⟩ := compact_fields size small
  rw [encoded, decodeTarget, sizeEq, wordEq, rounded]
  exact Nat.mod_eq_of_lt
    (lt_of_le_of_lt (roundTarget_le target) bounded)

/-- An encoded target is never flagged negative. -/
theorem compactNegative_encodeTarget (target : Nat) :
    compactNegative (encodeTarget target) = false := by
  obtain ⟨mantissa, size, encoded, small, _⟩ := encodeTarget_fields target
  rw [encoded]
  exact (compact_fields size small).2.2

/-- An encoded 256-bit target is never flagged as overflowing. -/
theorem compactOverflow_encodeTarget (bounded : target < 2 ^ 256) :
    compactOverflow (encodeTarget target) = false := by
  obtain ⟨mantissa, size, encoded, small, sizeLe, carried, _⟩ :=
    encodeTarget_fields target
  obtain ⟨sizeEq, wordEq, _⟩ := compact_fields size small
  have bytes : byteSize target ≤ 32 := byteSize_le (by
    rw [pow_256]
    exact bounded)
  have wordLe : compactWord (encodeTarget target) ≤ mantissa := by
    rw [encoded, wordEq]
    exact Nat.div_le_self _ _
  rw [compactOverflow, decide_eq_false_iff_not]
  rw [encoded, sizeEq, ← encoded]
  rintro ⟨_, tooLarge⟩
  rcases Nat.lt_or_ge 32 size with above | fine
  · have full : size = byteSize target + 1 := by omega
    have narrow := carried full
    omega
  · omega

/--
Compact encoding rounds down and is canonical: a nonzero target decodes from
its compact form without a flag to a value that is not larger and by less than
`t / 2 ^ 15` smaller, that has the same compact form, and that keeps the order
of targets.
-/
theorem compact_rounds_down_and_is_canonical
    (number : ArithUint256) (nonzero : number.toNat ≠ 0) :
    let decoded := setCompact (getCompact number)
    decoded.negative = false ∧ decoded.overflow = false ∧
      decoded.target.toNat ≤ number.toNat ∧
      (number.toNat - decoded.target.toNat) * 2 ^ 15 < number.toNat ∧
      getCompact decoded.target = getCompact number ∧
      ∀ smaller : ArithUint256, smaller.toNat ≠ 0 →
        smaller.toNat ≤ number.toNat →
          (setCompact (getCompact smaller)).target.toNat ≤
            decoded.target.toNat := by
  have decodes (other : ArithUint256) :
      (setCompact (getCompact other)).target.toNat =
        roundTarget other.toNat := by
    rw [toNat_setCompact, getCompact_eq,
      decodeTarget_encodeTarget other.toNat_lt]
  refine ⟨?_, ?_, ?_, ?_, ?_, ?_⟩
  · rw [setCompact_negative, getCompact_eq]
    exact compactNegative_encodeTarget _
  · rw [setCompact_overflow, getCompact_eq]
    exact compactOverflow_encodeTarget number.toNat_lt
  · rw [decodes]
    exact roundTarget_le _
  · rw [decodes]
    exact sub_roundTarget_lt nonzero
  · rw [getCompact_eq, decodes, encodeTarget_roundTarget nonzero,
      getCompact_eq]
  · intro smaller _ ordered
    rw [decodes, decodes]
    exact roundTarget_mono ordered

theorem compact_drops_low_bytes :
    let number := ArithUint256.ofUint64 0x123456789
    let decoded := setCompact (getCompact number)
    decoded.target.toNat = 0x123450000 ∧ decoded.negative = false ∧
      decoded.overflow = false ∧ decoded.target.toNat ≤ number.toNat ∧
      (number.toNat - decoded.target.toNat) * 2 ^ 15 < number.toNat ∧
      getCompact decoded.target = getCompact number ∧
      ∀ smaller : ArithUint256, smaller.toNat ≠ 0 →
        smaller.toNat ≤ number.toNat →
          (setCompact (getCompact smaller)).target.toNat ≤
            decoded.target.toNat := by
  refine ⟨by decide +kernel, compact_rounds_down_and_is_canonical _ ?_⟩
  rw [ArithUint256.toNat_ofUint64 (by norm_num)]
  norm_num

end B3Chain.Arith
