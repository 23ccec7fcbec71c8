import B3Chain.Pow.NextWork
import B3Chain.Stratum.Client

/-!
# The targets of the miners and of the pool

The node decodes `nBits` with `SetCompact`, which keeps 256 bits.  The pool and
the miners for CPUs and GPUs shift the mantissa as an unbounded number, and the
firmware places its three bytes.  On compact values that the node makes and
accepts all of them find the node's target.
-/

namespace B3Chain.Pow

open Words
open B3Chain.Arith
open B3Chain.Consensus

/-! ## The decoders -/

/-- The mantissa moved by the exponent, without a bound. -/
def shiftMantissa (exp mant : Nat) : Nat :=
  if exp ≤ 3 then mant >>> (8 * (3 - exp)) else mant <<< (8 * (exp - 3))

namespace GpuMiner

/-- `target_from_nbits` of the miner for GPUs. -/
def targetFromNbits (nbits : Nat) : Nat :=
  shiftMantissa (nbits >>> 24) (nbits &&& 0x007fffff)

end GpuMiner

namespace CpuMiner

/-- `target_from_nbits` of the miner for CPUs. -/
def targetFromNbits (nbits : Nat) : Nat :=
  shiftMantissa (nbits >>> 24) (nbits &&& 0x7fffff)

end CpuMiner

namespace VerifyScript

/-- `target_from_nbits` of the verification scripts, which read the sign bit.
Python shifts a negative number by multiplying or by dividing downwards. -/
def targetFromNbits (nbits : Nat) : Int :=
  let exponent := nbits >>> 24
  let mantissa : Int := (nbits &&& 0x7fffff : Nat)
  let signed := if nbits &&& 0x800000 ≠ 0 then -mantissa else mantissa
  if exponent > 3 then signed * 2 ^ (8 * (exponent - 3))
  else signed / 2 ^ (8 * (3 - exponent))

end VerifyScript

namespace Firmware

/-- The loop that places the bytes of the mantissa, highest byte of the target
first. -/
def placeBytes (mant shiftBytes : Nat) : List Nat → List Byte → List Byte
  | [], out => out
  | i :: rest, out =>
    let posFromLsb := shiftBytes + i
    placeBytes mant shiftBytes rest
      (if posFromLsb < 32 then
        out.set (31 - posFromLsb) (BitVec.ofNat 8 (mant >>> (8 * i)))
      else out)

/-- `target_from_nbits` of the firmware, if it succeeds. -/
def targetFromNbits (nbits : Nat) : Option (List Byte) :=
  let exp := nbits >>> 24
  let mant := nbits &&& 0x007fffff
  if nbits &&& 0x00800000 ≠ 0 ∨ mant = 0 ∨ 32 < exp then none
  else
    some (placeBytes (if exp ≤ 3 then mant >>> (8 * (3 - exp)) else mant)
      (if exp ≤ 3 then 0 else exp - 3) [0, 1, 2] (List.replicate 32 0))

end Firmware

/-- `arith_uint256::GetCompact` with its sign argument. -/
def getCompactSigned (number : ArithUint256) (fNegative : Bool) : Nat :=
  let nCompact := getCompact number
  nCompact |||
    (if fNegative ∧ nCompact &&& 0x007fffff ≠ 0 then 0x00800000 else 0)

/-- The number written with its highest byte first. -/
def beValue (bytes : List Byte) : Nat :=
  leValue bytes.reverse

/-! ## Placed bytes -/

theorem leValue_append (left right : List Byte) :
    leValue (left ++ right) =
      leValue left + 256 ^ left.length * leValue right := by
  induction left with
  | nil => simp [leValue]
  | cons byte rest induction =>
    rw [List.cons_append, leValue, leValue, induction, List.length_cons,
      pow_succ]
    ring

/-- Three bytes in a row of zeros. -/
theorem reverse_set_three {place : Nat} (fits : place ≤ 29)
    (first second third : Byte) :
    ((((List.replicate 32 0).set (31 - (place + 0)) first).set
      (31 - (place + 1)) second).set (31 - (place + 2)) third).reverse =
        List.replicate place 0 ++ ([first, second, third] ++
          List.replicate (29 - place) 0) := by
  interval_cases place <;> rfl

theorem leBytes_three (mant : Nat) :
    leBytes 3 mant =
      [BitVec.ofNat 8 (mant >>> (8 * 0)), BitVec.ofNat 8 (mant >>> (8 * 1)),
        BitVec.ofNat 8 (mant >>> (8 * 2))] := by
  rw [leBytes, leBytes, leBytes, leBytes, Nat.div_div_eq_div_mul,
    Nat.shiftRight_eq_div_pow, Nat.shiftRight_eq_div_pow,
    Nat.shiftRight_eq_div_pow, Nat.mul_zero, Nat.pow_zero, Nat.div_one]

/-- The bytes of the mantissa in their place. -/
theorem reverse_placeBytes {mant shiftBytes : Nat} (fits : shiftBytes ≤ 29) :
    (Firmware.placeBytes mant shiftBytes [0, 1, 2]
      (List.replicate 32 0)).reverse =
        List.replicate shiftBytes 0 ++ (leBytes 3 mant ++
          List.replicate (29 - shiftBytes) 0) := by
  rw [Firmware.placeBytes, Firmware.placeBytes, Firmware.placeBytes,
    Firmware.placeBytes, if_pos (by omega), if_pos (by omega),
    if_pos (by omega), leBytes_three]
  exact reverse_set_three fits _ _ _

theorem length_placeBytes (mant shiftBytes : Nat) (places : List Nat)
    (out : List Byte) :
    (Firmware.placeBytes mant shiftBytes places out).length = out.length := by
  induction places generalizing out with
  | nil => rfl
  | cons i rest induction =>
    rw [Firmware.placeBytes, induction]
    split_ifs
    · exact List.length_set
    · rfl

theorem beValue_placeBytes {mant shiftBytes : Nat} (fits : shiftBytes ≤ 29)
    (small : mant < 256 ^ 3) :
    beValue (Firmware.placeBytes mant shiftBytes [0, 1, 2]
      (List.replicate 32 0)) = mant * 256 ^ shiftBytes := by
  rw [beValue, reverse_placeBytes fits, leValue_append, leValue_append,
    leValue_zeros, leValue_zeros, leValue_leBytes, Nat.mod_eq_of_lt small,
    List.length_replicate]
  ring

/-! ## The node -/

/-- What `DeriveTarget` returns. -/
theorem deriveTarget_eq_some {nBits : Nat} {powLimit target : ArithUint256}
    (accepted : deriveTarget nBits powLimit = some target) :
    compactNegative nBits = false ∧ target.toNat = decodeTarget nBits ∧
      target.toNat ≠ 0 ∧ target.toNat ≤ powLimit.toNat := by
  rw [deriveTarget] at accepted
  split at accepted
  · cases accepted
  · next fine =>
    cases accepted
    rw [Bool.or_eq_true, Bool.or_eq_true, Bool.or_eq_true,
      ArithUint256.equalTo_iff _ _ (by norm_num), ArithUint256.gt_iff] at fine
    refine ⟨?_, toNat_setCompact nBits, fun zero => ?_, ?_⟩
    · rw [← setCompact_negative]
      exact Bool.eq_false_iff.mpr fun negative =>
        fine (.inl (.inl (.inl negative)))
    · exact fine (.inl (.inl (.inr zero)))
    · exact Nat.not_lt.mp fun large => fine (.inr large)

/-- The unbounded target of a compact value. -/
theorem shiftMantissa_eq (nBits : Nat) :
    shiftMantissa (nBits >>> 24) (nBits &&& 0x007fffff) =
      compactWord nBits * 256 ^ (compactSize nBits - 3) := by
  have word := shifted_mantissa nBits
  have size : nBits >>> 24 = compactSize nBits := Nat.shiftRight_eq_div_pow _ _
  rw [size] at word ⊢
  rw [shiftMantissa, ← word]
  split
  · next short =>
    have none : compactSize nBits - 3 = 0 := by omega
    rw [none, Nat.pow_zero, Nat.mul_one]
  · rw [Nat.shiftLeft_eq, pow_256]

/-- What is known of a compact value that the node made and accepts. -/
structure Canonical (nBits target : Nat) : Prop where
  word : nBits < 2 ^ 32
  positive : nBits / 2 ^ 23 % 2 = 0
  mantissa : nBits % 2 ^ 23 ≠ 0
  size : compactSize nBits ≤ 32
  value : compactWord nBits * 256 ^ (compactSize nBits - 3) = target

theorem compactSize_encodeTarget_le
    {target : Nat} (bounded : target < 2 ^ 255) :
    compactSize (encodeTarget target) ≤ 32 := by
  have leading := leadingBytes_lt target
  have bytes : byteSize target ≤ 32 :=
    byteSize_le (lt_trans bounded (by norm_num))
  rw [compactSize, encodeTarget]
  split_ifs with sign
  · -- A target of 32 bytes with its highest bit set is too large.
    have shorter : byteSize target ≠ 32 := by
      intro full
      rw [leadingBytes, full] at sign
      omega
    omega
  · omega

/-- A sign bit that `GetCompact` sets is refused. -/
theorem compactNegative_getCompactSigned {number : ArithUint256}
    (nonzero : getCompact number &&& 0x007fffff ≠ 0) :
    compactNegative (getCompact number ||| 0x00800000) = true := by
  have size : compactSize (getCompact number ||| 0x00800000) =
      compactSize (getCompact number) := by
    rw [compactSize, compactSize, ← Nat.shiftRight_eq_div_pow,
      Nat.shiftRight_or_distrib, Nat.shiftRight_eq_div_pow]
    exact Nat.or_zero _
  have mantissa : (getCompact number ||| 0x00800000) % 2 ^ 23 =
      getCompact number % 2 ^ 23 := by
    rw [← low_mantissa, ← low_mantissa, Nat.and_or_distrib_right]
    exact Nat.or_zero _
  have word : compactWord (getCompact number ||| 0x00800000) =
      compactWord (getCompact number) := by
    rw [compactWord, compactWord, size, mantissa]
  have numberNonzero : number.toNat ≠ 0 := by
    intro zero
    rw [getCompact_eq, zero] at nonzero
    exact nonzero rfl
  have wordNonzero : compactWord (getCompact number) ≠ 0 := by
    intro zero
    apply roundTarget_ne_zero numberNonzero
    rw [← decodeTarget_encodeTarget number.toNat_lt, ← getCompact_eq,
      decodeTarget, zero, Nat.zero_mul, Nat.zero_mod]
  rw [compactNegative, word, decide_eq_true_iff, ← sign_bit_iff,
    Nat.and_or_distrib_right, Nat.and_self]
  refine ⟨wordNonzero, fun zero => ?_⟩
  exact absurd (Nat.or_eq_zero_iff.mp zero).2 (by norm_num)

/-- The sign argument is not used for a value that is accepted. -/
theorem getCompactSigned_of_accepted
    {powLimit number target : ArithUint256} {fNegative : Bool}
    (accepted : deriveTarget (getCompactSigned number fNegative) powLimit =
      some target) :
    getCompactSigned number fNegative = getCompact number := by
  have positive := (deriveTarget_eq_some accepted).1
  rw [getCompactSigned] at positive ⊢
  split_ifs at positive ⊢ with sign
  · rw [compactNegative_getCompactSigned sign.2] at positive
    cases positive
  · exact Nat.or_zero _

theorem canonical_of_accepted {powLimit number target : ArithUint256}
    (limit : powLimit.toNat < 2 ^ 255)
    (accepted : deriveTarget (getCompact number) powLimit = some target) :
    Canonical (getCompact number) target.toNat := by
  obtain ⟨-, decoded, nonzero, bounded⟩ := deriveTarget_eq_some accepted
  rw [getCompact_eq] at decoded ⊢
  rw [decodeTarget_encodeTarget number.toNat_lt] at decoded
  have numberNonzero : number.toNat ≠ 0 := by
    intro zero
    rw [zero] at decoded
    exact nonzero decoded
  -- The rounded number has the same compact value and lies below the limit.
  have size : compactSize (encodeTarget number.toNat) ≤ 32 := by
    rw [← encodeTarget_roundTarget numberNonzero, ← decoded]
    exact compactSize_encodeTarget_le (lt_of_le_of_lt bounded limit)
  obtain ⟨mantissa, exponent, encoded, small, -, -, rounded⟩ :=
    encodeTarget_fields number.toNat
  obtain ⟨sizeEq, wordEq, -⟩ := compact_fields exponent small
  rw [encoded] at size ⊢
  rw [sizeEq] at size
  refine ⟨by omega, by omega, fun zero => nonzero ?_, ?_, ?_⟩
  · have none : mantissa = 0 := by omega
    rw [decoded, ← rounded, none, Nat.zero_div, Nat.zero_mul]
  · rw [sizeEq]
    exact size
  · rw [sizeEq, wordEq, rounded, decoded]

/-! ## Agreement -/

namespace Canonical

variable {nBits target : Nat}

section

variable (canonical : Canonical nBits target)

include canonical

theorem shiftMantissa_eq :
    shiftMantissa (nBits >>> 24) (nBits &&& 0x007fffff) = target := by
  rw [Pow.shiftMantissa_eq, canonical.value]

theorem sign_clear :
    ¬ nBits &&& 0x00800000 ≠ 0 := by
  rw [sign_bit_iff, canonical.positive]
  norm_num

theorem targetFromBits :
    Stratum.targetFromBits nBits = target := by
  have word : JsNumber.bits nBits = BitVec.ofNat 32 nBits :=
    BitVec.ofInt_natCast 32 nBits
  have number : (BitVec.ofNat 32 nBits).toNat = nBits := by
    rw [BitVec.toNat_ofNat, Nat.mod_eq_of_lt canonical.word]
  rw [← canonical.shiftMantissa_eq, Stratum.targetFromBits, word,
    shiftMantissa, BitVec.toNat_ushiftRight, BitVec.toNat_and, number]
  rfl

theorem verifyScript :
    VerifyScript.targetFromNbits nBits = target := by
  rw [VerifyScript.targetFromNbits, if_neg canonical.sign_clear,
    ← canonical.shiftMantissa_eq, shiftMantissa]
  split_ifs with long short short
  · omega
  · rw [Nat.shiftLeft_eq]
    push_cast
    rfl
  · rw [Nat.shiftRight_eq_div_pow (nBits &&& 0x007fffff)]
    push_cast
    rfl
  · omega

theorem firmware :
    ∃ bytes, Firmware.targetFromNbits nBits = some bytes ∧
      bytes.length = 32 ∧ beValue bytes = target := by
  have size : nBits >>> 24 = compactSize nBits := Nat.shiftRight_eq_div_pow _ _
  have sizeLe := canonical.size
  have fine : ¬ (nBits &&& 0x00800000 ≠ 0 ∨ nBits &&& 0x007fffff = 0 ∨
      32 < nBits >>> 24) := by
    rw [low_mantissa, size, not_or, not_or]
    exact ⟨canonical.sign_clear, canonical.mantissa, Nat.not_lt.mpr sizeLe⟩
  have shift : (if nBits >>> 24 ≤ 3 then 0 else nBits >>> 24 - 3) =
      compactSize nBits - 3 := by
    rw [size]
    split_ifs <;> omega
  refine ⟨_, if_neg fine, ?_, ?_⟩
  · exact length_placeBytes _ _ _ _
  · rw [shifted_mantissa, shift, beValue_placeBytes (by omega)
      (lt_trans (compactWord_lt nBits) (by norm_num)), canonical.value]

end

end Canonical

theorem powLimit_lt (network : Network) :
    network.params.powLimit.toNat < 2 ^ 255 := by
  rw [network.toNat_powLimit]
  cases network <;> norm_num [Network.powLimitNat]

/-- On a compact value that the node makes and accepts, the pool, the miners
and the firmware find the target of the node. -/
theorem decoders_agree (network : Network) (number : ArithUint256)
    (fNegative : Bool) (target : ArithUint256)
    (accepted : deriveTarget (getCompactSigned number fNegative)
      network.params.powLimit = some target) :
    let nBits := getCompactSigned number fNegative
    nBits < 2 ^ 32 ∧
      Stratum.targetFromBits nBits = target.toNat ∧
      GpuMiner.targetFromNbits nBits = target.toNat ∧
      CpuMiner.targetFromNbits nBits = target.toNat ∧
      VerifyScript.targetFromNbits nBits = target.toNat ∧
      ∃ bytes, Firmware.targetFromNbits nBits = some bytes ∧
        bytes.length = 32 ∧ beValue bytes = target.toNat := by
  have unsigned := getCompactSigned_of_accepted accepted
  rw [unsigned] at accepted
  have canonical := canonical_of_accepted (powLimit_lt network) accepted
  rw [unsigned]
  exact ⟨canonical.word, canonical.targetFromBits, canonical.shiftMantissa_eq,
    canonical.shiftMantissa_eq, canonical.verifyScript, canonical.firmware⟩

theorem one_byte_decoders_agree :
    deriveTarget (getCompactSigned (.ofUint64 0x12) false)
        Network.main.params.powLimit = some (.ofUint64 0x12) ∧
      Firmware.targetFromNbits 0x01120000 =
        some (List.replicate 31 0 ++ [0x12]) ∧
      Stratum.targetFromBits (getCompactSigned (.ofUint64 0x12) false) =
        (ArithUint256.ofUint64 0x12).toNat := by
  have accepted : deriveTarget (getCompactSigned (.ofUint64 0x12) false)
      Network.main.params.powLimit = some (.ofUint64 0x12) := by
    decide +kernel
  exact ⟨accepted, by decide +kernel,
    (decoders_agree .main (.ofUint64 0x12) false _ accepted).2.1⟩

end B3Chain.Pow
