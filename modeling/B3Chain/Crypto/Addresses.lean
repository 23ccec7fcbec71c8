import B3Chain.Crypto.B3PowScratch

/-!
# The distribution of block addresses

The address of a lane is an eleven-bit window of a product, masked with the low
word of the lane.  For every multiplier, also the even one, some step added to
the second word adds one to the window.  So all windows have equally many
second words.
-/

namespace B3Chain.Crypto

open B3Chain.Words

/-! ## Functions that count -/

theorem card_bitVec (width : Nat) :
    Fintype.card (BitVec width) = 2 ^ width := by
  rw [Fintype.card_congr BitVec.equivFin.toEquiv, Fintype.card_fin]

/-- A function that a permutation makes count takes every value equally
often. -/
theorem card_fiber_of_counts {Index : Type*} [Fintype Index] {width : Nat}
    (count : Index → BitVec width) (step : Equiv.Perm Index)
    (counts : ∀ index, count (step index) = count index + 1)
    (value : BitVec width) :
    2 ^ width * (Finset.univ.filter (count · = value)).card =
      Fintype.card Index := by
  have next : ∀ value, (Finset.univ.filter (count · = value + 1)).card =
      (Finset.univ.filter (count · = value)).card := by
    intro value
    symm
    apply Finset.card_equiv step
    intro index
    simp [counts]
  have same : ∀ distance : Nat,
      (Finset.univ.filter
        (count · = value + BitVec.ofNat width distance)).card =
        (Finset.univ.filter (count · = value)).card := by
    intro distance
    induction distance with
    | zero => simp
    | succ distance induction =>
      rw [BitVec.ofNat_add, ← BitVec.add_assoc]
      exact (next _).trans induction
  have all : ∀ other, (Finset.univ.filter (count · = other)).card =
      (Finset.univ.filter (count · = value)).card := by
    intro other
    have reached := same (other - value).toNat
    rwa [BitVec.ofNat_toNat, BitVec.setWidth_eq, BitVec.add_comm,
      BitVec.sub_add_cancel] at reached
  calc
    2 ^ width * (Finset.univ.filter (count · = value)).card =
        ∑ other : BitVec width,
          (Finset.univ.filter (count · = other)).card := by
      simp [all, card_bitVec]
    _ = Fintype.card Index :=
      (Finset.card_eq_sum_card_fiberwise fun _ _ => Finset.mem_univ _).symm

/-! ## The window of the product -/

/-- The bits of the product that reach the address. -/
def window (r : Nat) (L : Fin laneCount) (hi : DoubleWord) : BitVec 11 :=
  ((hi ^^^ BitVec.ofNat _ r) * iterMul L).extractLsb' 23 11

/-- What to add to a factor so that the product grows by one in the window. -/
def windowStep : Fin laneCount → DoubleWord :=
  ![0x72578F3167800000, 0xA9F9D9C9A9800000, 0xD8647A5765800000,
    0x22A0F661F5800000, 0x204C626257800000, 0xFAF3367C36800000,
    0x804D16026F380000, 0xC56CFF0FA3800000]

theorem windowStep_mul (L : Fin laneCount) :
    windowStep L * iterMul L = 8388608 := by
  revert L
  decide

theorem extractLsb'_add_pow (product : DoubleWord) :
    (product + 8388608).extractLsb' 23 11 =
      product.extractLsb' 23 11 + 1 := by
  have carry : ∀ number : Nat,
      (number + 2 ^ 23) % (2 ^ 23 * 2 ^ 41) / 2 ^ 23 % 2 ^ 11 =
        (number / 2 ^ 23 % 2 ^ 11 + 1) % 2 ^ 11 := by
    intro number
    rw [Nat.mod_mul_right_div_self, Nat.mod_mod_of_dvd _ (by decide),
      Nat.add_div_right _ (by decide), Nat.mod_add_mod]
  have power : (8388608 : DoubleWord).toNat = 2 ^ 23 := by decide
  have one : (1 : BitVec 11).toNat = 1 := by decide
  apply BitVec.eq_of_toNat_eq
  rw [BitVec.extractLsb'_toNat, BitVec.toNat_add, BitVec.toNat_add, power, one,
    BitVec.extractLsb'_toNat, Nat.shiftRight_eq_div_pow,
    Nat.shiftRight_eq_div_pow]
  exact carry product.toNat

/-- The step on second words, with the iteration index taken off and put
back. -/
def wordStep (r : Nat) (L : Fin laneCount) : Equiv.Perm DoubleWord where
  toFun hi := (hi ^^^ BitVec.ofNat _ r) + windowStep L ^^^ BitVec.ofNat _ r
  invFun hi := (hi ^^^ BitVec.ofNat _ r) - windowStep L ^^^ BitVec.ofNat _ r
  left_inv hi := by
    simp
  right_inv hi := by
    simp

theorem window_wordStep (r : Nat) (L : Fin laneCount) (hi : DoubleWord) :
    window r L (wordStep r L hi) = window r L hi + 1 := by
  have factor : wordStep r L hi ^^^ BitVec.ofNat _ r =
      (hi ^^^ BitVec.ofNat _ r) + windowStep L := by
    simp [wordStep]
  rw [window, factor, BitVec.add_mul, windowStep_mul, extractLsb'_add_pow,
    window]

theorem card_window (r : Nat) (L : Fin laneCount) (value : BitVec 11) :
    (Finset.univ.filter (window r L · = value)).card = 2 ^ 53 := by
  have fiber := card_fiber_of_counts (window r L) (wordStep r L)
    (window_wordStep r L) value
  rw [card_bitVec] at fiber
  omega

/-! ## Addresses -/

/-- The lanes with another second word in one of them. -/
def withSecondWord (lanes : Lanes) (L : Fin laneCount) (hi : DoubleWord) :
    Lanes :=
  Function.update lanes L (splice (lanes L) 8 (writeLE hi : Bytes 8))

theorem withSecondWord_of_ne (lanes : Lanes) {L other : Fin laneCount}
    (hi : DoubleWord) (apart : other ≠ L) :
    withSecondWord lanes L hi other = lanes other :=
  Function.update_of_ne apart _ _

theorem getLsbD_mask {bit : Nat} (inside : bit < 64) :
    (2047 : DoubleWord).getLsbD bit = decide (bit < 11) := by
  have power : (2047 : DoubleWord) = BitVec.ofNat 64 (2 ^ 11 - 1) := by
    decide
  rw [power, BitVec.getLsbD_ofNat, Nat.testBit_two_pow_sub_one,
    decide_eq_true inside, Bool.true_and]

/-- The mask keeps the window and the low bits of the first word. -/
theorem masked_eq_window (lo product : DoubleWord) :
    (lo ^^^ rotr64 product 23) &&& 2047 =
      (lo.setWidth 11 ^^^ product.extractLsb' 23 11).setWidth 64 := by
  apply BitVec.eq_of_getLsbD_eq
  intro bit inside
  rw [BitVec.getLsbD_and, getLsbD_mask inside, BitVec.getLsbD_setWidth,
    BitVec.getLsbD_xor, BitVec.getLsbD_xor, rotr64, BitVec.getLsbD_or,
    BitVec.getLsbD_ushiftRight, BitVec.getLsbD_shiftLeft,
    BitVec.getLsbD_setWidth, BitVec.getLsbD_extractLsb']
  by_cases low : bit < 11
  · have unshifted : bit < 64 - 23 := by omega
    simp [low, unshifted, inside]
  · simp [low]

theorem deriveAddress_val (lanes : Lanes) (r : Nat) (L : Fin laneCount) :
    (deriveAddress lanes r L).val =
      ((readLE (slice (lanes L) 0 (by decide) : Bytes 8)).setWidth 11 ^^^
        window r L
          (readLE (slice (lanes L) 8 (by decide) : Bytes 8))).toNat := by
  unfold deriveAddress
  dsimp only
  rw [masked_eq_window, BitVec.toNat_setWidth_of_le (by decide)]
  rfl

theorem deriveAddress_withSecondWord (lanes : Lanes) (r : Nat)
    (L : Fin laneCount) (hi : DoubleWord) (address : Fin laneBlocks) :
    deriveAddress (withSecondWord lanes L hi) r L = address ↔
      window r L hi =
        (readLE (slice (lanes L) 0 (by decide) : Bytes 8)).setWidth 11 ^^^
          BitVec.ofNat 11 address := by
  have first : (slice (withSecondWord lanes L hi L) 0 (by decide) : Bytes 8) =
      slice (lanes L) 0 (by decide) := by
    rw [withSecondWord, Function.update_self]
    exact slice_splice_disjoint _ _ _ (Or.inr le_rfl)
  have second : (slice (withSecondWord lanes L hi L) 8 (by decide) :
      Bytes 8) = writeLE hi := by
    rw [withSecondWord, Function.update_self]
    exact slice_splice_same _ _ _ _
  have value : address.val = (BitVec.ofNat 11 address.val).toNat :=
    (Nat.mod_eq_of_lt address.isLt).symm
  rw [Fin.ext_iff, deriveAddress_val, first, second, readLE_writeLE]
  constructor
  · intro same
    have bits := BitVec.toNat_inj.mp (same.trans value)
    rw [← bits, ← BitVec.xor_assoc, BitVec.xor_self, BitVec.zero_xor]
  · intro same
    rw [same, ← BitVec.xor_assoc, BitVec.xor_self, BitVec.zero_xor]
    exact value.symm

theorem exists_deriveAddress (lanes : Lanes) (r : Nat) (L : Fin laneCount)
    (address : Fin laneBlocks) :
    ∃ hi, deriveAddress (withSecondWord lanes L hi) r L = address := by
  have some := card_window r L
    ((readLE (slice (lanes L) 0 (by decide) : Bytes 8)).setWidth 11 ^^^
      BitVec.ofNat 11 address)
  obtain ⟨hi, member⟩ := Finset.card_pos.mp (some ▸ Nat.two_pow_pos 53)
  exact ⟨hi, (deriveAddress_withSecondWord lanes r L hi address).mpr
    (Finset.mem_filter.mp member).2⟩

/-- For every lane, iteration and low word, each address has the same number
of second words. -/
theorem address_preimages (lanes : Lanes) (r : Nat) (L : Fin laneCount)
    (address : Fin laneBlocks) :
    (Finset.univ.filter fun hi : DoubleWord =>
      deriveAddress (withSecondWord lanes L hi) r L = address).card =
        2 ^ 53 := by
  simp only [deriveAddress_withSecondWord]
  exact card_window r L _

end B3Chain.Crypto
