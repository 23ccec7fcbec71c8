import Mathlib

/-!
# Bytes, little-endian words and aligned blocks

Byte strings of a fixed length are functions on `Fin`.  Words are read from
and written to them in little-endian order, bit by bit, and the two directions
are inverse to each other.  A flat memory is read and overwritten in ranges;
overwriting one block of an aligned memory leaves the other blocks alone.
-/

namespace B3Chain.Words

abbrev Byte := BitVec 8

/-- A byte string of fixed length. -/
abbrev Bytes (size : Nat) := Fin size → Byte

/-! ## Little-endian words -/

/-- The word whose bytes, lowest first, are given. -/
def readLE {size : Nat} (bytes : Bytes size) : BitVec (8 * size) :=
  BitVec.ofFnLE fun bit =>
    (bytes ⟨bit / 8, by omega⟩).getLsbD (bit % 8)

/-- The bytes of a word, lowest first. -/
def writeLE {size : Nat} (word : BitVec (8 * size)) : Bytes size :=
  fun index => word.extractLsb' (8 * index) 8

theorem getLsbD_readLE {size : Nat} (bytes : Bytes size) {bit : Nat}
    (inside : bit < 8 * size) :
    (readLE bytes).getLsbD bit =
      (bytes ⟨bit / 8, by omega⟩).getLsbD (bit % 8) := by
  simp [readLE, inside]

@[simp]
theorem readLE_writeLE {size : Nat} (word : BitVec (8 * size)) :
    readLE (writeLE word) = word := by
  apply BitVec.eq_of_getLsbD_eq
  intro bit inside
  have split : 8 * (bit / 8) + bit % 8 = bit := Nat.div_add_mod bit 8
  have low : bit % 8 < 8 := Nat.mod_lt _ (by norm_num)
  simp [readLE, writeLE, inside, low, split]

@[simp]
theorem writeLE_readLE {size : Nat} (bytes : Bytes size) :
    writeLE (readLE bytes) = bytes := by
  funext index
  apply BitVec.eq_of_getLsbD_eq
  intro bit inside
  have inWord : 8 * index.val + bit < 8 * size := by omega
  have quotient : (8 * index.val + bit) / 8 = index.val := by omega
  have remainder : (8 * index.val + bit) % 8 = bit := by omega
  simp [readLE, writeLE, inside, inWord, quotient,
    remainder]

/-- A byte string as words of `width` bytes. -/
def toWords {width count : Nat} (bytes : Bytes (width * count)) :
    Fin count → BitVec (8 * width) :=
  fun word => readLE fun byte =>
    bytes ⟨width * word + byte, by
      calc
        width * word.val + byte.val < width * word.val + width := by omega
        _ = width * (word.val + 1) := by ring
        _ ≤ width * count := Nat.mul_le_mul_left width word.isLt⟩

/-- Words written one after another. -/
def ofWords {width count : Nat} (words : Fin count → BitVec (8 * width)) :
    Bytes (width * count) :=
  fun index =>
    writeLE
      (words ⟨index / width, Nat.div_lt_of_lt_mul index.isLt⟩)
      ⟨index % width, Nat.mod_lt _ (Nat.pos_of_ne_zero (by
        rintro rfl
        have inside := index.isLt
        omega))⟩

@[simp]
theorem toWords_ofWords
    {width count : Nat} (words : Fin count → BitVec (8 * width)) :
    toWords (ofWords words) = words := by
  funext word
  have bytes :
      (fun byte : Fin width =>
        ofWords words ⟨width * word + byte, by
          calc
            width * word.val + byte.val < width * word.val + width := by
              omega
            _ = width * (word.val + 1) := by ring
            _ ≤ width * count := Nat.mul_le_mul_left width word.isLt⟩) =
        writeLE (words word) := by
    funext byte
    have positive : 0 < width := lt_of_le_of_lt (Nat.zero_le _) byte.isLt
    have quotient : (width * word.val + byte.val) / width = word.val := by
      rw [Nat.mul_add_div positive, Nat.div_eq_of_lt byte.isLt,
        Nat.add_zero]
    have remainder : (width * word.val + byte.val) % width = byte.val := by
      rw [Nat.mul_add_mod, Nat.mod_eq_of_lt byte.isLt]
    simp only [ofWords, quotient, remainder]
  rw [toWords, bytes, readLE_writeLE]

@[simp]
theorem ofWords_toWords
    {width count : Nat} (bytes : Bytes (width * count)) :
    ofWords (toWords bytes) = bytes := by
  funext index
  simp only [ofWords, toWords, writeLE_readLE]
  congr 1
  exact Fin.ext (Nat.div_add_mod index.val width)

/-- An exclusive or of words is one of their bytes. -/
theorem ofWords_xor
    {width count : Nat} (bytes : Bytes (width * count))
    (words : Fin count → BitVec (8 * width)) :
    ofWords (fun word => toWords bytes word ^^^ words word) =
      fun index => bytes index ^^^ ofWords words index := by
  funext index
  have same := congrFun (ofWords_toWords bytes) index
  simp only [ofWords, writeLE] at same ⊢
  rw [BitVec.extractLsb'_xor, same]

/-! ## Ranges of a flat memory -/

/-- The bytes from `offset` on. -/
def slice {total size : Nat} (memory : Bytes total) (offset : Nat)
    (inside : offset + size ≤ total) : Bytes size :=
  fun index => memory ⟨offset + index, by omega⟩

theorem slice_congr
    {total size offset other : Nat} (memory : Bytes total)
    (equal : offset = other) (inside : offset + size ≤ total)
    (otherInside : other + size ≤ total) :
    slice memory offset inside = slice memory other otherInside := by
  subst equal
  rfl

/-- The memory with the bytes from `offset` on replaced. -/
def splice {total size : Nat} (memory : Bytes total) (offset : Nat)
    (block : Bytes size) : Bytes total :=
  fun index =>
    if inside : offset ≤ index ∧ index < offset + size then
      block ⟨index - offset, by omega⟩
    else memory index

@[simp]
theorem slice_splice_same
    {total size : Nat} (memory : Bytes total) (offset : Nat)
    (inside : offset + size ≤ total) (block : Bytes size) :
    slice (splice memory offset block) offset inside = block := by
  funext index
  simp only [slice, splice]
  rw [dif_pos ⟨by omega, by omega⟩]
  congr 1
  exact Fin.ext (by simp)

theorem slice_splice_disjoint
    {total size : Nat} (memory : Bytes total) {offset other : Nat}
    (inside : other + size ≤ total) (block : Bytes size)
    (apart : offset + size ≤ other ∨ other + size ≤ offset) :
    slice (splice memory offset block) other inside =
      slice memory other inside := by
  funext index
  simp only [slice, splice]
  rw [dif_neg]
  rintro ⟨lower, upper⟩
  have bound := index.isLt
  omega

/-! ## Words put together by shifts -/

/-- A byte moved to its place in a word. -/
theorem getLsbD_placed (byte : Byte) (place : Nat) {bit : Nat}
    (inside : bit < 32) :
    (byte.setWidth 32 <<< (8 * place)).getLsbD bit =
      (decide (bit / 8 = place) && byte.getLsbD (bit % 8)) := by
  rw [BitVec.getLsbD_shiftLeft, BitVec.getLsbD_setWidth]
  rcases Nat.lt_trichotomy (bit / 8) place with below | here | above
  · have lower : bit < 8 * place := by omega
    simp [lower, below.ne]
  · have same : bit - 8 * place = bit % 8 := by omega
    have upper : ¬bit < 8 * place := by omega
    have low : bit % 8 < 32 := by omega
    simp [inside, same, here, upper, low]
  · simp [above.ne', BitVec.getLsbD_of_ge byte (bit - 8 * place) (by omega)]

theorem readLE_four (bytes : Bytes 4) :
    (readLE bytes : BitVec 32) =
      (bytes 0).setWidth 32 ||| (bytes 1).setWidth 32 <<< 8 |||
        (bytes 2).setWidth 32 <<< 16 ||| (bytes 3).setWidth 32 <<< 24 := by
  apply BitVec.eq_of_getLsbD_eq
  intro bit inside
  have first := getLsbD_placed (bytes 0) 0 inside
  rw [Nat.mul_zero, BitVec.shiftLeft_zero] at first
  rw [getLsbD_readLE bytes inside, BitVec.getLsbD_or, BitVec.getLsbD_or,
    BitVec.getLsbD_or, first, getLsbD_placed (bytes 1) 1 inside,
    getLsbD_placed (bytes 2) 2 inside, getLsbD_placed (bytes 3) 3 inside]
  have place : bit / 8 = 0 ∨ bit / 8 = 1 ∨ bit / 8 = 2 ∨ bit / 8 = 3 := by
    omega
  rcases place with here | here | here | here <;> simp [here]

theorem readLE_eight (bytes : Bytes 8) :
    (readLE bytes).toNat =
      (readLE (slice bytes 0 (by decide) : Bytes 4)).toNat |||
        (readLE (slice bytes 4 (by decide) : Bytes 4)).toNat <<< 32 := by
  apply Nat.eq_of_testBit_eq
  intro bit
  rw [Nat.testBit_or, Nat.testBit_shiftLeft, BitVec.testBit_toNat,
    BitVec.testBit_toNat, BitVec.testBit_toNat]
  rcases Nat.lt_or_ge bit 32 with low | high
  · have lower : ¬32 ≤ bit := by omega
    rw [getLsbD_readLE bytes (by omega), getLsbD_readLE _ (by omega)]
    simp [lower, slice]
  · rw [BitVec.getLsbD_of_ge (readLE (slice bytes 0 _ : Bytes 4)) bit
      (by omega)]
    rcases Nat.lt_or_ge bit 64 with inside | outside
    · have quotient : 4 + (bit - 32) / 8 = bit / 8 := by omega
      have remainder : (bit - 32) % 8 = bit % 8 := by omega
      rw [getLsbD_readLE bytes (by omega), getLsbD_readLE _ (by omega)]
      simp only [slice, quotient, remainder, high, decide_true,
        Bool.true_and, Bool.false_or]
    · rw [BitVec.getLsbD_of_ge _ bit (by omega),
        BitVec.getLsbD_of_ge _ (bit - 32) (by omega), Bool.and_false,
        Bool.false_or]

end B3Chain.Words
