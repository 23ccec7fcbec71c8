import B3Chain.Crypto.Mixer
import B3Chain.Words.JsNumber

/-!
# The ports of the hash agree with the C++ code

The pool's TypeScript port holds words in ECMAScript numbers and 64-bit values
in `BigInt`s, the miner's Rust port wraps, and the Python reference masks
unbounded integers.  Each of them embeds the 32-bit words, so all compute the
hash that `Hash` computes without a budget.
-/

namespace B3Chain.Crypto

open B3Chain.Words

attribute [local instance] neZero_sixteen neZero_eight neZero_four

/-! ## Addresses -/

theorem lowHalf_le : 0 + 8 ≤ 32 := by decide

theorem highHalf_le : 8 + 8 ≤ 32 := by decide

/-- The last step of `derive_addresses`. -/
def maskAddress (mixed : Nat) : Fin laneBlocks :=
  ⟨mixed &&& (laneBlocks - 1),
    Nat.lt_of_le_of_lt Nat.and_le_right (by decide)⟩

/-! ## Masked integers -/

theorem and_mask64 (x : Nat) : x &&& 0xffffffffffffffff = x % 2 ^ 64 :=
  Nat.and_two_pow_sub_one_eq_mod x 64

theorem and_mask32 (x : Nat) : x &&& 0xffffffff = x % 2 ^ 32 :=
  Nat.and_two_pow_sub_one_eq_mod x 32

/-- A rotation of an unbounded integer, masked afterwards. -/
theorem toNat_rotr64 (x : DoubleWord) (n : Nat) :
    ((x.toNat >>> n) ||| (x.toNat <<< (64 - n))) % 2 ^ 64 =
      (rotr64 x n).toNat := by
  have low : x.toNat >>> n < 2 ^ 64 :=
    Nat.lt_of_le_of_lt (Nat.shiftRight_le _ _) x.isLt
  rw [rotr64, BitVec.toNat_or, BitVec.toNat_ushiftRight,
    BitVec.toNat_shiftLeft, Nat.or_mod_two_pow, Nat.mod_eq_of_lt low]

/-- A rotation of an unbounded integer, masked afterwards. -/
theorem toNat_rotr32 (x : Word) (n : Nat) :
    ((x.toNat >>> n) ||| (x.toNat <<< (32 - n))) % 2 ^ 32 =
      (rotr32 x n).toNat := by
  have low : x.toNat >>> n < 2 ^ 32 :=
    Nat.lt_of_le_of_lt (Nat.shiftRight_le _ _) x.isLt
  rw [rotr32, BitVec.toNat_or, BitVec.toNat_ushiftRight,
    BitVec.toNat_shiftLeft, Nat.or_mod_two_pow, Nat.mod_eq_of_lt low]

/-- The address arithmetic on unbounded integers. -/
theorem toNat_mixed (lo hi mul : DoubleWord) {r : Nat} (small : r < 2 ^ 32)
    {product : Nat}
    (masked : product = (hi.toNat ^^^ r) * mul.toNat % 2 ^ 64) :
    lo.toNat ^^^
        (((product >>> 23) ||| (product <<< (64 - 23))) % 2 ^ 64) =
      (lo ^^^ rotr64 ((hi ^^^ BitVec.ofNat _ r) * mul) 23).toNat := by
  have same : product = ((hi ^^^ BitVec.ofNat _ r) * mul).toNat := by
    rw [masked, BitVec.toNat_mul, BitVec.toNat_xor, BitVec.toNat_ofNat,
      Nat.mod_eq_of_lt (small.trans (by decide) : r < 2 ^ (8 * 8))]
  rw [BitVec.toNat_xor, same, toNat_rotr64]

/-! ## TypeScript -/

namespace TypeScript

open JsNumber

def mask64 : Nat := 0xffffffffffffffff

/-- `rotr32`. -/
def rotr32 (x : Int) (n : Nat) : Int :=
  let v := ushr x 0
  ushr (bitOr (ushr v n) (shl v (32 - n))) 0

/-- `rotr64`, on a `BigInt` that is not negative. -/
def rotr64 (x n : Nat) : Nat :=
  ((x >>> n) ||| (x <<< (64 - n))) &&& mask64

/-- `add32`. -/
def add32 (a b c : Int) : Int :=
  ushr (add (ushr (add a b) 0) c) 0

/-- `readLEWord`. -/
def readLEWord (buf : Bytes 4) : Int :=
  ushr (bitOr (bitOr (bitOr (buf 0).toNat (shl (buf 1).toNat 8))
    (shl (buf 2).toNat 16)) (shl (buf 3).toNat 24)) 0

/-- `readLEUint64`. -/
def readLEUint64 (buf : Bytes 8) : Nat :=
  let lo := (readLEWord (slice buf 0 (by decide))).toNat
  let hi := (readLEWord (slice buf 4 (by decide))).toNat
  lo ||| (hi <<< 32)

/-- One word of `writeLEWords`; the seed buffers store numbers alike. -/
def writeLEWord (word : Int) : Bytes 4 :=
  ![toUint8 (bitAnd word 0xff), toUint8 (bitAnd (ushr word 8) 0xff),
    toUint8 (bitAnd (ushr word 16) 0xff), toUint8 (bitAnd (ushr word 24) 0xff)]

def iterMul : Fin laneCount → Nat :=
  ![0xA0761D6478BD642F, 0xE7037ED1A0B428DB, 0x8EBC6AF09C88C6E3,
    0x589965CC75374CC3, 0x1D8E4E27C47D124F, 0xEB44ACCAB455D165,
    0xC863B19A77C75D70, 0x6E5C6F88AA5BDA77]

/-- One address of `deriveAddresses`. -/
def deriveAddress (lane : Lane) (iterIdx : Nat) (L : Fin laneCount) :
    Fin laneBlocks :=
  let itr := (ushr iterIdx 0).toNat
  let lo := readLEUint64 (slice lane 0 lowHalf_le)
  let hi := readLEUint64 (slice lane 8 highHalf_le)
  let mul := ((hi ^^^ itr) * iterMul L) &&& mask64
  let mixed := lo ^^^ rotr64 mul 23
  maskAddress mixed

/-- The tables and operations of `b3pow-scratch.ts`. -/
def port : Port Int where
  blake3Iv :=
    ![0x6a09e667, 0xbb67ae85, 0x3c6ef372, 0xa54ff53a,
      0x510e527f, 0x9b05688c, 0x1f83d9ab, 0x5be0cd19]
  blake3Perm := ![2, 6, 3, 10, 7, 0, 4, 13, 1, 11, 12, 5, 9, 14, 15, 8]
  laneShuffle := ![1, 6, 3, 0, 5, 2, 7, 4]
  innerRounds := 2
  iterations := 2048
  const value := value
  add2 a b := add32 a b 0
  add3 := add32
  xor a b := ushr (bitXor a b) 0
  foldXor a b := ushr (bitXor a b) 0
  rotr32 := rotr32
  readWord := readLEWord
  writeWord word := some (writeLEWord (ushr word 0))
  indexBytes index := some (writeLEWord index)
  deriveAddress := deriveAddress

/-- `b3powScratch`. -/
def b3powScratch (blake3 : List Byte → Nat → Byte) :
    Bytes 80 → Lane → Option Lane :=
  port.b3powScratch blake3

/-- A word as the number that holds it. -/
def embed (word : Word) : Int := word.toNat

theorem add32_embed (x y z : Word) :
    add32 (embed x) (embed y) (embed z) = embed (x + y + z) := by
  rw [add32, embed, embed, ushr_add, embed, ushr_add]
  rfl

theorem xor_embed (x y : Word) :
    ushr (bitXor (embed x) (embed y)) 0 = embed (x ^^^ y) := by
  rw [ushr_zero, bitXor, bits_toInt, embed, embed, bits_natCast, bits_natCast]
  rfl

theorem rotr32_embed (x : Word) {n : Nat} (positive : 0 < n)
    (small : n < 32) : rotr32 (embed x) n = embed (Crypto.rotr32 x n) := by
  have left : (32 - n) % 32 = 32 - n := Nat.mod_eq_of_lt (by omega)
  simp only [rotr32, embed, bits_natCast, bitOr, bits_toInt,
    ushr, shl, Nat.mod_eq_of_lt small, left]
  rfl

theorem readLEWord_eq (buf : Bytes 4) :
    readLEWord buf = embed (readLE buf) := by
  have whole := readLE_four buf
  simp only [readLEWord, ushr_zero, bitOr, shl, bits_toInt, bits_byte,
    Nat.reduceMod, embed]
  rw [← whole]

theorem readLEUint64_eq (buf : Bytes 8) :
    readLEUint64 buf = (readLE buf).toNat := by
  rw [readLE_eight, readLEUint64, readLEWord_eq, readLEWord_eq, embed, embed,
    Int.toNat_natCast, Int.toNat_natCast]

theorem writeLEWord_embed (word : Word) :
    writeLEWord (embed word) = writeLE word := by
  have lowest : bitAnd (embed word) 0xff =
      bitAnd (ushr (embed word) 0) 0xff := by
    rw [ushr_zero, embed, bits_natCast]
  funext index
  rw [writeLEWord, lowest]
  fin_cases index <;> exact toUint8_bitAnd word (by decide)

theorem deriveAddress_eq (lanes : Lanes) {r : Nat} (L : Fin laneCount)
    (small : r < 2 ^ 32) :
    deriveAddress (lanes L) r L = Crypto.deriveAddress lanes r L := by
  have index : (ushr (r : Int) 0).toNat = r := by
    rw [ushr_zero, bits, BitVec.ofInt_natCast, BitVec.toNat_ofNat,
      Nat.mod_eq_of_lt small, Int.toNat_natCast]
  have factor : iterMul L = (Crypto.iterMul L).toNat := by
    fin_cases L <;> rfl
  apply Fin.ext
  simp only [deriveAddress, Crypto.deriveAddress, index, readLEUint64_eq,
    rotr64, mask64, and_mask64, factor]
  rw [toNat_mixed _ _ _ small rfl, BitVec.toNat_and]
  rfl

theorem port_embeds : port.Embeds embed where
  blake3Iv i := by fin_cases i <;> rfl
  blake3Perm := rfl
  laneShuffle := rfl
  innerRounds := rfl
  iterations := by
    unfold Crypto.iterations
    rfl
  const value small := by
    rw [embed, BitVec.toNat_ofNat, Nat.mod_eq_of_lt small]
    rfl
  add2 x y := by
    have sum : add32 (embed x) (embed y) (embed 0) = embed (x + y + 0) :=
      add32_embed x y 0
    have zero : x + y + 0 = x + y := BitVec.add_zero _
    rw [zero] at sum
    exact sum
  add3 := add32_embed
  xor := xor_embed
  foldXor := xor_embed
  rotr32 _ _ := rotr32_embed _
  readWord := readLEWord_eq
  writeWord word := by
    have held : ushr (embed word) 0 = embed word := by
      rw [ushr_zero, embed, bits_natCast]
    simp only [port, held, writeLEWord_embed]
  indexBytes index small := by
    have held : (index : Int) = embed (BitVec.ofNat (8 * 4) index) := by
      rw [embed, BitVec.toNat_ofNat, Nat.mod_eq_of_lt small]
    simp only [port, held, writeLEWord_embed]
  deriveAddress lanes _ L := deriveAddress_eq lanes L

end TypeScript

/-! ## Rust -/

namespace Rust

def iterMul : Fin laneCount → DoubleWord :=
  ![0xA0761D6478BD642F, 0xE7037ED1A0B428DB, 0x8EBC6AF09C88C6E3,
    0x589965CC75374CC3, 0x1D8E4E27C47D124F, 0xEB44ACCAB455D165,
    0xC863B19A77C75D70, 0x6E5C6F88AA5BDA77]

/-- One address of `derive_addresses`. -/
def deriveAddress (lane : Lane) (iterIdx : Nat) (L : Fin laneCount) :
    Fin laneBlocks :=
  let lo := readLE (slice lane 0 lowHalf_le : Bytes 8)
  let hi := readLE (slice lane 8 highHalf_le : Bytes 8)
  let mul := (hi ^^^ BitVec.ofNat _ iterIdx) * iterMul L
  let mixed := lo ^^^ mul.rotateRight 23
  maskAddress mixed.toNat

/-- The tables and operations of `b3pow.rs`. -/
def port : Port Word where
  blake3Iv :=
    ![0x6a09e667, 0xbb67ae85, 0x3c6ef372, 0xa54ff53a,
      0x510e527f, 0x9b05688c, 0x1f83d9ab, 0x5be0cd19]
  blake3Perm := ![2, 6, 3, 10, 7, 0, 4, 13, 1, 11, 12, 5, 9, 14, 15, 8]
  laneShuffle := ![1, 6, 3, 0, 5, 2, 7, 4]
  innerRounds := 2
  iterations := 2048
  const value := BitVec.ofNat _ value
  add2 a b := a + b
  add3 a b c := a + b + c
  xor a b := a ^^^ b
  foldXor a b := a ^^^ b
  rotr32 x n := x.rotateRight n
  readWord := readLE
  writeWord word := some (writeLE word)
  indexBytes index := some (writeLE (BitVec.ofNat (8 * 4) index))
  deriveAddress := deriveAddress

/-- `b3pow_scratch`. -/
def b3powScratch (blake3 : List Byte → Nat → Byte) :
    Bytes 80 → Lane → Option Lane :=
  port.b3powScratch blake3

theorem deriveAddress_eq (lanes : Lanes) (r : Nat) (L : Fin laneCount) :
    deriveAddress (lanes L) r L = Crypto.deriveAddress lanes r L := by
  apply Fin.ext
  simp only [deriveAddress, Crypto.deriveAddress, BitVec.toNat_and]
  rfl

theorem port_embeds : port.Embeds id where
  blake3Iv i := by fin_cases i <;> rfl
  blake3Perm := rfl
  laneShuffle := rfl
  innerRounds := rfl
  iterations := by
    unfold Crypto.iterations
    rfl
  const _ _ := rfl
  add2 _ _ := rfl
  add3 _ _ _ := rfl
  xor _ _ := rfl
  foldXor _ _ := rfl
  rotr32 x n _ small := by
    simp only [port, id, BitVec.rotateRight, BitVec.rotateRightAux,
      Crypto.rotr32, Nat.mod_eq_of_lt small]
  readWord _ := rfl
  writeWord _ := rfl
  indexBytes _ _ := rfl
  deriveAddress lanes r L _ := deriveAddress_eq lanes r L

end Rust

/-! ## Python -/

namespace Python

def mask32 (x : Nat) : Nat := x &&& 0xFFFFFFFF

def mask64 (x : Nat) : Nat := x &&& 0xFFFFFFFFFFFFFFFF

/-- `rotr32`. -/
def rotr32 (x n : Nat) : Nat :=
  let x := x &&& 0xFFFFFFFF
  ((x >>> n) ||| (x <<< (32 - n))) &&& 0xFFFFFFFF

/-- `rotr64`. -/
def rotr64 (x n : Nat) : Nat :=
  let x := x &&& 0xFFFFFFFFFFFFFFFF
  ((x >>> n) ||| (x <<< (64 - n))) &&& 0xFFFFFFFFFFFFFFFF

/-- `struct.pack` with one `<I`; it refuses a number that is too large. -/
def packWord (word : Nat) : Option (Bytes 4) :=
  if word < 2 ^ 32 then some (writeLE (BitVec.ofNat (8 * 4) word)) else none

def iterMul : Fin laneCount → Nat :=
  ![0xA0761D6478BD642F, 0xE7037ED1A0B428DB, 0x8EBC6AF09C88C6E3,
    0x589965CC75374CC3, 0x1D8E4E27C47D124F, 0xEB44ACCAB455D165,
    0xC863B19A77C75D70, 0x6E5C6F88AA5BDA77]

/-- One address of `derive_addresses`. -/
def deriveAddress (lane : Lane) (iterIdx : Nat) (L : Fin laneCount) :
    Fin laneBlocks :=
  let lo := (readLE (slice lane 0 lowHalf_le : Bytes 8)).toNat
  let hi := (readLE (slice lane 8 highHalf_le : Bytes 8)).toNat
  let mul := mask64 (mask64 (hi ^^^ iterIdx) * iterMul L)
  let mixed := lo ^^^ rotr64 mul 23
  maskAddress mixed

/-- The tables and operations of `b3pow_ref.py`. -/
def port : Port Nat where
  blake3Iv :=
    ![0x6a09e667, 0xbb67ae85, 0x3c6ef372, 0xa54ff53a,
      0x510e527f, 0x9b05688c, 0x1f83d9ab, 0x5be0cd19]
  blake3Perm := ![2, 6, 3, 10, 7, 0, 4, 13, 1, 11, 12, 5, 9, 14, 15, 8]
  laneShuffle := ![1, 6, 3, 0, 5, 2, 7, 4]
  innerRounds := 2
  iterations := 2048
  const value := value
  add2 a b := mask32 (a + b)
  add3 a b c := mask32 (a + b + c)
  xor a b := a ^^^ b
  foldXor a b := mask32 (a ^^^ b)
  rotr32 := rotr32
  readWord bytes := (readLE bytes).toNat
  writeWord := packWord
  indexBytes := packWord
  deriveAddress := deriveAddress

/-- `b3pow_scratch`. -/
def b3powScratch (blake3 : List Byte → Nat → Byte) :
    Bytes 80 → Lane → Option Lane :=
  port.b3powScratch blake3

theorem mask32_eq (word : Word) : mask32 word.toNat = word.toNat := by
  rw [mask32, and_mask32, Nat.mod_eq_of_lt word.isLt]

theorem packWord_toNat (word : Word) :
    packWord word.toNat = some (writeLE word) := by
  rw [packWord, if_pos word.isLt, BitVec.ofNat_toNat, BitVec.setWidth_eq]

theorem deriveAddress_eq (lanes : Lanes) {r : Nat} (L : Fin laneCount)
    (small : r < 2 ^ 32) :
    deriveAddress (lanes L) r L = Crypto.deriveAddress lanes r L := by
  have factor : iterMul L = (Crypto.iterMul L).toNat := by
    fin_cases L <;> rfl
  have high : ∀ hi : DoubleWord,
      (hi.toNat ^^^ r) % 2 ^ 64 = hi.toNat ^^^ r := fun hi =>
    Nat.mod_eq_of_lt (Nat.xor_lt_two_pow hi.isLt
      (small.trans (by decide)))
  apply Fin.ext
  simp only [deriveAddress, Crypto.deriveAddress, rotr64, mask64, and_mask64,
    factor, high, Nat.mod_mod]
  rw [toNat_mixed _ _ _ small rfl, BitVec.toNat_and]
  rfl

theorem port_embeds : port.Embeds BitVec.toNat where
  blake3Iv i := by fin_cases i <;> rfl
  blake3Perm := rfl
  laneShuffle := rfl
  innerRounds := rfl
  iterations := by
    unfold Crypto.iterations
    rfl
  const value small := by
    rw [BitVec.toNat_ofNat, Nat.mod_eq_of_lt small]
    rfl
  add2 x y := by
    rw [BitVec.toNat_add]
    exact and_mask32 _
  add3 x y z := by
    rw [BitVec.toNat_add, BitVec.toNat_add, Nat.mod_add_mod]
    exact and_mask32 _
  xor x y := (BitVec.toNat_xor x y).symm
  foldXor x y := by
    have same := mask32_eq (x ^^^ y)
    rw [BitVec.toNat_xor] at same ⊢
    exact same
  rotr32 x n _ _ := by
    simp only [port, rotr32, and_mask32]
    rw [Nat.mod_eq_of_lt x.isLt, toNat_rotr32]
  readWord _ := rfl
  writeWord := packWord_toNat
  indexBytes index small := if_pos small
  deriveAddress lanes _ L := deriveAddress_eq lanes L

end Python

/--
For every header and parent hash the TypeScript, Rust and Python ports return
the 32 bytes that `Hash` returns when it has no budget.
-/
theorem ports_agree_with_hash (blake3 : List Byte → Nat → Byte)
    (header : Bytes 80) (prevBlockHash : Lane) (elapsed : Nat → Int) :
    ∃ powHash : Lane,
      hash blake3 header (initScratchpad blake3 prevBlockHash) 0 elapsed =
        ⟨some powHash, false⟩ ∧
      TypeScript.b3powScratch blake3 header prevBlockHash = some powHash ∧
      Rust.b3powScratch blake3 header prevBlockHash = some powHash ∧
      Python.b3powScratch blake3 header prevBlockHash = some powHash := by
  have quiet : ¬Overruns 0 elapsed := by
    rintro ⟨r, -, exceeded⟩
    simp [probeExceeds] at exceeded
  exact ⟨_, hash_of_not_overruns blake3 header prevBlockHash quiet,
    TypeScript.port_embeds.b3powScratch blake3 header prevBlockHash,
    Rust.port_embeds.b3powScratch blake3 header prevBlockHash,
    Python.port_embeds.b3powScratch blake3 header prevBlockHash⟩

end B3Chain.Crypto
