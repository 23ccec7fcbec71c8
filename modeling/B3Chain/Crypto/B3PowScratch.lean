import B3Chain.Words.Memory

/-!
# The B3PoW-Scratch hash

`crypto/b3pow_scratch.cpp`: a one-megabyte scratchpad filled from the parent
hash, eight lanes seeded from the header, and 2048 iterations that read one
64-byte block for each lane, mix it into the lane with two BLAKE3 rounds and
write a block back.  BLAKE3 itself is a parameter: `blake3 input index` is
byte `index` of its extendable output.

The clock enters as a function that gives the elapsed milliseconds seen by
each probe; the probe after the loop has the index `iterations`.
-/

namespace B3Chain.Crypto

open B3Chain.Words

/-! ## Constants -/

abbrev scratchBytes : Nat := 1048576

abbrev laneCount : Nat := 8

abbrev laneBytes : Nat := 131072

abbrev blockBytes : Nat := 64

abbrev laneBlocks : Nat := 2048

abbrev scratchBlocks : Nat := 16384

@[irreducible]
def iterations : Nat := 2048

def innerRounds : Nat := 2

def budgetProbeStride : Nat := 256

/-- A 32-bit word, by its number of bytes. -/
abbrev Word := BitVec (8 * 4)

/-- A 64-bit word, by its number of bytes. -/
abbrev DoubleWord := BitVec (8 * 8)

/-- The 32 bytes of a lane, and of a BLAKE3 hash. -/
abbrev Lane := Bytes (4 * 8)

/-- A scratchpad block. -/
abbrev Block := Bytes (4 * 16)

abbrev Pad := Bytes scratchBytes

abbrev Lanes := Fin laneCount → Lane

def blake3Iv : Fin 8 → Word :=
  ![0x6A09E667, 0xBB67AE85, 0x3C6EF372, 0xA54FF53A,
    0x510E527F, 0x9B05688C, 0x1F83D9AB, 0x5BE0CD19]

def blake3Perm : Fin 16 → Fin 16 :=
  ![2, 6, 3, 10, 7, 0, 4, 13, 1, 11, 12, 5, 9, 14, 15, 8]

def iterMul : Fin laneCount → DoubleWord :=
  ![0xA0761D6478BD642F, 0xE7037ED1A0B428DB, 0x8EBC6AF09C88C6E3,
    0x589965CC75374CC3, 0x1D8E4E27C47D124F, 0xEB44ACCAB455D165,
    0xC863B19A77C75D70, 0x6E5C6F88AA5BDA77]

def laneShuffle : Fin laneCount → Fin laneCount :=
  ![1, 6, 3, 0, 5, 2, 7, 4]

/-! ## The reduced-round compression -/

def rotr32 (x : Word) (n : Nat) : Word :=
  (x >>> n) ||| (x <<< (32 - n))

def rotr64 (x : DoubleWord) (n : Nat) : DoubleWord :=
  (x >>> n) ||| (x <<< (64 - n))

/-- The quarter round `g`. -/
def g (state : Fin 16 → Word) (a b c d : Fin 16) (mx my : Word) :
    Fin 16 → Word :=
  let s := Function.update state a (state a + state b + mx)
  let s := Function.update s d (rotr32 (s d ^^^ s a) 16)
  let s := Function.update s c (s c + s d)
  let s := Function.update s b (rotr32 (s b ^^^ s c) 12)
  let s := Function.update s a (s a + s b + my)
  let s := Function.update s d (rotr32 (s d ^^^ s a) 8)
  let s := Function.update s c (s c + s d)
  Function.update s b (rotr32 (s b ^^^ s c) 7)

/-- `round_fn`. -/
def roundFn (state m : Fin 16 → Word) : Fin 16 → Word :=
  let s := g state 0 4 8 12 (m 0) (m 1)
  let s := g s 1 5 9 13 (m 2) (m 3)
  let s := g s 2 6 10 14 (m 4) (m 5)
  let s := g s 3 7 11 15 (m 6) (m 7)
  let s := g s 0 5 10 15 (m 8) (m 9)
  let s := g s 1 6 11 12 (m 10) (m 11)
  let s := g s 2 7 8 13 (m 12) (m 13)
  g s 3 4 9 14 (m 14) (m 15)

/-- `permute_msg`. -/
def permuteMsg (m : Fin 16 → Word) : Fin 16 → Word :=
  fun i => m (blake3Perm i)

/-- The round loop; it returns the state and the permuted message. -/
def roundLoop : Nat → (Fin 16 → Word) → (Fin 16 → Word) →
    (Fin 16 → Word) × (Fin 16 → Word)
  | 0, state, m => (state, m)
  | rounds + 1, state, m =>
    roundLoop rounds (roundFn state m) (permuteMsg m)

/-- `blake3_short_compress`: the new chaining value and the permuted
message. -/
def blake3ShortCompress (cvIn : Fin 8 → Word) (m : Fin 16 → Word) :
    (Fin 8 → Word) × (Fin 16 → Word) :=
  let state : Fin 16 → Word :=
    ![cvIn 0, cvIn 1, cvIn 2, cvIn 3, cvIn 4, cvIn 5, cvIn 6, cvIn 7,
      blake3Iv 0, blake3Iv 1, blake3Iv 2, blake3Iv 3,
      0, 0, BitVec.ofNat _ blockBytes, 0]
  let mixed := roundLoop innerRounds state m
  (fun i => mixed.1 (i.castAdd 8) ^^^ mixed.1 (i.natAdd 8), mixed.2)

/-! ## One iteration -/

/-- One address of `DeriveAddresses`; the mask keeps it inside the lane. -/
def deriveAddress (lanes : Lanes) (iterIdx : Nat) (L : Fin laneCount) :
    Fin laneBlocks :=
  let lo := readLE (slice (lanes L) 0 (by decide) : Bytes 8)
  let hi := readLE (slice (lanes L) 8 (by decide) : Bytes 8)
  let mul := (hi ^^^ BitVec.ofNat _ iterIdx) * iterMul L
  let mixed := lo ^^^ rotr64 mul 23
  ⟨(mixed &&& 2047).toNat, by
    rw [BitVec.toNat_and]
    exact Nat.lt_of_le_of_lt Nat.and_le_right (by decide)⟩

/-- `MixOneStep`: the shuffled new lanes and the blocks to write back. -/
def mixOneStep (lanesIn : Lanes) (blocksIn : Fin laneCount → Block) :
    Lanes × (Fin laneCount → Block) :=
  let compressed := fun L =>
    blake3ShortCompress (toWords (lanesIn L)) (toWords (blocksIn L))
  let tmpLanes : Lanes := fun L => ofWords (compressed L).1
  let writebacks := fun L =>
    ofWords fun i => toWords (blocksIn L) i ^^^ (compressed L).2 i
  (fun L => tmpLanes (laneShuffle L), writebacks)

/-- The offset of a block in the pad. -/
def padOffset (lane : Fin laneCount) (addr : Fin laneBlocks) : Nat :=
  lane * laneBytes + addr * blockBytes

theorem padOffset_add_le (lane : Fin laneCount) (addr : Fin laneBlocks) :
    padOffset lane addr + 4 * 16 ≤ scratchBytes := by
  have laneLt := lane.isLt
  have addrLt := addr.isLt
  simp only [padOffset, laneCount, laneBlocks, laneBytes, blockBytes,
    scratchBytes] at *
  omega

/-- `PadBlock`, with the copy out of the pad. -/
def padBlock (pad : Pad) (lane : Fin laneCount) (addr : Fin laneBlocks) :
    Block :=
  slice pad (padOffset lane addr) (padOffset_add_le lane addr)

/-- The copies of a list of lanes back into the pad. -/
def writeBack (addrs : Fin laneCount → Fin laneBlocks)
    (writebacks : Fin laneCount → Block) (pad : Pad)
    (lanes : List (Fin laneCount)) : Pad :=
  lanes.foldl (fun pad L => splice pad (padOffset L (addrs L)) (writebacks L))
    pad

/-- What the loop of `Hash` carries from one iteration to the next. -/
structure HashState where
  lanes : Lanes
  pad : Pad

/-- The body of the loop of `Hash`, without the probe. -/
def hashIteration (r : Nat) (state : HashState) : HashState :=
  let addrs := deriveAddress state.lanes r
  let blocksIn := fun L => padBlock state.pad L (addrs L)
  let mixed := mixOneStep state.lanes blocksIn
  { lanes := mixed.1
    pad := writeBack addrs mixed.2 state.pad (List.finRange laneCount) }

/-! ## The hash -/

section Blake3

variable (blake3 : List Byte → Nat → Byte)

/-- `blake3_hash_full`. -/
def blake3HashFull (data : List Byte) : Lane :=
  fun index => blake3 data index

/-- `blake3_xof_into` for one scratchpad block. -/
def blake3XofBlock (data : List Byte) : Block :=
  fun index => blake3 data index

/-- A 32-byte string followed by a little-endian 32-bit number. -/
def withIndex (bytes : Lane) (index : Nat) : List Byte :=
  List.ofFn bytes ++
    List.ofFn (writeLE (BitVec.ofNat (8 * 4) index) : Bytes 4)

/-- The first blocks filled by the loop of `FillScratchpad`. -/
def fillScratchpad (prevBlockHash : Lane) (pad : Pad) : Nat → Pad
  | 0 => pad
  | i + 1 =>
    splice (fillScratchpad prevBlockHash pad i) (i * blockBytes)
      (blake3XofBlock blake3 (withIndex prevBlockHash i))

/-- `InitScratchpad`; the new pad starts zeroed. -/
def initScratchpad (prevBlockHash : Lane) : Pad :=
  fillScratchpad blake3 prevBlockHash (fun _ => 0) scratchBlocks

/-- The initial lanes of `Hash`. -/
def initLanes (headerBytes : Bytes 80) : Lanes :=
  let seed := blake3HashFull blake3 (List.ofFn headerBytes)
  fun L => blake3HashFull blake3 (withIndex seed L)

/-- The last hash over the lanes and the nonce of the header. -/
def finalHash (headerBytes : Bytes 80) (lanes : Lanes) : Lane :=
  blake3HashFull blake3
    ((List.finRange laneCount).flatMap (fun L => List.ofFn (lanes L)) ++
      List.ofFn (slice headerBytes 76 (by decide) : Bytes 4))

/-- A probe of the clock finds more than the budget used up. -/
def probeExceeds (budgetMs elapsedMs : Int) : Bool :=
  decide (budgetMs > 0) && decide (elapsedMs > budgetMs)

/-- The loop of `Hash` with its probes; `none` is the early return. -/
def hashLoop (budgetMs : Int) (elapsed : Nat → Int) :
    Nat → Nat → HashState → Option HashState
  | 0, _, state => some state
  | left + 1, r, state =>
    let next := hashIteration r state
    if r % budgetProbeStride = budgetProbeStride - 1 ∧
        probeExceeds budgetMs (elapsed r) then none
    else hashLoop budgetMs elapsed left (r + 1) next

/-- The value returned by `Hash` and its out-parameter. -/
structure HashResult where
  powHash : Option Lane
  outBudgetExceeded : Bool

/-- `Hash`. -/
def hash (headerBytes : Bytes 80) (pad : Pad) (budgetMs : Int)
    (elapsed : Nat → Int) : HashResult :=
  match hashLoop budgetMs elapsed iterations 0
      ⟨initLanes blake3 headerBytes, pad⟩ with
  | none => ⟨none, true⟩
  | some state =>
    let outBytes := finalHash blake3 headerBytes state.lanes
    if probeExceeds budgetMs (elapsed iterations) then ⟨none, true⟩
    else ⟨some outBytes, false⟩

end Blake3

end B3Chain.Crypto
