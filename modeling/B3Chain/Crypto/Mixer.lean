import B3Chain.Crypto.ReducedMemory

/-!
# Ports of the hash

The ports of `b3pow_scratch` to other languages have the same steps and
differ in how they hold and combine 32-bit words.  The steps are written once
over the tables and operations of a port; a port embeds the words if its
operations act on embedded words as the ones of the C++ code do, and then it
computes the same hash.

A port has no result where its language would raise an exception.
-/

namespace B3Chain.Crypto

open B3Chain.Words

universe u

/-! ## Word and lane numbers -/

theorem neZero_sixteen : NeZero 16 := ⟨by decide⟩

theorem neZero_eight : NeZero 8 := ⟨by decide⟩

theorem neZero_four : NeZero 4 := ⟨by decide⟩

attribute [local instance] neZero_sixteen neZero_eight

/-- The tables and the word operations of a port. -/
structure Port (W : Type u) where
  blake3Iv : Fin 8 → W
  blake3Perm : Fin 16 → Fin 16
  laneShuffle : Fin laneCount → Fin laneCount
  innerRounds : Nat
  iterations : Nat
  const : Nat → W
  add2 : W → W → W
  add3 : W → W → W → W
  xor : W → W → W
  /-- The exclusive or that folds the state into the chaining value. -/
  foldXor : W → W → W
  rotr32 : W → Nat → W
  readWord : Bytes 4 → W
  writeWord : W → Option (Bytes 4)
  /-- The bytes of a block or lane number. -/
  indexBytes : Nat → Option (Bytes 4)
  deriveAddress : Lane → Nat → Fin laneCount → Fin laneBlocks

/-- All values of a finite family, if each of them exists. -/
def sequence {size : Nat} {α : Type u} (family : Fin size → Option α) :
    Option (Fin size → α) :=
  if each : ∀ index, (family index).isSome then
    some fun index => (family index).get (each index)
  else none

@[simp]
theorem sequence_some {size : Nat} {α : Type u} (family : Fin size → α) :
    sequence (fun index => some (family index)) = some family := by
  simp [sequence]

namespace Port

variable {W : Type u} (port : Port W)

/-! ## Compression -/

/-- `g`. -/
def g (state : Fin 16 → W) (a b c d : Fin 16) (mx my : W) : Fin 16 → W :=
  let s := Function.update state a (port.add3 (state a) (state b) mx)
  let s := Function.update s d
    (port.rotr32 (port.xor (s d) (s a)) 16)
  let s := Function.update s c (port.add2 (s c) (s d))
  let s := Function.update s b
    (port.rotr32 (port.xor (s b) (s c)) 12)
  let s := Function.update s a (port.add3 (s a) (s b) my)
  let s := Function.update s d
    (port.rotr32 (port.xor (s d) (s a)) 8)
  let s := Function.update s c (port.add2 (s c) (s d))
  Function.update s b
    (port.rotr32 (port.xor (s b) (s c)) 7)

/-- `round_fn`. -/
def roundFn (state m : Fin 16 → W) : Fin 16 → W :=
  let s := port.g state 0 4 8 12 (m 0) (m 1)
  let s := port.g s 1 5 9 13 (m 2) (m 3)
  let s := port.g s 2 6 10 14 (m 4) (m 5)
  let s := port.g s 3 7 11 15 (m 6) (m 7)
  let s := port.g s 0 5 10 15 (m 8) (m 9)
  let s := port.g s 1 6 11 12 (m 10) (m 11)
  let s := port.g s 2 7 8 13 (m 12) (m 13)
  port.g s 3 4 9 14 (m 14) (m 15)

/-- The round loop; the message is permuted after each round. -/
def roundLoop : Nat → (Fin 16 → W) → (Fin 16 → W) →
    (Fin 16 → W) × (Fin 16 → W)
  | 0, state, m => (state, m)
  | rounds + 1, state, m =>
    roundLoop rounds (port.roundFn state m)
      (fun i => m (port.blake3Perm i))

/-- `blake3_short_compress`. -/
def blake3ShortCompress (cv : Fin 8 → W) (block : Fin 16 → W) :
    (Fin 8 → W) × (Fin 16 → W) :=
  let iv := port.blake3Iv
  let state : Fin 16 → W :=
    ![cv 0, cv 1, cv 2, cv 3, cv 4, cv 5, cv 6, cv 7, iv 0, iv 1, iv 2, iv 3,
      port.const 0, port.const 0, port.const blockBytes,
      port.const 0]
  let mixed := port.roundLoop port.innerRounds state block
  (fun i => port.foldXor (mixed.1 (i.castAdd 8)) (mixed.1 (i.natAdd 8)),
    mixed.2)

/-! ## Words and bytes -/

/-- `le_words`. -/
def leWords {count : Nat} (buf : Bytes (4 * count)) : Fin count → W :=
  fun word => port.readWord fun byte =>
    buf ⟨4 * word + byte, by omega⟩

/-- `pack_le_words`. -/
def packLeWords {count : Nat} (words : Fin count → W) :
    Option (Bytes (4 * count)) :=
  (sequence fun word => port.writeWord (words word)).map
    fun packed index =>
      packed ⟨index / 4, by omega⟩ ⟨index % 4, by omega⟩

/-! ## One iteration -/

/-- The mix of one lane: its new state and the block to write back. -/
def mixLane (lane : Lane) (block : Block) : Option (Lane × Block) :=
  let mixed := port.blake3ShortCompress (port.leWords lane)
    (port.leWords block)
  (port.packLeWords mixed.1).bind fun newLane =>
    (port.packLeWords mixed.2).map fun permuted =>
      (newLane, fun i => block i ^^^ permuted i)

/-- `mix_step`. -/
def mixStep (lanes : Lanes) (blocks : Fin laneCount → Block) :
    Option (Lanes × (Fin laneCount → Block)) :=
  (sequence fun L => port.mixLane (lanes L) (blocks L)).map fun mixed =>
    (fun L => (mixed (port.laneShuffle L)).1, fun L => (mixed L).2)

/-- The body of the loop. -/
def iteration (r : Nat) (state : HashState) : Option HashState :=
  let addrs := fun L => port.deriveAddress (state.lanes L) r L
  let blocks := fun L => padBlock state.pad L (addrs L)
  (port.mixStep state.lanes blocks).map fun mixed =>
    ⟨mixed.1, writeBack addrs mixed.2 state.pad (List.finRange laneCount)⟩

/-- The loop. -/
def loop : Nat → Nat → HashState → Option HashState
  | 0, _, state => some state
  | left + 1, r, state =>
    (port.iteration r state).bind fun next => loop left (r + 1) next

/-! ## The hash -/

section Blake3

variable (blake3 : List Byte → Nat → Byte)

/-- The first blocks of `init_scratchpad`. -/
def fillScratchpad (prevBlockHash : Lane) : Nat → Option Pad
  | 0 => some fun _ => 0
  | i + 1 =>
    (fillScratchpad prevBlockHash i).bind fun pad =>
      (port.indexBytes i).map fun index =>
        splice pad (i * blockBytes)
          (blake3XofBlock blake3
            (List.ofFn prevBlockHash ++ List.ofFn index))

/-- `init_scratchpad`. -/
def initScratchpad (prevBlockHash : Lane) : Option Pad :=
  port.fillScratchpad blake3 prevBlockHash scratchBlocks

/-- `init_lanes`. -/
def initLanes (seed : Lane) : Option Lanes :=
  sequence fun L : Fin laneCount =>
    (port.indexBytes L).map fun index =>
      blake3HashFull blake3 (List.ofFn seed ++ List.ofFn index)

/-- `b3pow_scratch` without a given pad. -/
def b3powScratch (header : Bytes 80) (prevBlockHash : Lane) : Option Lane :=
  let seed := blake3HashFull blake3 (List.ofFn header)
  (port.initScratchpad blake3 prevBlockHash).bind fun pad =>
    (port.initLanes blake3 seed).bind fun lanes =>
      (port.loop port.iterations 0 ⟨lanes, pad⟩).map fun final =>
        finalHash blake3 header final.lanes

end Blake3

/-! ## Embedded words -/

/-- The tables are those of the C++ code, and the operations act on embedded
words as its own do. -/
structure Embeds (embed : Word → W) : Prop where
  blake3Iv : ∀ i, port.blake3Iv i = embed (Crypto.blake3Iv i)
  blake3Perm : port.blake3Perm = Crypto.blake3Perm
  laneShuffle : port.laneShuffle = Crypto.laneShuffle
  innerRounds : port.innerRounds = Crypto.innerRounds
  iterations : port.iterations = Crypto.iterations
  const : ∀ value < 2 ^ 32,
    port.const value = embed (BitVec.ofNat _ value)
  add2 : ∀ x y, port.add2 (embed x) (embed y) = embed (x + y)
  add3 : ∀ x y z,
    port.add3 (embed x) (embed y) (embed z) = embed (x + y + z)
  xor : ∀ x y, port.xor (embed x) (embed y) = embed (x ^^^ y)
  foldXor : ∀ x y, port.foldXor (embed x) (embed y) = embed (x ^^^ y)
  rotr32 : ∀ x n, 0 < n → n < 32 →
    port.rotr32 (embed x) n = embed (Crypto.rotr32 x n)
  readWord : ∀ bytes, port.readWord bytes = embed (readLE bytes)
  writeWord : ∀ x, port.writeWord (embed x) = some (writeLE x)
  indexBytes : ∀ index < 2 ^ 32,
    port.indexBytes index = some (writeLE (BitVec.ofNat (8 * 4) index))
  deriveAddress : ∀ lanes r L, r < 2 ^ 32 →
    port.deriveAddress (lanes L) r L = Crypto.deriveAddress lanes r L

namespace Embeds

variable {port : Port W} {embed : Word → W}

section

variable (embeds : port.Embeds embed)

include embeds

theorem g (state : Fin 16 → Word) (a b c d : Fin 16) (mx my : Word) :
    port.g (embed ∘ state) a b c d (embed mx) (embed my) =
      embed ∘ Crypto.g state a b c d mx my := by
  have first := fun x => embeds.rotr32 x 16 (by decide) (by decide)
  have second := fun x => embeds.rotr32 x 12 (by decide) (by decide)
  have third := fun x => embeds.rotr32 x 8 (by decide) (by decide)
  have fourth := fun x => embeds.rotr32 x 7 (by decide) (by decide)
  simp only [Port.g, Crypto.g, Function.comp_apply, embeds.add3,
    embeds.xor, first, second, third, fourth, embeds.add2,
    ← Function.comp_update]

theorem roundFn (state m : Fin 16 → Word) :
    port.roundFn (embed ∘ state) (embed ∘ m) =
      embed ∘ Crypto.roundFn state m := by
  simp only [Port.roundFn, Crypto.roundFn, Function.comp_apply,
    embeds.g]

theorem roundLoop (rounds : Nat) (state m : Fin 16 → Word) :
    port.roundLoop rounds (embed ∘ state) (embed ∘ m) =
      (embed ∘ (Crypto.roundLoop rounds state m).1,
        embed ∘ (Crypto.roundLoop rounds state m).2) := by
  induction rounds generalizing state m with
  | zero => rfl
  | succ rounds induction =>
    rw [Port.roundLoop, embeds.roundFn, embeds.blake3Perm]
    exact induction (Crypto.roundFn state m) (Crypto.permuteMsg m)

theorem blake3ShortCompress (cv : Fin 8 → Word) (block : Fin 16 → Word) :
    port.blake3ShortCompress (embed ∘ cv) (embed ∘ block) =
      (embed ∘ (Crypto.blake3ShortCompress cv block).1,
        embed ∘ (Crypto.blake3ShortCompress cv block).2) := by
  have zero : port.const 0 = embed 0 := embeds.const 0 (by decide)
  have length := embeds.const blockBytes (by decide)
  have start :
      ![(embed ∘ cv) 0, (embed ∘ cv) 1, (embed ∘ cv) 2, (embed ∘ cv) 3,
        (embed ∘ cv) 4, (embed ∘ cv) 5, (embed ∘ cv) 6, (embed ∘ cv) 7,
        embed (Crypto.blake3Iv 0), embed (Crypto.blake3Iv 1),
        embed (Crypto.blake3Iv 2), embed (Crypto.blake3Iv 3), embed 0,
        embed 0, embed (BitVec.ofNat _ blockBytes), embed 0] =
      embed ∘ ![cv 0, cv 1, cv 2, cv 3, cv 4, cv 5, cv 6, cv 7,
        Crypto.blake3Iv 0, Crypto.blake3Iv 1, Crypto.blake3Iv 2,
        Crypto.blake3Iv 3, 0, 0, BitVec.ofNat _ blockBytes, 0] := by
    funext i
    fin_cases i <;> rfl
  simp only [Port.blake3ShortCompress, embeds.blake3Iv, zero, length, start,
    embeds.innerRounds, embeds.roundLoop]
  refine Prod.ext (funext fun i => ?_) rfl
  exact embeds.foldXor _ _

theorem leWords {count : Nat} (buf : Bytes (4 * count)) :
    port.leWords buf = embed ∘ toWords buf :=
  funext fun _ => embeds.readWord _

theorem packLeWords {count : Nat} (words : Fin count → Word) :
    port.packLeWords (embed ∘ words) = some (ofWords words) := by
  simp only [Port.packLeWords, Function.comp_apply,
    embeds.writeWord, sequence_some, Option.map_some]
  rfl

theorem mixLane (lane : Lane) (block : Block) :
    port.mixLane lane block =
      some (ofWords (Crypto.blake3ShortCompress (toWords lane)
          (toWords block)).1,
        ofWords fun i => toWords block i ^^^
          (Crypto.blake3ShortCompress (toWords lane) (toWords block)).2 i) := by
  rw [Port.mixLane, embeds.leWords, embeds.leWords,
    embeds.blake3ShortCompress]
  simp only [embeds.packLeWords, Option.bind_some, Option.map_some,
    ofWords_xor]

theorem mixStep (lanes : Lanes) (blocks : Fin laneCount → Block) :
    port.mixStep lanes blocks = some (mixOneStep lanes blocks) := by
  simp only [Port.mixStep, embeds.mixLane, embeds.laneShuffle,
    sequence_some, Option.map_some]
  rfl

theorem iteration {r : Nat} (small : r < 2 ^ 32) (state : HashState) :
    port.iteration r state = some (hashIteration r state) := by
  simp only [Port.iteration, embeds.mixStep, Option.map_some,
    embeds.deriveAddress state.lanes r _ small]
  rfl

end

section Blake3

variable (blake3 : List Byte → Nat → Byte)

theorem fillScratchpad (embeds : port.Embeds embed)
    (prevBlockHash : Lane) (blocks : Nat) (small : blocks ≤ 2 ^ 32) :
    port.fillScratchpad blake3 prevBlockHash blocks =
      some (Crypto.fillScratchpad blake3 prevBlockHash (fun _ => 0)
        blocks) := by
  induction blocks with
  | zero => rfl
  | succ i induction =>
    rw [Port.fillScratchpad, induction (by omega),
      embeds.indexBytes i (by omega)]
    rfl

theorem initLanes (embeds : port.Embeds embed) (header : Bytes 80) :
    port.initLanes blake3 (blake3HashFull blake3 (List.ofFn header)) =
      some (Crypto.initLanes blake3 header) := by
  have small : ∀ L : Fin laneCount, L.val < 2 ^ 32 := fun L =>
    L.isLt.trans (by decide)
  simp only [Port.initLanes, embeds.indexBytes _ (small _),
    Option.map_some, sequence_some]
  rfl

/-- The loop runs through the states of the loop of `Hash`. -/
theorem loop (embeds : port.Embeds embed) (header : Bytes 80)
    (prevBlockHash : Lane) (left r : Nat) (small : r + left ≤ 2 ^ 32) :
    port.loop left r (loopState blake3 header prevBlockHash r) =
      some (loopState blake3 header prevBlockHash (r + left)) := by
  induction left generalizing r with
  | zero => rfl
  | succ left induction =>
    rw [Port.loop, embeds.iteration (by omega),
      Option.bind_some, ← loopState, induction (r + 1) (by omega),
      Nat.add_right_comm, Nat.add_assoc]

/-- A port over an embedding arithmetic computes the hash. -/
theorem b3powScratch (embeds : port.Embeds embed) (header : Bytes 80)
    (prevBlockHash : Lane) :
    port.b3powScratch blake3 header prevBlockHash =
      some (finalHash blake3 header
        (loopState blake3 header prevBlockHash Crypto.iterations).lanes) := by
  have pad := embeds.fillScratchpad blake3 prevBlockHash scratchBlocks
    (by decide)
  have few : 0 + Crypto.iterations ≤ 2 ^ 32 := by
    unfold Crypto.iterations
    decide
  have states :=
    embeds.loop blake3 header prevBlockHash Crypto.iterations 0 few
  rw [Nat.zero_add] at states
  rw [Port.b3powScratch, Port.initScratchpad, pad, embeds.iterations]
  simp only [Option.bind_some, embeds.initLanes]
  rw [loopState, Crypto.initScratchpad] at states
  rw [states, Option.map_some]

end Blake3

end Embeds

end Port

end B3Chain.Crypto
