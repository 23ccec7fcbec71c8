import B3Chain.Crypto.Addresses
import B3Chain.Crypto.ReducedMemory

/-!
# Which lanes a lane sees

An iteration makes the new lane `i` from the lane that the shuffle puts there
and a block of that lane's own part of the pad.  The block written back depends
on the lane only through its address.  So after two iterations a lane has seen
the lane two shuffles away, and the lane one shuffle away by where it wrote;
no other lane can have reached it.
-/

namespace B3Chain.Crypto

open B3Chain.Words

/-! ## Two iterations -/

/-- A lane mixed with a block. -/
def mixLane (lane : Lane) (block : Block) : Lane :=
  ofWords (blake3ShortCompress (toWords lane) (toWords block)).1

theorem lanes_hashIteration (r : Nat) (state : HashState)
    (i : Fin laneCount) :
    (hashIteration r state).lanes i =
      mixLane (state.lanes (laneShuffle i))
        (padBlock state.pad (laneShuffle i)
          (deriveAddress state.lanes r (laneShuffle i))) :=
  rfl

/-- Two consecutive iterations of the loop of `Hash`. -/
def twoIterations (r : Nat) (state : HashState) : HashState :=
  hashIteration (r + 1) (hashIteration r state)

theorem lanes_twoIterations (r : Nat) (state : HashState)
    (i : Fin laneCount) :
    (twoIterations r state).lanes i =
      mixLane ((hashIteration r state).lanes (laneShuffle i))
        (padBlock (hashIteration r state).pad (laneShuffle i)
          (deriveAddress (hashIteration r state).lanes (r + 1)
            (laneShuffle i))) :=
  rfl

/-- An address depends on its own lane alone. -/
theorem deriveAddress_congr {lanes others : Lanes} {L : Fin laneCount}
    (same : lanes L = others L) (r : Nat) :
    deriveAddress lanes r L = deriveAddress others r L := by
  apply Fin.ext
  rw [deriveAddress_val, deriveAddress_val, same]

/-- Some change of lane `j` alone changes lane `i` within two iterations. -/
def Sees (r : Nat) (i j : Fin laneCount) : Prop :=
  ∃ first second : HashState,
    first.pad = second.pad ∧
      (∀ L ≠ j, first.lanes L = second.lanes L) ∧
        (twoIterations r first).lanes i ≠ (twoIterations r second).lanes i

/-- Lanes that are not one or two shuffles away are not seen. -/
theorem shuffled_of_sees {r : Nat} {i j : Fin laneCount}
    (sees : Sees r i j) :
    laneShuffle i = j ∨ laneShuffle (laneShuffle i) = j := by
  by_contra! far
  obtain ⟨first, second, pads, lanes, differ⟩ := sees
  have near := lanes (laneShuffle i) far.1
  have behind := lanes (laneShuffle (laneShuffle i)) far.2
  have mixed : (hashIteration r first).lanes (laneShuffle i) =
      (hashIteration r second).lanes (laneShuffle i) := by
    rw [lanes_hashIteration, lanes_hashIteration, behind, pads,
      deriveAddress_congr behind]
  apply differ
  rw [lanes_twoIterations, lanes_twoIterations, mixed,
    deriveAddress_congr mixed, padBlock_hashIteration, padBlock_hashIteration,
    pads, deriveAddress_congr near]

/-! ## A pad of equal blocks -/

/-- The pad that repeats a block. -/
def uniformPad (block : Block) : Pad :=
  fun index => block ⟨index % 64, Nat.mod_lt _ (by decide)⟩

theorem padBlock_uniformPad (block : Block) (lane : Fin laneCount)
    (address : Fin laneBlocks) :
    padBlock (uniformPad block) lane address = block := by
  funext index
  have bound := index.isLt
  have place : (padOffset lane address + index.val) % 64 = index.val := by
    simp only [padOffset, laneBytes, blockBytes]
    omega
  simp only [padBlock, slice, uniformPad, place]

/-- The second block read differs from the others only where the first one
was written. -/
theorem lanes_twoIterations_uniformPad (r : Nat) (lanes : Lanes)
    (block : Block) (i : Fin laneCount) :
    (twoIterations r ⟨lanes, uniformPad block⟩).lanes i =
      mixLane (mixLane (lanes (laneShuffle (laneShuffle i))) block)
        (if deriveAddress lanes r (laneShuffle i) =
            deriveAddress
              (fun _ => mixLane (lanes (laneShuffle (laneShuffle i))) block)
              (r + 1) (laneShuffle i)
          then ofWords (writebackMap (toWords block)) else block) := by
  have mixed : (hashIteration r ⟨lanes, uniformPad block⟩).lanes
      (laneShuffle i) =
        mixLane (lanes (laneShuffle (laneShuffle i))) block := by
    rw [lanes_hashIteration, padBlock_uniformPad]
  have address : deriveAddress (hashIteration r ⟨lanes, uniformPad block⟩).lanes
      (r + 1) (laneShuffle i) = deriveAddress (fun _ =>
        mixLane (lanes (laneShuffle (laneShuffle i))) block) (r + 1)
          (laneShuffle i) :=
    deriveAddress_congr mixed (r + 1)
  rw [lanes_twoIterations, mixed, address, padBlock_hashIteration,
    padBlock_uniformPad]

/-- Every lane sees the lane two shuffles away: no block of the pad is
needed. -/
theorem sees_twice (r : Nat) (i : Fin laneCount) :
    Sees r i (laneShuffle (laneShuffle i)) := by
  have written : writebackMap (fun _ => 0) = fun _ => 0 :=
    funext fun _ => BitVec.xor_self
  refine ⟨⟨fun _ => ofWords fun _ => 0, uniformPad (ofWords fun _ => 0)⟩,
    ⟨Function.update (fun _ => ofWords fun _ => 0) (laneShuffle (laneShuffle i))
      (ofWords fun _ => 1), uniformPad (ofWords fun _ => 0)⟩,
    rfl, fun L other => (Function.update_of_ne other _ _).symm, fun same => ?_⟩
  rw [lanes_twoIterations_uniformPad, lanes_twoIterations_uniformPad,
    toWords_ofWords, written, ite_self, ite_self, Function.update_self] at same
  have word := congrFun (congrArg toWords same) 0
  simp only [mixLane, toWords_ofWords] at word
  revert word
  decide +kernel

theorem laneShuffle_ne (i : Fin laneCount) : laneShuffle i ≠ i := by
  revert i
  decide

/-- Every lane sees the lane one shuffle away: it wrote the block that is read
next, or another one. -/
theorem sees_once (r : Nat) (i : Fin laneCount) : Sees r i (laneShuffle i) := by
  let start : Lanes := fun _ => ofWords fun _ => 0
  let block : Block := ofWords fun word => BitVec.ofNat _ word
  let target := deriveAddress (fun _ => mixLane (ofWords fun _ => 0) block)
    (r + 1) (laneShuffle i)
  obtain ⟨elsewhere, other⟩ := exists_ne target
  obtain ⟨hit, hits⟩ := exists_deriveAddress start r (laneShuffle i) target
  obtain ⟨miss, misses⟩ :=
    exists_deriveAddress start r (laneShuffle i) elsewhere
  refine ⟨⟨withSecondWord start (laneShuffle i) hit, uniformPad block⟩,
    ⟨withSecondWord start (laneShuffle i) miss, uniformPad block⟩,
    rfl, fun L far => ?_, fun same => ?_⟩
  · dsimp only
    rw [withSecondWord_of_ne _ _ far, withSecondWord_of_ne _ _ far]
  · have apart := laneShuffle_ne (laneShuffle i)
    rw [lanes_twoIterations_uniformPad, lanes_twoIterations_uniformPad,
      withSecondWord_of_ne _ _ apart, withSecondWord_of_ne _ _ apart, hits,
      misses, if_pos rfl, if_neg other] at same
    have word := congrFun (congrArg toWords same) 0
    simp only [mixLane, block, toWords_ofWords] at word
    revert word
    decide +kernel

/-- A lane sees exactly the lanes one and two shuffles away. -/
theorem sees_iff_shuffled (r : Nat) (i j : Fin laneCount) :
    Sees r i j ↔ laneShuffle i = j ∨ laneShuffle (laneShuffle i) = j := by
  constructor
  · exact shuffled_of_sees
  · rintro (rfl | rfl)
    · exact sees_once r i
    · exact sees_twice r i

/-- The first lane does not see the third one. -/
theorem first_lane_misses_third : ¬ ∃ r, Sees r 0 2 := by
  rintro ⟨r, sees⟩
  exact absurd (shuffled_of_sees sees) (by decide)

end B3Chain.Crypto
