import B3Chain.Crypto.B3PowScratch
import B3Chain.Words.XorShift

/-!
# The scratchpad carries only write counts

Every write of the mixing loop replaces a block by a fixed linear map of that
block alone: the block exclusive-or its message permuted twice.  The lanes
choose which block is written and nothing else.  After `k` writes a block is
the `k`-th iterate of the map on its initial image, and since the squared
message permutation has period four, four writes leave zeros.

So the hash can be computed without a pad.  `reducedHash` keeps one counter
for each block, saturating at four, and rebuilds a block when it is read.
-/

namespace B3Chain.Crypto

open B3Chain.Words

/-! ## The writeback map -/

/-- A block exclusive-or its message permuted twice, on its sixteen words. -/
def writebackMap (block : Fin 16 → Word) : Fin 16 → Word :=
  fun i => block i ^^^ permuteMsg (permuteMsg block) i

theorem writebackMap_eq_xorShift :
    writebackMap = xorShift (blake3Perm ∘ blake3Perm) :=
  rfl

/-- The message permutation consists of two cycles of length eight. -/
theorem blake3Perm_squared_period :
    (blake3Perm ∘ blake3Perm)^[2 ^ 2] = id := by
  funext index
  revert index
  decide

theorem writebackMap_iterate_eq_zero
    {count : Nat} (enough : 4 ≤ count) (block : Fin 16 → Word) :
    writebackMap^[count] block = fun _ => 0 := by
  rw [writebackMap_eq_xorShift]
  exact iterate_xorShift_eq_zero blake3Perm_squared_period enough block

theorem writebackMap_iterate_min
    (count : Nat) (block : Fin 16 → Word) :
    writebackMap^[min count 4] block = writebackMap^[count] block := by
  rw [writebackMap_eq_xorShift]
  exact iterate_xorShift_min blake3Perm_squared_period count block

/-- `MixOneStep` writes back the map of the block it has read. -/
theorem mixOneStep_writeback
    (lanes : Lanes) (blocks : Fin laneCount → Block) (L : Fin laneCount) :
    (mixOneStep lanes blocks).2 L =
      ofWords (writebackMap (toWords (blocks L))) :=
  rfl

/-! ## Blocks of the pad -/

theorem padOffset_apart
    {lane other : Fin laneCount} {addr target : Fin laneBlocks}
    (different : ¬ (lane = other ∧ addr = target)) :
    padOffset lane addr + 4 * 16 ≤ padOffset other target ∨
      padOffset other target + 4 * 16 ≤ padOffset lane addr := by
  have laneLt := lane.isLt
  have otherLt := other.isLt
  have addrLt := addr.isLt
  have targetLt := target.isLt
  rw [Fin.ext_iff, Fin.ext_iff] at different
  simp only [padOffset, laneCount, laneBlocks, laneBytes, blockBytes] at *
  omega

/-- The eight copies change exactly the addressed block of each lane. -/
theorem padBlock_writeBack
    (addrs : Fin laneCount → Fin laneBlocks)
    (writebacks : Fin laneCount → Block) (pad : Pad)
    {lanes : List (Fin laneCount)} (distinct : lanes.Nodup)
    (lane : Fin laneCount) (addr : Fin laneBlocks) :
    padBlock (writeBack addrs writebacks pad lanes) lane addr =
      if lane ∈ lanes ∧ addrs lane = addr then writebacks lane
      else padBlock pad lane addr := by
  induction lanes generalizing pad with
  | nil => simp [writeBack]
  | cons first rest induction =>
    obtain ⟨fresh, restDistinct⟩ := List.nodup_cons.mp distinct
    have step :=
      induction
        (splice pad (padOffset first (addrs first)) (writebacks first))
        restDistinct
    rw [writeBack, List.foldl_cons, ← writeBack, step]
    by_cases hit : first = lane ∧ addrs first = addr
    · obtain ⟨rfl, rfl⟩ := hit
      rw [if_neg (fun member => fresh member.1),
        if_pos ⟨List.mem_cons_self, rfl⟩, padBlock, slice_splice_same]
    · have unchanged :
          padBlock
              (splice pad (padOffset first (addrs first))
                (writebacks first)) lane addr =
            padBlock pad lane addr :=
        slice_splice_disjoint pad (padOffset_add_le lane addr) _
          (padOffset_apart hit)
      rw [unchanged]
      congr 1
      rw [List.mem_cons, eq_iff_iff]
      constructor
      · rintro ⟨member, address⟩
        exact ⟨Or.inr member, address⟩
      · rintro ⟨rfl | member, address⟩
        · exact absurd ⟨rfl, address⟩ hit
        · exact ⟨member, address⟩

/-- One iteration maps the addressed block of each lane and keeps the rest. -/
theorem padBlock_hashIteration
    (r : Nat) (state : HashState)
    (lane : Fin laneCount) (addr : Fin laneBlocks) :
    padBlock (hashIteration r state).pad lane addr =
      if deriveAddress state.lanes r lane = addr then
        ofWords (writebackMap (toWords (padBlock state.pad lane addr)))
      else padBlock state.pad lane addr := by
  rw [hashIteration]
  simp only [padBlock_writeBack _ _ _ (List.nodup_finRange laneCount),
    List.mem_finRange, true_and, mixOneStep_writeback]
  split_ifs with hit
  · rw [hit]
  · rfl

section Blake3

variable (blake3 : List Byte → Nat → Byte)

/-- The initial image of a block: BLAKE3 of the parent hash and its index. -/
def blockImage (prevBlockHash : Lane) (lane : Fin laneCount)
    (addr : Fin laneBlocks) : Block :=
  blake3XofBlock blake3
    (withIndex prevBlockHash (lane * laneBlocks + addr))

theorem slice_fillScratchpad
    (prevBlockHash : Lane) (pad : Pad) (count index : Nat)
    (inside : index * blockBytes + 4 * 16 ≤ scratchBytes)
    (filled : index < count) :
    slice (fillScratchpad blake3 prevBlockHash pad count)
        (index * blockBytes) inside =
      blake3XofBlock blake3 (withIndex prevBlockHash index) := by
  induction count with
  | zero => omega
  | succ count induction =>
    rw [fillScratchpad]
    rcases Nat.lt_or_ge index count with earlier | last
    · rw [slice_splice_disjoint _ inside _ (by
        simp only [blockBytes]
        omega)]
      exact induction earlier
    · obtain rfl : index = count := by omega
      rw [slice_splice_same]

theorem padBlock_initScratchpad
    (prevBlockHash : Lane) (lane : Fin laneCount)
    (addr : Fin laneBlocks) :
    padBlock (initScratchpad blake3 prevBlockHash) lane addr =
      blockImage blake3 prevBlockHash lane addr := by
  have laneLt := lane.isLt
  have addrLt := addr.isLt
  have offset :
      padOffset lane addr = (lane * laneBlocks + addr) * blockBytes := by
    simp only [padOffset, laneBytes, laneBlocks, blockBytes]
    omega
  have inside := padOffset_add_le lane addr
  rw [offset] at inside
  have filled : lane.val * laneBlocks + addr.val < scratchBlocks := by
    simp only [laneCount, laneBlocks, scratchBlocks] at *
    omega
  have read :=
    slice_fillScratchpad blake3 prevBlockHash (fun _ => 0) scratchBlocks _
      inside filled
  calc
    padBlock (initScratchpad blake3 prevBlockHash) lane addr
        = slice (initScratchpad blake3 prevBlockHash)
            ((lane * laneBlocks + addr) * blockBytes) inside :=
          slice_congr _ offset _ inside
    _ = blockImage blake3 prevBlockHash lane addr := read

/-! ## The loop -/

/-- The state of the loop of `Hash` before iteration `r`. -/
def loopState (headerBytes : Bytes 80) (prevBlockHash : Lane) :
    Nat → HashState
  | 0 =>
    ⟨initLanes blake3 headerBytes, initScratchpad blake3 prevBlockHash⟩
  | r + 1 => hashIteration r (loopState headerBytes prevBlockHash r)

/-- The number of iterations before `r` that wrote a block. -/
def writeCount (headerBytes : Bytes 80) (prevBlockHash : Lane) (r : Nat)
    (lane : Fin laneCount) (addr : Fin laneBlocks) : Nat :=
  (List.range r).countP fun earlier =>
    deriveAddress
      (loopState blake3 headerBytes prevBlockHash earlier).lanes earlier
      lane = addr

variable (headerBytes : Bytes 80) (prevBlockHash : Lane)

theorem writeCount_succ
    (r : Nat) (lane : Fin laneCount) (addr : Fin laneBlocks) :
    writeCount blake3 headerBytes prevBlockHash (r + 1) lane addr =
      writeCount blake3 headerBytes prevBlockHash r lane addr +
        if deriveAddress
            (loopState blake3 headerBytes prevBlockHash r).lanes r lane = addr
        then 1 else 0 := by
  rw [writeCount, List.range_succ, List.countP_append, ← writeCount,
    List.countP_singleton]
  simp only [decide_eq_true_eq]

/-- The loop invariant: a block is its initial image, mapped once for each
earlier write. -/
theorem padBlock_loopState
    (r : Nat) (lane : Fin laneCount) (addr : Fin laneBlocks) :
    padBlock (loopState blake3 headerBytes prevBlockHash r).pad lane addr =
      ofWords
        (writebackMap^[
            writeCount blake3 headerBytes prevBlockHash r lane addr]
          (toWords (blockImage blake3 prevBlockHash lane addr))) := by
  induction r with
  | zero =>
    have none :
        writeCount blake3 headerBytes prevBlockHash 0 lane addr = 0 :=
      rfl
    rw [none, Function.iterate_zero, id_eq, ofWords_toWords]
    exact padBlock_initScratchpad blake3 prevBlockHash lane addr
  | succ r induction =>
    rw [loopState, padBlock_hashIteration, induction, writeCount_succ]
    split_ifs with hit
    · rw [toWords_ofWords, ← Function.iterate_succ_apply' writebackMap]
    · rw [Nat.add_zero]

/-! ## The evaluator without a pad -/

/-- The state of the evaluator: lanes, saturating counters, mix steps. -/
structure ReducedState where
  lanes : Lanes
  counters : Fin laneCount → Fin laneBlocks → Fin 5
  mixSteps : Nat

/-- A block rebuilt from its write counter. -/
def rebuildBlock (prevBlockHash : Lane) (lane : Fin laneCount)
    (addr : Fin laneBlocks) (counter : Fin 5) : Block :=
  ofWords
    (writebackMap^[counter.val]
      (toWords (blockImage blake3 prevBlockHash lane addr)))

/-- A counter that stops at four. -/
def saturatingSucc (counter : Fin 5) : Fin 5 :=
  ⟨min (counter + 1) 4, by omega⟩

/-- One iteration of the evaluator: one mix step, no bytes stored. -/
def reducedIteration (prevBlockHash : Lane) (r : Nat)
    (state : ReducedState) : ReducedState :=
  let addrs := deriveAddress state.lanes r
  let blocksIn := fun L =>
    rebuildBlock blake3 prevBlockHash L (addrs L)
      (state.counters L (addrs L))
  { lanes := (mixOneStep state.lanes blocksIn).1
    counters := fun lane addr =>
      if addrs lane = addr then saturatingSucc (state.counters lane addr)
      else state.counters lane addr
    mixSteps := state.mixSteps + 1 }

/-- The evaluator's state before iteration `r`. -/
def reducedState (headerBytes : Bytes 80) (prevBlockHash : Lane) :
    Nat → ReducedState
  | 0 => ⟨initLanes blake3 headerBytes, fun _ _ => 0, 0⟩
  | r + 1 =>
    reducedIteration blake3 prevBlockHash r
      (reducedState headerBytes prevBlockHash r)

/-- The hash computed by the evaluator. -/
def reducedHash (headerBytes : Bytes 80) (prevBlockHash : Lane) : Lane :=
  finalHash blake3 headerBytes
    (reducedState blake3 headerBytes prevBlockHash iterations).lanes

/-- The evaluator simulates the loop: equal lanes, and counters that are the
write counts cut at four. -/
structure Simulates (r : Nat) : Prop where
  lanes :
    (reducedState blake3 headerBytes prevBlockHash r).lanes =
      (loopState blake3 headerBytes prevBlockHash r).lanes
  counters : ∀ lane addr,
    ((reducedState blake3 headerBytes prevBlockHash r).counters lane
        addr).val =
      min (writeCount blake3 headerBytes prevBlockHash r lane addr) 4

theorem rebuildBlock_eq
    {r : Nat} (simulates : Simulates blake3 headerBytes prevBlockHash r)
    (lane : Fin laneCount) (addr : Fin laneBlocks) :
    rebuildBlock blake3 prevBlockHash lane addr
        ((reducedState blake3 headerBytes prevBlockHash r).counters lane
          addr) =
      padBlock (loopState blake3 headerBytes prevBlockHash r).pad lane
        addr := by
  rw [rebuildBlock, simulates.counters, writebackMap_iterate_min,
    padBlock_loopState]

theorem simulates_all (r : Nat) :
    Simulates blake3 headerBytes prevBlockHash r := by
  induction r with
  | zero => exact ⟨rfl, fun _ _ => rfl⟩
  | succ r induction =>
    constructor
    · rw [reducedState, loopState, reducedIteration, hashIteration]
      simp only [rebuildBlock_eq blake3 headerBytes prevBlockHash
        induction, induction.lanes]
    · intro lane addr
      have count := induction.counters lane addr
      rw [reducedState, reducedIteration, writeCount_succ,
        ← induction.lanes]
      simp only []
      split_ifs with hit
      · simp only [saturatingSucc]
        omega
      · omega

theorem mixSteps_reducedState (r : Nat) :
    (reducedState blake3 headerBytes prevBlockHash r).mixSteps = r := by
  induction r with
  | zero => rfl
  | succ r induction =>
    rw [reducedState, reducedIteration, induction]

/-! ## The probes -/

/-- Some probe of `Hash` sees more than the budget. -/
def Overruns (budgetMs : Int) (elapsed : Nat → Int) : Prop :=
  ∃ r, (r < iterations ∧ r % budgetProbeStride = budgetProbeStride - 1 ∨
      r = iterations) ∧
    probeExceeds budgetMs (elapsed r) = true

/-- The loop either stops at a probe or reaches the next states in turn. -/
theorem hashLoop_eq
    (budgetMs : Int) (elapsed : Nat → Int) (left r : Nat) :
    hashLoop budgetMs elapsed left r
          (loopState blake3 headerBytes prevBlockHash r) = none ∧
        (∃ probe, r ≤ probe ∧ probe < r + left ∧
          probe % budgetProbeStride = budgetProbeStride - 1 ∧
          probeExceeds budgetMs (elapsed probe) = true) ∨
      hashLoop budgetMs elapsed left r
          (loopState blake3 headerBytes prevBlockHash r) =
          some (loopState blake3 headerBytes prevBlockHash (r + left)) ∧
        ∀ probe, r ≤ probe → probe < r + left →
          probe % budgetProbeStride = budgetProbeStride - 1 →
            probeExceeds budgetMs (elapsed probe) = false := by
  induction left generalizing r with
  | zero => exact Or.inr ⟨rfl, fun probe lower upper => by omega⟩
  | succ left induction =>
    rw [hashLoop]
    by_cases stop :
        r % budgetProbeStride = budgetProbeStride - 1 ∧
          probeExceeds budgetMs (elapsed r) = true
    · rw [if_pos stop]
      exact Or.inl ⟨rfl, r, le_rfl, by omega, stop⟩
    · rw [if_neg stop, ← loopState]
      rcases induction (r + 1) with
        ⟨stopped, probe, lower, upper, seen⟩ | ⟨reached, quiet⟩
      · exact Or.inl ⟨stopped, probe, by omega, by omega, seen⟩
      · refine Or.inr ⟨?_, fun probe lower upper position => ?_⟩
        · rw [reached, Nat.add_right_comm, Nat.add_assoc]
        · rcases Nat.eq_or_lt_of_le lower with here | later
          · subst here
            rw [← Bool.not_eq_true]
            exact fun exceeded => stop ⟨position, exceeded⟩
          · exact quiet probe later (by omega) position

theorem hash_of_not_overruns
    {budgetMs : Int} {elapsed : Nat → Int}
    (quiet : ¬ Overruns budgetMs elapsed) :
    hash blake3 headerBytes (initScratchpad blake3 prevBlockHash) budgetMs
        elapsed =
      ⟨some (finalHash blake3 headerBytes
        (loopState blake3 headerBytes prevBlockHash iterations).lanes),
        false⟩ := by
  have last : probeExceeds budgetMs (elapsed iterations) = false := by
    rw [← Bool.not_eq_true]
    exact fun exceeded => quiet ⟨iterations, Or.inr rfl, exceeded⟩
  rcases hashLoop_eq blake3 headerBytes prevBlockHash budgetMs elapsed
    iterations 0 with ⟨_, probe, _, upper, position, exceeded⟩ | ⟨reached, _⟩
  · exact absurd ⟨probe, Or.inl ⟨by omega, position⟩, exceeded⟩ quiet
  · rw [loopState, Nat.zero_add] at reached
    rw [hash, reached]
    simp only [last, Bool.false_eq_true, if_false]

theorem hash_of_overruns
    {budgetMs : Int} {elapsed : Nat → Int}
    (overrun : Overruns budgetMs elapsed) :
    hash blake3 headerBytes (initScratchpad blake3 prevBlockHash) budgetMs
        elapsed = ⟨none, true⟩ := by
  rcases hashLoop_eq blake3 headerBytes prevBlockHash budgetMs elapsed
    iterations 0 with ⟨stopped, _⟩ | ⟨reached, quiet⟩
  · rw [loopState] at stopped
    rw [hash, stopped]
  · obtain ⟨probe, position, exceeded⟩ := overrun
    rcases position with ⟨inside, stride⟩ | rfl
    · have clear := quiet probe (Nat.zero_le _) (by omega) stride
      rw [clear] at exceeded
      cases exceeded
    · rw [loopState, Nat.zero_add] at reached
      rw [hash, reached]
      simp only [exceeded, if_true]

/-- Reduced-memory equivalence.  Whatever state the loop of `Hash` reaches
after `r` iterations, each block of its pad is the initial image mapped once
for each earlier write to it, and is zero from the fourth write on.  `Hash`
returns the value of the evaluator that keeps only saturating counters and
makes one mix step for each iteration, unless a probe finds the budget
exceeded. -/
theorem hash_eq_reducedHash
    (blake3 : List Byte → Nat → Byte) (headerBytes : Bytes 80)
    (prevBlockHash : Lane) (budgetMs : Int) (elapsed : Nat → Int) :
    (∀ r state,
      hashLoop budgetMs elapsed r 0
          ⟨initLanes blake3 headerBytes,
            initScratchpad blake3 prevBlockHash⟩ = some state →
        state = loopState blake3 headerBytes prevBlockHash r ∧
          ∀ lane addr,
            padBlock state.pad lane addr =
                ofWords
                  (writebackMap^[
                      writeCount blake3 headerBytes prevBlockHash r lane addr]
                    (toWords
                      (blockImage blake3 prevBlockHash lane addr))) ∧
              (4 ≤ writeCount blake3 headerBytes prevBlockHash r lane addr →
                padBlock state.pad lane addr = fun _ => 0)) ∧
      (reducedState blake3 headerBytes prevBlockHash iterations).mixSteps =
        iterations ∧
      (¬ Overruns budgetMs elapsed →
        hash blake3 headerBytes (initScratchpad blake3 prevBlockHash)
            budgetMs elapsed =
          ⟨some (reducedHash blake3 headerBytes prevBlockHash), false⟩) ∧
      (Overruns budgetMs elapsed →
        hash blake3 headerBytes (initScratchpad blake3 prevBlockHash)
            budgetMs elapsed = ⟨none, true⟩) := by
  refine ⟨?_, mixSteps_reducedState blake3 headerBytes prevBlockHash _, ?_,
    hash_of_overruns blake3 headerBytes prevBlockHash⟩
  · intro r state reached
    have equal : state = loopState blake3 headerBytes prevBlockHash r := by
      rcases hashLoop_eq blake3 headerBytes prevBlockHash budgetMs elapsed r
        0 with ⟨stopped, _⟩ | ⟨passed, _⟩
      · rw [loopState, reached] at stopped
        cases stopped
      · rw [loopState, reached, Nat.zero_add, Option.some_inj] at passed
        exact passed
    refine ⟨equal, fun lane addr => ?_⟩
    have content :=
      padBlock_loopState blake3 headerBytes prevBlockHash r lane addr
    rw [equal]
    refine ⟨content, fun enough => ?_⟩
    rw [content, writebackMap_iterate_eq_zero enough]
    funext index
    simp [ofWords, writeLE]
  · intro quiet
    rw [hash_of_not_overruns blake3 headerBytes prevBlockHash quiet,
      reducedHash, (simulates_all blake3 headerBytes prevBlockHash _).lanes]

end Blake3

end B3Chain.Crypto
