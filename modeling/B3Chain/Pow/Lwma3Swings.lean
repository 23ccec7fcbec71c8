import B3Chain.Net.MedianTime
import B3Chain.Pow.Lwma3Response
import B3Chain.Pow.Lwma3Steady

/-!
# The change of the target from one block to the next

`PermittedDifficultyTransition` accepts every transition under LWMA-3 and
refers to the clamp on solve times, which it takes to bound the change.  The
clamp bounds what one solve time adds to the weighted sum, not the quotient of
two consecutive weighted sums: once a few early timestamps have brought the sum
close to zero, one more divides the target by nine.

A step stays within one half exactly if the average target of the window,
scaled by the weighted sum and rounded to the compact form, does; at the top the
floor may do it instead.
-/

namespace B3Chain.Pow

open B3Chain.Arith
open B3Chain.Chain
open B3Chain.Consensus
open B3Chain.Net
open B3Chain.Tree

/-- The two targets differ by at most half of the first. -/
def WithinHalf (old new : Nat) : Prop :=
  old ≤ 2 * new ∧ 2 * new ≤ 3 * old

/-- The solve times of the window before they are limited. -/
def windowSolveTimes (pindexLast : CBlockIndex) : List Int :=
  solveTimes (windowAnchor (windowBlocks pindexLast))
    ((windowBlocks pindexLast).map CBlockIndex.getBlockTime)

/-- The average target of the window, scaled by the weighted sum of its solve
times and rounded, is at least half of the tip's target, unless that is at most
two.  It is at most three halves of the tip's target, unless the floor is. -/
def MovesWithinHalf (pindexLast : CBlockIndex) : Prop :=
  let old := decodeTarget pindexLast.nBits
  let scaled := roundTarget (averageTarget pindexLast *
    (boundedWeightedSum Network.main.params pindexLast).toNat / 1098000)
  (old ≤ 2 ∨ old ≤ 2 * scaled) ∧
    (2 * scaled ≤ 3 * old ∨
      2 * floorTarget Network.main.params pindexLast ≤ 3 * old)

/-! ## Bounds on the weighted sum -/

theorem le_weightedTimes
    {spacing least : Int} (first : Nat) {times : List Int}
    (limits : ∀ time ∈ times, least ≤ limitedSolveTime spacing time) :
    least * (times.length * (2 * first + times.length - 1)) ≤
      2 * weightedTimes spacing first times := by
  induction times generalizing first with
  | nil => simp [weightedTimes]
  | cons time rest induction =>
    rw [List.forall_mem_cons] at limits
    have tail := induction (first + 1) limits.2
    have lower :=
      mul_le_mul_of_nonneg_left limits.1 (Int.natCast_nonneg first)
    have shape :
        least * ((rest.length + 1) * (2 * first + (rest.length + 1) - 1)) =
          2 * (first * least) +
            least * (rest.length * (2 * (first + 1) + rest.length - 1)) := by
      ring
    rw [weightedTimes_cons, List.length_cons]
    push_cast at tail ⊢
    rw [shape]
    linarith only [lower, tail]

section FullWindow

variable {pindexLast : CBlockIndex}

theorem windowLength_full (full : 59 ≤ CBlockIndex.nHeight pindexLast) :
    windowLength pindexLast = 60 := by
  rw [windowLength_eq]
  omega

theorem weightDivisor_full (full : 59 ≤ CBlockIndex.nHeight pindexLast) :
    weightDivisor Network.main.params pindexLast = 1098000 := by
  rw [weightDivisor, windowLength_full full,
    Network.nPowTargetSpacing_params]

/-- Solve times of at least a value keep the weighted sum above that of constant
solve times. -/
theorem le_boundedWeightedSum_full
    (full : 59 ≤ CBlockIndex.nHeight pindexLast) (least : Int)
    (limits : ∀ time ∈ windowSolveTimes pindexLast,
      least ≤ limitedSolveTime 600 time) :
    1830 * least ≤ boundedWeightedSum Network.main.params pindexLast := by
  have length : (windowSolveTimes pindexLast).length = 60 := by
    rw [windowSolveTimes, length_solveTimes, List.length_map]
    exact windowLength_full full
  have bound := le_weightedTimes 1 limits
  have sum :
      weightedTimes 600 1 (windowSolveTimes pindexLast) ≤
        boundedWeightedSum Network.main.params pindexLast := by
    rw [boundedWeightedSum, Network.nPowTargetSpacing_params]
    exact le_max_left _ _
  rw [length] at bound
  push_cast at bound
  omega

end FullWindow

/-! ## Honest mainnet chains past the guard -/

theorem HonestChain.of_le
    {network : Network} {chain block : CBlockIndex}
    (honest : HonestChain network chain) (below : block ≤ chain) :
    HonestChain network block := by
  induction chain with
  | root header =>
    rw [(Branch.le_root_iff _ _).mp below]
    exact honest
  | child parent header induction =>
    rcases (Branch.le_child_iff _ _ _).mp below with top | lower
    · rw [top]
      exact honest
    · exact induction honest.1 lower

theorem HonestChain.targetsWithin
    {network : Network} {chain : CBlockIndex}
    (honest : HonestChain network chain) :
    TargetsWithin network.powLimitNat chain := by
  intro block below
  have decodable := decodable_of_honest honest block below
  exact ⟨Nat.pos_of_ne_zero decodable.nonzero, decodable.bounded⟩

/-- Past the guard mainnet's required `nBits` are those of LWMA-3. -/
theorem getNextWorkRequired_past_guard
    {parent : CBlockIndex} (honest : HonestChain .main parent)
    (past : 10000 ≤ CBlockIndex.nHeight parent) (header : CBlockHeader) :
    getNextWorkRequired parent header Network.main.params =
      some (encodeTarget (lwma3Formula Network.main.params parent)) := by
  have guard : Network.main.params.nEarlyDifficultyGuardHeight = 10000 := rfl
  rw [getNextWorkRequired, if_neg (fun early => by omega),
    if_pos (show Network.main.params.useLwma3 = true from rfl)]
  exact calculateLwma3Target_main (by omega) honest.targetsWithin

theorem floorTarget_past_guard
    {parent : CBlockIndex} (past : 10000 ≤ CBlockIndex.nHeight parent) :
    floorTarget Network.main.params parent = 0x3fffff * 2 ^ 208 :=
  (floorTarget_operating (Or.inl rfl) (Nat.lt_succ_of_le past)).trans
    (by decide)

/-- The target of a header past the guard. -/
theorem decodeTarget_past_guard
    {parent : CBlockIndex} {header : CBlockHeader}
    (honest : HonestChain .main (.child parent header))
    (past : 10000 ≤ CBlockIndex.nHeight parent) :
    decodeTarget header.nBits =
      roundTarget (lwma3Formula Network.main.params parent) := by
  obtain ⟨honestParent, required⟩ := honest
  rw [getNextWorkRequired_past_guard honestParent past,
    Option.some_inj] at required
  rw [← required, decodeTarget_encodeTarget (lwma3Formula_lt .main parent)]

theorem decodeTarget_le_floor
    {parent : CBlockIndex} {header : CBlockHeader}
    (honest : HonestChain .main (.child parent header))
    (past : 10000 ≤ CBlockIndex.nHeight parent) :
    decodeTarget header.nBits ≤ 0x3fffff * 2 ^ 208 := by
  have range :=
    (lwma3Formula_within honest.1.targetsWithin).2.trans (min_le_right _ _)
  rw [floorTarget_past_guard past] at range
  rw [decodeTarget_past_guard honest past]
  exact (roundTarget_le _).trans range

theorem roundTarget_monotone : Monotone roundTarget :=
  fun _ _ ordered => roundTarget_mono ordered

/-- One step of an honest mainnet chain past the guard. -/
theorem withinHalf_iff
    {parent : CBlockIndex} {header : CBlockHeader}
    (honest : HonestChain .main (.child parent header))
    (past : 10000 < CBlockIndex.nHeight parent) :
    WithinHalf (decodeTarget parent.nBits) (decodeTarget header.nBits) ↔
      MovesWithinHalf parent := by
  have tipFloor :
      decodeTarget parent.nBits ≤ 0x3fffff * 2 ^ 208 := by
    cases parent with
    | root header => exact absurd past (Nat.not_lt_zero _)
    | child before header =>
      exact decodeTarget_le_floor honest.1 (Nat.le_of_lt_succ past)
  have tipPos := (honest.1.targetsWithin parent le_rfl).1
  have floor := floorTarget_past_guard (Nat.le_of_lt past)
  have one : roundTarget 1 = 1 := by decide
  have top : roundTarget (0x3fffff * 2 ^ 208) = 0x3fffff * 2 ^ 208 := by
    decide
  -- Rounding commutes with the clamps, which are compact targets.
  have target :
      decodeTarget header.nBits =
        max 1 (min (0x3fffff * 2 ^ 208)
          (roundTarget (scaledTarget Network.main.params parent /
            1098000))) := by
    rw [decodeTarget_past_guard honest (Nat.le_of_lt past), lwma3Formula,
      floor, weightDivisor_full (by omega), roundTarget_monotone.map_max,
      roundTarget_monotone.map_min, one, top]
  rw [target, WithinHalf, MovesWithinHalf, floor]
  change _ ↔ (_ ∨ _ ≤ 2 * roundTarget
    (scaledTarget Network.main.params parent / 1098000)) ∧ (2 * roundTarget
    (scaledTarget Network.main.params parent / 1098000) ≤ _ ∨ _)
  generalize roundTarget
    (scaledTarget Network.main.params parent / 1098000) = scaled
  omega

/-- Hourly blocks up to the end of the guard, then one every ten minutes. -/
def restingTime (height : Nat) : Nat :=
  1739145600 + 3600 * min height 10000 + 600 * (height - 10000)

theorem restingTime_succ (height : Nat) :
    restingTime height + 600 ≤ restingTime (height + 1) ∧
      (height < 10000 →
        restingTime (height + 1) = restingTime height + 3600) := by
  unfold restingTime
  omega

theorem restingTime_mono : Monotone restingTime :=
  monotone_nat_of_le_succ fun height =>
    le_trans (Nat.le_add_right _ 600) (restingTime_succ height).1

/-- The widest target up to the end of the guard, then the operating floor. -/
def restingBits (height : Nat) : Nat :=
  if height ≤ 10000 then 0x1d7fffff else 0x1d3fffff

/-- The mainnet chain with these times and targets. -/
def restingChain : Nat → CBlockIndex
  | 0 => .root mainGenesis
  | count + 1 =>
    .child (restingChain count)
      ⟨1, 0, restingTime (count + 1), restingBits (count + 1), 0⟩

@[simp]
theorem nHeight_restingChain (count : Nat) :
    CBlockIndex.nHeight (restingChain count) = count := by
  induction count with
  | zero => rfl
  | succ count induction =>
    rw [restingChain, CBlockIndex.nHeight_child, induction]

theorem nBits_restingChain (count : Nat) :
    CBlockIndex.nBits (restingChain count) = restingBits count := by
  cases count <;> rfl

theorem getBlockTime_restingChain (count : Nat) :
    CBlockIndex.getBlockTime (restingChain count) = restingTime count := by
  cases count <;> rfl

theorem exists_of_le_restingChain
    {count : Nat} {block : CBlockIndex}
    (below : block ≤ restingChain count) :
    ∃ height, height ≤ count ∧ block = restingChain height := by
  induction count with
  | zero => exact ⟨0, le_rfl, (Branch.le_root_iff _ _).mp below⟩
  | succ count induction =>
    rcases (Branch.le_child_iff _ _ _).mp below with top | lower
    · exact ⟨count + 1, le_rfl, top⟩
    · obtain ⟨height, bounded, rfl⟩ := induction lower
      exact ⟨height, Nat.le_succ_of_le bounded, rfl⟩

theorem floor_le_restingChain
    (count : Nat) (block : CBlockIndex)
    (below : block ≤ restingChain count) :
    0x3fffff * 2 ^ 208 ≤ decodeTarget block.nBits := by
  obtain ⟨height, _, rfl⟩ := exists_of_le_restingChain below
  rw [nBits_restingChain, restingBits]
  split_ifs
  · decide
  · decide

/-- No block of the chain comes early. -/
theorem unhurried_restingChain
    {count : Nat} (grown : 60 ≤ count) :
    ∀ solveTime ∈ windowSolveTimes (restingChain count),
      600 ≤ solveTime := by
  apply forall_solveTimes_window (600 ≤ ·)
  · intro block parent below linked
    obtain ⟨height, _, rfl⟩ := exists_of_le_restingChain below
    cases height with
    | zero => cases linked
    | succ height =>
      obtain rfl : restingChain height = parent := Option.some_inj.mp linked
      have step := (restingTime_succ height).1
      rw [getBlockTime_restingChain, getBlockTime_restingChain]
      omega
  · rw [nHeight_restingChain]
    exact grown

/-- The scaled average of a window past the guard is above the floor. -/
theorem floor_le_scaled_restingChain
    {count : Nat} (past : 10000 ≤ count) :
    0x3fffff * 2 ^ 208 ≤ averageTarget (restingChain count) *
      (boundedWeightedSum Network.main.params
        (restingChain count)).toNat / 1098000 := by
  have full : 59 ≤ CBlockIndex.nHeight (restingChain count) := by
    rw [nHeight_restingChain]
    omega
  have sum :=
    le_boundedWeightedSum_full full 600 (by
      intro time member
      have unhurried := unhurried_restingChain (by omega) time member
      rw [limitedSolveTime]
      omega)
  rw [Nat.le_div_iff_mul_le (by norm_num)]
  exact Nat.mul_le_mul (averageTarget_ge (floor_le_restingChain count))
    (by omega)

theorem honest_restingChain (count : Nat) :
    HonestChain .main (restingChain count) := by
  induction count with
  | zero => rfl
  | succ count induction =>
    refine ⟨induction, ?_⟩
    change _ = some (restingBits (count + 1))
    rcases Nat.lt_or_ge count 10000 with guarded | past
    · have step := (restingTime_succ count).2 guarded
      have late :
          arrivesLate (restingChain count)
            ⟨1, 0, restingTime (count + 1), restingBits (count + 1), 0⟩
            Network.main.params = true := by
        rw [arrivesLate, getBlockTime_restingChain,
          Network.nPowTargetSpacing_params, decide_eq_true_eq]
        dsimp only
        omega
      have early :
          Network.main.params.nEarlyDifficultyGuardHeight > 0 ∧
            CBlockIndex.nHeight (restingChain count) + 1 ≤
              Network.main.params.nEarlyDifficultyGuardHeight := by
        rw [nHeight_restingChain]
        exact ⟨by decide, guarded⟩
      rw [getNextWorkRequired, if_pos ⟨early.1, early.2, late⟩,
        earlyGuardBits, nBits_restingChain, restingBits, restingBits,
        if_pos guarded.le, if_pos (Nat.succ_le_of_lt guarded)]
      decide +kernel
    · have tall : 10000 ≤ CBlockIndex.nHeight (restingChain count) := by
        rw [nHeight_restingChain]
        exact past
      have formula :
          lwma3Formula Network.main.params (restingChain count) =
            0x3fffff * 2 ^ 208 := by
        have scaled := floor_le_scaled_restingChain past
        rw [lwma3Formula, weightDivisor_full (by omega),
          floorTarget_past_guard tall]
        change max 1 (min _ (averageTarget _ * _ / 1098000)) = _
        omega
      rw [getNextWorkRequired_past_guard induction tall, formula,
        restingBits, if_neg (by omega)]
      decide

/-- The time rules of `ContextualCheckBlockHeader` for every header of a chain
that is checked at the time `now`. -/
def TimesAllowed (now : Int) : CBlockIndex → Prop
  | .root _ => True
  | .child parent header =>
    TimesAllowed now parent ∧ getMedianTimePast parent < header.nTime ∧
      (header.nTime : Int) ≤ now + maxFutureBlockTime

theorem mem_pastTimes
    (left : Nat) {index : CBlockIndex} {time : Int}
    (member : time ∈ pastTimes left index) :
    ∃ block : CBlockIndex,
      block ≤ index ∧ CBlockIndex.getBlockTime block = time := by
  induction index generalizing left with
  | root header =>
    cases left with
    | zero => cases member
    | succ left =>
      exact ⟨.root header, le_rfl, (List.mem_singleton.mp member).symm⟩
  | child parent header induction =>
    cases left with
    | zero => cases member
    | succ left =>
      rcases List.mem_cons.mp member with top | lower
      · exact ⟨.child parent header, le_rfl, top.symm⟩
      · obtain ⟨block, below, equal⟩ := induction left lower
        exact ⟨block, Branch.le_child_of_le below header, equal⟩

/-- The median of the past times is one of them. -/
theorem getMedianTimePast_eq (index : CBlockIndex) :
    ∃ block : CBlockIndex,
      block ≤ index ∧
        CBlockIndex.getBlockTime block = getMedianTimePast index := by
  have nonempty : 0 < (pastTimes 11 index).length := by
    cases index <;> exact Nat.succ_pos _
  have inside :
      ((pastTimes 11 index).insertionSort (· ≤ ·)).length / 2 <
        ((pastTimes 11 index).insertionSort (· ≤ ·)).length := by
    rw [List.length_insertionSort]
    omega
  apply mem_pastTimes 11
  rw [getMedianTimePast, List.getD_eq_getElem _ _ inside,
    ← List.mem_insertionSort (· ≤ ·)]
  exact List.getElem_mem inside

theorem timesAllowed_restingChain
    (now : Int) {count : Nat}
    (recent : (restingTime count : Int) ≤ now + maxFutureBlockTime) :
    TimesAllowed now (restingChain count) := by
  induction count with
  | zero => trivial
  | succ count induction =>
    have step := (restingTime_succ count).1
    refine ⟨induction (by omega), ?_, recent⟩
    obtain ⟨block, below, median⟩ :=
      getMedianTimePast_eq (restingChain count)
    obtain ⟨height, bounded, rfl⟩ := exists_of_le_restingChain below
    have order := restingTime_mono bounded
    rw [← median, getBlockTime_restingChain]
    dsimp only
    omega

/-- A chain continued by headers with the given times and `nBits`, the newest
first. -/
def continued (base : CBlockIndex) : List (Nat × Nat) → CBlockIndex
  | [] => base
  | (time, bits) :: older => .child (continued base older) ⟨1, 0, time, bits, 0⟩

/-- Each header has the `nBits` of LWMA-3 past the guard and an allowed time. -/
def continuationAllowed (now : Int) (base : CBlockIndex) :
    List (Nat × Nat) → Bool
  | [] => true
  | (time, bits) :: older =>
    let parent := continued base older
    continuationAllowed now base older &&
      encodeTarget (max 1 (min (0x3fffff * 2 ^ 208)
        (scaledTarget Network.main.params parent /
          weightDivisor Network.main.params parent))) == bits &&
      decide (getMedianTimePast parent < time) &&
      decide ((time : Int) ≤ now + maxFutureBlockTime)

theorem le_nHeight_continued (base : CBlockIndex) (headers : List (Nat × Nat)) :
    CBlockIndex.nHeight base ≤
      CBlockIndex.nHeight (continued base headers) := by
  induction headers with
  | nil => exact le_rfl
  | cons header older induction => exact Nat.le_succ_of_le induction

theorem honest_continued
    {now : Int} {base : CBlockIndex} (honest : HonestChain .main base)
    (times : TimesAllowed now base)
    (past : 10000 ≤ CBlockIndex.nHeight base) (headers : List (Nat × Nat))
    (allowed : continuationAllowed now base headers = true) :
    HonestChain .main (continued base headers) ∧
      TimesAllowed now (continued base headers) := by
  induction headers with
  | nil => exact ⟨honest, times⟩
  | cons header older induction =>
    obtain ⟨time, bits⟩ := header
    simp only [continuationAllowed, Bool.and_eq_true, beq_iff_eq,
      decide_eq_true_eq] at allowed
    obtain ⟨⟨⟨before, required⟩, median⟩, future⟩ := allowed
    obtain ⟨honestOlder, timesOlder⟩ := induction before
    have grown := past.trans (le_nHeight_continued base older)
    refine ⟨⟨honestOlder, ?_⟩, timesOlder, median, future⟩
    rw [getNextWorkRequired_past_guard honestOlder grown, lwma3Formula,
      floorTarget_past_guard grown, required]

/-- Seven headers after the resting chain, the newest first: one as early as
the median allows, one late, and five that step back by five spacings. -/
def earlyHeaders : List (Nat × Nat) :=
  [(1775182800, 0x1d0cd343), (1775185800, 0x1d18b5e2),
    (1775188800, 0x1d24ee24), (1775191800, 0x1d315ec8),
    (1775194800, 0x1d3de94a), (1775197800, 0x1d3369cf),
    (1775179201, 0x1d3fffff)]

end B3Chain.Pow
