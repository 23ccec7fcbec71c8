import B3Chain.Pow.Lwma3Networks

/-!
# The steady state of LWMA-3

A chain whose blocks all carry one `nBits` and come exactly one target spacing
apart.  Every solve time of its window is the spacing itself, so the weighted
sum equals the divisor and the two divisions cancel.  There is one exception:
`GatherWindow` gives the genesis block, which has no parent, its own time as
the anchor.  The solve time of that block is then zero, and a window that
reaches back to genesis asks for a smaller target.
-/

namespace B3Chain.Pow

open B3Chain.Arith
open B3Chain.Chain
open B3Chain.Consensus
open B3Chain.Tree

/-- Every block has the given `nBits` and follows its parent after exactly
`spacing` seconds. -/
def SteadyChain (spacing bits : Nat) : CBlockIndex → Prop
  | .root header => header.nBits = bits
  | .child parent header =>
    SteadyChain spacing bits parent ∧ header.nBits = bits ∧
      (header.nTime : Int) = CBlockIndex.getBlockTime parent + spacing

section Steady

variable {spacing bits : Nat} {index : CBlockIndex}

theorem SteadyChain.nBits_eq (steady : SteadyChain spacing bits index) :
    CBlockIndex.nBits index = bits := by
  cases index with
  | root header => exact steady
  | child parent header => exact steady.2.1

theorem SteadyChain.of_le
    (steady : SteadyChain spacing bits index) {block : CBlockIndex}
    (below : block ≤ index) :
    SteadyChain spacing bits block := by
  induction index with
  | root header =>
    rw [(Branch.le_root_iff _ _).mp below]
    exact steady
  | child parent header induction =>
    rcases (Branch.le_child_iff _ _ _).mp below with top | lower
    · rw [top]
      exact steady
    · exact induction steady.1 lower

theorem SteadyChain.getBlockTime_eq
    (steady : SteadyChain spacing bits index) {parent : CBlockIndex}
    (linked : CBlockIndex.pprev index = some parent) :
    CBlockIndex.getBlockTime index =
      CBlockIndex.getBlockTime parent + spacing := by
  cases index with
  | root header => cases linked
  | child before header =>
    obtain rfl : before = parent := Option.some_inj.mp linked
    exact steady.2.2

end Steady

/-! ## The window as a chain of parents -/

theorem isChain_walkBack (steps : Nat) (index : CBlockIndex) :
    List.IsChain (fun newer older => CBlockIndex.pprev newer = some older)
      (walkBack steps (some index)) := by
  induction steps generalizing index with
  | zero => exact List.isChain_nil
  | succ steps induction =>
    rw [walkBack]
    cases linked : CBlockIndex.pprev index with
    | none =>
      cases steps <;> exact List.isChain_singleton _
    | some parent =>
      cases steps with
      | zero => exact List.isChain_singleton _
      | succ steps =>
        exact List.isChain_cons_cons.mpr ⟨linked, induction parent⟩

/-- Each block of the window is the parent of the next one. -/
theorem isChain_windowBlocks (index : CBlockIndex) :
    List.IsChain (fun older newer => CBlockIndex.pprev newer = some older)
      (windowBlocks index) := by
  rw [windowBlocks, List.isChain_reverse]
  exact isChain_walkBack lwma3Window index

theorem getLast?_walkBack (steps : Nat) (index : CBlockIndex) :
    ∃ oldest,
      (walkBack (steps + 1) (some index)).getLast? = some oldest ∧
        CBlockIndex.nHeight oldest = CBlockIndex.nHeight index - steps := by
  induction steps generalizing index with
  | zero => exact ⟨index, rfl, rfl⟩
  | succ steps induction =>
    cases index with
    | root header => exact ⟨.root header, rfl, (Nat.zero_sub _).symm⟩
    | child parent header =>
      obtain ⟨oldest, last, height⟩ := induction parent
      refine ⟨oldest, ?_, ?_⟩
      · rw [walkBack, show CBlockIndex.pprev (.child parent header) =
          some parent from rfl, List.getLast?_cons, last]
        rfl
      · rw [height, CBlockIndex.nHeight_child]
        omega

/-- The oldest block of the window. -/
theorem head?_windowBlocks (index : CBlockIndex) :
    ∃ oldest rest,
      windowBlocks index = oldest :: rest ∧
        CBlockIndex.nHeight oldest = CBlockIndex.nHeight index - 59 := by
  obtain ⟨oldest, last, height⟩ := getLast?_walkBack 59 index
  have head : (windowBlocks index).head? = some oldest := by
    rw [windowBlocks, List.head?_reverse]
    exact last
  obtain ⟨rest, window⟩ := List.head?_eq_some_iff.mp head
  exact ⟨oldest, rest, window, height⟩

/-! ## The solve times of a window -/

theorem forall_solveTimes
    {allowed : Int → Prop} {anchor : Int} {timestamps : List Int}
    (linked : List.IsChain (fun earlier later => allowed (later - earlier))
      (anchor :: timestamps)) :
    ∀ solveTime ∈ solveTimes anchor timestamps, allowed solveTime := by
  induction timestamps generalizing anchor with
  | nil =>
    intro solveTime member
    cases member
  | cons timestamp rest induction =>
    obtain ⟨first, later⟩ := List.isChain_cons_cons.mp linked
    rw [solveTimes_cons, List.forall_mem_cons]
    exact ⟨first, induction later⟩

/-- What holds of the time between a block and its parent links the timestamps
of the window. -/
theorem isChain_timestamps
    (allowed : Int → Prop) {pindexLast : CBlockIndex}
    (spaced : ∀ block parent : CBlockIndex, block ≤ pindexLast →
      CBlockIndex.pprev block = some parent →
        allowed (CBlockIndex.getBlockTime block -
          CBlockIndex.getBlockTime parent)) :
    List.IsChain (fun earlier later => allowed (later - earlier))
      ((windowBlocks pindexLast).map CBlockIndex.getBlockTime) := by
  rw [List.isChain_map]
  apply (isChain_windowBlocks pindexLast).imp_of_mem_imp
  intro older newer _ inWindow linked
  exact spaced newer older (le_of_mem_windowBlocks inWindow) linked

/-- A window that does not reach genesis has only such times. -/
theorem forall_solveTimes_window
    (allowed : Int → Prop) {pindexLast : CBlockIndex}
    (spaced : ∀ block parent : CBlockIndex, block ≤ pindexLast →
      CBlockIndex.pprev block = some parent →
        allowed (CBlockIndex.getBlockTime block -
          CBlockIndex.getBlockTime parent))
    (grown : 60 ≤ CBlockIndex.nHeight pindexLast) :
    ∀ solveTime ∈
        solveTimes (windowAnchor (windowBlocks pindexLast))
          ((windowBlocks pindexLast).map CBlockIndex.getBlockTime),
      allowed solveTime := by
  obtain ⟨oldest, rest, window, height⟩ := head?_windowBlocks pindexLast
  have inner := isChain_timestamps allowed spaced
  have below : oldest ≤ pindexLast :=
    le_of_mem_windowBlocks (by rw [window]; exact List.mem_cons_self)
  cases oldest with
  | root header =>
    exact absurd height (by
      rw [CBlockIndex.nHeight, Branch.height_root]
      omega)
  | child parent header =>
    apply forall_solveTimes
    rw [window, List.map_cons] at inner ⊢
    exact List.isChain_cons_cons.mpr
      ⟨spaced (.child parent header) parent below rfl, inner⟩

/-! ## Equal solve times -/

theorem weightedTimes_replicate
    {spacing : Int} (nonnegative : 0 ≤ spacing) (first count : Nat) :
    2 * weightedTimes spacing first (List.replicate count spacing) =
      spacing * (count * (2 * first + count - 1)) := by
  have limited : limitedSolveTime spacing spacing = spacing := by
    rw [limitedSolveTime]
    omega
  induction count generalizing first with
  | zero => simp [weightedTimes]
  | succ count induction =>
    have tail := induction (first + 1)
    rw [List.replicate_succ, weightedTimes_cons, limited, Int.mul_add, tail]
    push_cast
    ring

section Window

variable {params : Params} {bits : Nat} {pindexLast : CBlockIndex}

theorem SteadyChain.spaced
    {spacing : Nat} (steady : SteadyChain spacing bits pindexLast)
    (block parent : CBlockIndex) (below : block ≤ pindexLast)
    (linked : CBlockIndex.pprev block = some parent) :
    CBlockIndex.getBlockTime block - CBlockIndex.getBlockTime parent =
      spacing := by
  rw [(steady.of_le below).getBlockTime_eq linked, add_sub_cancel_left]

theorem sumOfTargets_steady
    {spacing : Nat} (steady : SteadyChain spacing bits pindexLast) :
    sumOfTargets pindexLast =
      windowLength pindexLast * decodeTarget bits := by
  have constant :
      (windowBlocks pindexLast).map
          (fun index => decodeTarget (CBlockIndex.nBits index)) =
        List.replicate (windowLength pindexLast) (decodeTarget bits) := by
    rw [List.eq_replicate_iff]
    refine ⟨List.length_map _, ?_⟩
    intro target member
    obtain ⟨block, inWindow, rfl⟩ := List.mem_map.mp member
    rw [(steady.of_le (le_of_mem_windowBlocks inWindow)).nBits_eq]
  rw [sumOfTargets, constant, List.sum_replicate, smul_eq_mul]

/-- Twice the divisor, without its division. -/
theorem two_mul_weightDivisor (params : Params) (pindexLast : CBlockIndex) :
    2 * (weightDivisor params pindexLast : Int) =
      params.nPowTargetSpacing *
        (windowLength pindexLast * (windowLength pindexLast + 1)) := by
  have double :=
    (triangle_bounds (windowLength_pos pindexLast)
      (windowLength_le pindexLast)).2.2.2
  rw [weightDivisor, ← Nat.cast_ofNat, ← Nat.cast_mul, Nat.mul_left_comm,
    double]
  push_cast
  rfl

/-- The lower bound on the weighted sum is below the divisor. -/
theorem lowerBound_lt_weightDivisor
    (positive : 0 < params.nPowTargetSpacing) (pindexLast : CBlockIndex) :
    (params.nPowTargetSpacing * windowLength pindexLast / 20 : Int) <
      weightDivisor params pindexLast := by
  have lengthLe :=
    (triangle_bounds (windowLength_pos pindexLast)
      (windowLength_le pindexLast)).2.1
  have product : 0 < params.nPowTargetSpacing * windowLength pindexLast :=
    Nat.mul_pos positive (windowLength_pos pindexLast)
  have larger :
      params.nPowTargetSpacing * windowLength pindexLast ≤
        weightDivisor params pindexLast :=
    Nat.mul_le_mul_left _ lengthLe
  have integers := Int.ofNat_le.mpr larger
  rw [Nat.cast_mul] at integers
  omega

/-- Beyond the first sixty blocks the weighted sum is the divisor. -/
theorem boundedWeightedSum_steady
    (positive : 0 < params.nPowTargetSpacing)
    (steady : SteadyChain params.nPowTargetSpacing bits pindexLast)
    (grown : 60 ≤ CBlockIndex.nHeight pindexLast) :
    boundedWeightedSum params pindexLast =
      weightDivisor params pindexLast := by
  have constant :=
    List.eq_replicate_iff.mpr
      ⟨rfl, forall_solveTimes_window (· = _) steady.spaced grown⟩
  have weighted :=
    weightedTimes_replicate
      (Int.natCast_nonneg params.nPowTargetSpacing) 1
      (windowLength pindexLast)
  have divisor := two_mul_weightDivisor params pindexLast
  have lower := lowerBound_lt_weightDivisor positive pindexLast
  rw [boundedWeightedSum, constant, length_solveTimes, List.length_map,
    ← windowLength]
  rw [show 2 * ((1 : Nat) : Int) + windowLength pindexLast - 1 =
    windowLength pindexLast + 1 by push_cast; ring, ← divisor] at weighted
  omega

/-- With genesis in the window the weighted sum stays below the divisor. -/
theorem boundedWeightedSum_lt_steady
    (positive : 0 < params.nPowTargetSpacing)
    (steady : SteadyChain params.nPowTargetSpacing bits pindexLast)
    (young : CBlockIndex.nHeight pindexLast < 60) :
    boundedWeightedSum params pindexLast <
      weightDivisor params pindexLast := by
  obtain ⟨oldest, rest, window, height⟩ := head?_windowBlocks pindexLast
  have inner :=
    isChain_timestamps (· = (params.nPowTargetSpacing : Int))
      steady.spaced
  cases oldest with
  | child parent header =>
    rw [CBlockIndex.nHeight_child] at height
    omega
  | root header =>
    have anchor :
        windowAnchor (windowBlocks pindexLast) =
          CBlockIndex.getBlockTime (.root header) := by
      rw [window]
      rfl
    have length : windowLength pindexLast = rest.length + 1 := by
      rw [windowLength, window, List.length_cons]
    have weighted :=
      weightedTimes_replicate
        (Int.natCast_nonneg params.nPowTargetSpacing) (1 + 1) rest.length
    have divisor := two_mul_weightDivisor params pindexLast
    have lower := lowerBound_lt_weightDivisor positive pindexLast
    rw [window, List.map_cons] at inner
    have constant :=
      List.eq_replicate_iff.mpr ⟨rfl, forall_solveTimes inner⟩
    rw [boundedWeightedSum, anchor, window, List.map_cons]
    -- The genesis block contributes a solve time of zero.
    rw [solveTimes_cons, Int.sub_self, weightedTimes_cons, constant,
      length_solveTimes, List.length_map]
    have zero : limitedSolveTime params.nPowTargetSpacing 0 = 0 := by
      rw [limitedSolveTime]
      omega
    have gap :
        2 * (weightDivisor params pindexLast : Int) =
          params.nPowTargetSpacing *
              (rest.length *
                (2 * ((1 + 1 : Nat) : Int) + rest.length - 1)) +
            2 * params.nPowTargetSpacing := by
      rw [divisor, length]
      push_cast
      ring
    rw [zero, Int.mul_zero, Int.zero_add]
    apply max_lt _ lower
    omega

end Window

/-! ## Which chains keep their `nBits` -/

/-- A smaller target than a canonical one is encoded differently. -/
theorem encodeTarget_ne_of_lt
    {target other : Nat} (bounded : other < 2 ^ 256)
    (canonical : decodeTarget (encodeTarget target) = target)
    (smaller : other < target) :
    encodeTarget other ≠ encodeTarget target := by
  intro equal
  have decoded := congrArg decodeTarget equal
  rw [decodeTarget_encodeTarget bounded, canonical] at decoded
  have rounded := roundTarget_le other
  omega

/-- The quotient the code clamps on a steady chain: the target itself once the
window has left genesis behind and the product fits, and less otherwise. -/
theorem wrappedQuotient_steady
    (network : Network) {target : Nat} {pindexLast : CBlockIndex}
    (steady : SteadyChain network.params.nPowTargetSpacing
      (encodeTarget target) pindexLast)
    (canonical : decodeTarget (encodeTarget target) = target)
    (bounded : target * 60 < 2 ^ 256) (nonzero : target ≠ 0) :
    (60 ≤ CBlockIndex.nHeight pindexLast ∧ target * 1098000 < 2 ^ 256 →
        wrappedQuotient network.params pindexLast = target) ∧
      (¬ (60 ≤ CBlockIndex.nHeight pindexLast ∧
          target * 1098000 < 2 ^ 256) →
        wrappedQuotient network.params pindexLast < target) := by
  have positive := network_spacing_pos network
  have divisorPos :=
    (network_weightDivisor_bounds network pindexLast).1
  have sumLt : windowLength pindexLast * target < 2 ^ 256 :=
    lt_of_le_of_lt
      (Nat.mul_le_mul_right target (windowLength_le pindexLast))
      (by omega)
  have quotient :
      wrappedQuotient network.params pindexLast =
        target * (boundedWeightedSum network.params pindexLast).toNat %
            2 ^ 256 /
          weightDivisor network.params pindexLast := by
    rw [wrappedQuotient, sumOfTargets_steady steady, canonical,
      Nat.mod_eq_of_lt sumLt,
      Nat.mul_div_cancel_left _ (windowLength_pos pindexLast)]
  rcases Nat.lt_or_ge (CBlockIndex.nHeight pindexLast) 60 with
    young | grown
  · have less := boundedWeightedSum_lt_steady positive steady young
    refine ⟨fun both => absurd both.1 (by omega), fun _ => ?_⟩
    rw [quotient]
    apply Nat.div_lt_of_lt_mul
    apply lt_of_le_of_lt (Nat.mod_le _ _)
    rw [Nat.mul_comm]
    apply Nat.mul_lt_mul_of_pos_right _ (Nat.pos_of_ne_zero nonzero)
    omega
  · have length : windowLength pindexLast = 60 := by
      rw [windowLength_eq]
      omega
    have divisor :
        weightDivisor network.params pindexLast = 1098000 := by
      rw [weightDivisor, length, Network.nPowTargetSpacing_params]
    rw [quotient, boundedWeightedSum_steady positive steady grown,
      Int.toNat_natCast, divisor]
    constructor
    · intro both
      rw [Nat.mod_eq_of_lt both.2, Nat.mul_div_cancel _ (by norm_num)]
    · intro wraps
      omega

/-- When a steady chain keeps its `nBits`: once sixty blocks stand between the
tip and genesis and the product with the weighted sum fits in 256 bits.  The
smallest target is kept always, as nothing is below it. -/
theorem steady_state_iff
    (network : Network) (lwma : network.params.useLwma3 = true)
    (target : Nat)
    (canonical : decodeTarget (encodeTarget target) = target)
    (pindexLast : CBlockIndex)
    (several : 1 ≤ CBlockIndex.nHeight pindexLast)
    (steady : SteadyChain network.params.nPowTargetSpacing
      (encodeTarget target) pindexLast)
    (half : 2 * target ≤ floorTarget network.params pindexLast) :
    calculateLwma3Target pindexLast network.params =
        some (encodeTarget target) ↔
      target = 1 ∨
        (target ≠ 0 ∧ 60 ≤ CBlockIndex.nHeight pindexLast ∧
          target * 1098000 < 2 ^ 256) := by
  have limit : network.powLimitNat < 2 ^ 240 := by
    cases network with
    | regtest enforceBip94 => cases lwma
    | _ => norm_num [Network.powLimitNat]
  have floor := floorTarget_le network.params pindexLast
  rw [Network.toNat_powLimit] at floor
  rw [calculateLwma3Target_eq several (network_spacing_pos network)
    (network_narrow network), Option.some_inj]
  rcases Nat.eq_zero_or_pos target with rfl | nonzero
  · have one :
        encodeTarget (max 1 (min (floorTarget network.params pindexLast)
          (wrappedQuotient network.params pindexLast))) ≠
        encodeTarget 0 := by
      intro equal
      have decoded := congrArg decodeTarget equal
      rw [decodeTarget_encodeTarget (by omega), canonical] at decoded
      exact roundTarget_ne_zero (by omega) decoded
    simp [one]
  · obtain ⟨kept, lowered⟩ :=
      wrappedQuotient_steady network steady canonical (by omega)
        (by omega)
    by_cases exact : 60 ≤ CBlockIndex.nHeight pindexLast ∧
        target * 1098000 < 2 ^ 256
    · rw [kept exact, min_eq_right (by omega), max_eq_right nonzero]
      exact ⟨fun _ => Or.inr ⟨by omega, exact⟩, fun _ => rfl⟩
    · have less := lowered exact
      rw [min_eq_right (by omega)]
      rcases Nat.lt_or_ge 1 target with large | small
      · have different :=
          encodeTarget_ne_of_lt (by omega) canonical
            (show max 1 (wrappedQuotient network.params pindexLast) <
              target by omega)
        constructor
        · intro equal
          exact absurd equal different
        · rintro (one | ⟨_, both⟩)
          · omega
          · exact absurd both exact
      · obtain rfl : target = 1 := by omega
        rw [Nat.lt_one_iff.mp less]
        exact ⟨fun _ => Or.inl rfl, fun _ => rfl⟩

/-- Mainnet blocks with the given `nBits`, ten minutes apart. -/
def evenChain (bits : Nat) : Nat → CBlockIndex
  | 0 => .root ⟨1, 0, 1739145600, bits, 0⟩
  | count + 1 =>
    .child (evenChain bits count)
      ⟨1, 0, 1739145600 + 600 * (count + 1), bits, 0⟩

theorem getBlockTime_evenChain (bits count : Nat) :
    CBlockIndex.getBlockTime (evenChain bits count) =
      1739145600 + 600 * count := by
  cases count <;> rfl

theorem steadyChain_evenChain (bits count : Nat) :
    SteadyChain Network.main.params.nPowTargetSpacing bits
      (evenChain bits count) := by
  induction count with
  | zero => rfl
  | succ count induction =>
    refine ⟨induction, rfl, ?_⟩
    rw [getBlockTime_evenChain, Network.nPowTargetSpacing_params]
    push_cast
    ring

/-- Sixty-one mainnet blocks ten minutes apart keep their `nBits`. -/
theorem steady_state_on_long_mainnet :
    calculateLwma3Target (evenChain 0x1c7fffff 60) Network.main.params =
      some 0x1c7fffff := by
  have encoded : encodeTarget (0x7fffff * 2 ^ 200) = 0x1c7fffff := by
    decide
  have kept :=
    (steady_state_iff .main rfl (0x7fffff * 2 ^ 200) (by decide)
      (evenChain 0x1c7fffff 60) (by decide)
      (by rw [encoded]; exact steadyChain_evenChain _ _)
      (by decide)).mpr (Or.inr (by decide))
  rw [encoded] at kept
  exact kept

/-- Two mainnet blocks ten minutes apart, both at half the floor: the next
target is a third lower. -/
theorem steady_state_lost_after_genesis :
    decodeTarget (encodeTarget (0x3fffff * 2 ^ 208)) =
        0x3fffff * 2 ^ 208 ∧
      encodeTarget (0x3fffff * 2 ^ 208) = 0x1d3fffff ∧
      SteadyChain Network.main.params.nPowTargetSpacing 0x1d3fffff
        (evenChain 0x1d3fffff 1) ∧
      2 * (0x3fffff * 2 ^ 208) ≤
        floorTarget Network.main.params (evenChain 0x1d3fffff 1) ∧
      calculateLwma3Target (evenChain 0x1d3fffff 1) Network.main.params =
        some 0x1d2aaaaa := by
  refine ⟨by decide, by decide, steadyChain_evenChain _ _, by decide, ?_⟩
  rw [calculateLwma3Target_eq (by decide) (network_spacing_pos _)
    (network_narrow _)]
  decide +kernel

end B3Chain.Pow
