import B3Chain.Pow.Lwma3Networks

/-!
# How the LWMA-3 target answers the tip's timestamp

The tip's timestamp enters the weighted sum once, in the last solve time and
with the largest weight.  A later tip therefore never lowers the next target:
the clamps, the lower bound on the weighted sum, the division and the compact
encoding all keep the order.
-/

namespace B3Chain.Pow

open B3Chain.Arith
open B3Chain.Chain
open B3Chain.Consensus
open B3Chain.Tree

/-! ## The tip at the end of the window -/

theorem windowBlocks_child (parent : CBlockIndex) (header : CBlockHeader) :
    windowBlocks (.child parent header) =
      (walkBack 59 (some parent)).reverse ++ [.child parent header] :=
  List.reverse_cons

theorem windowAnchor_child (parent : CBlockIndex) (header : CBlockHeader) :
    windowAnchor (windowBlocks (.child parent header)) =
      windowAnchor (walkBack 59 (some parent)).reverse := by
  have nonempty : (walkBack 59 (some parent)).reverse ≠ [] := by
    rw [walkBack]
    simp
  rw [windowAnchor, windowAnchor, windowBlocks_child,
    List.head?_append_of_ne_nil _ nonempty]

theorem solveTimes_concat
    (anchor : Int) (timestamps : List Int) (last : Int) :
    solveTimes anchor (timestamps ++ [last]) =
      solveTimes anchor timestamps ++
        [last - timestamps.getLastD anchor] := by
  induction timestamps generalizing anchor with
  | nil => rfl
  | cons timestamp rest induction =>
    rw [List.cons_append, solveTimes_cons, induction, solveTimes_cons,
      List.getLastD_cons, List.cons_append]

theorem weightedTimes_concat
    (spacing : Int) (first : Nat) (times : List Int) (last : Int) :
    weightedTimes spacing first (times ++ [last]) =
      weightedTimes spacing first times +
        (first + times.length : Nat) * limitedSolveTime spacing last := by
  rw [weightedTimes, List.zipIdx_append, List.map_append, List.sum_append]
  simp [weightedTimes]

theorem limitedSolveTime_mono
    (spacing : Int) {solveTime other : Int} (ordered : solveTime ≤ other) :
    limitedSolveTime spacing solveTime ≤ limitedSolveTime spacing other := by
  rw [limitedSolveTime, limitedSolveTime]
  omega

/-! ## A later tip -/

section Retimed

variable (params : Params) (parent : CBlockIndex) (header : CBlockHeader)
  (later : Nat)

theorem sumOfTargets_retimed :
    sumOfTargets (.child parent { header with nTime := later }) =
      sumOfTargets (.child parent header) := by
  rw [sumOfTargets, sumOfTargets, windowBlocks_child, windowBlocks_child,
    List.map_append, List.map_append]
  rfl

theorem windowLength_retimed :
    windowLength (.child parent { header with nTime := later }) =
      windowLength (.child parent header) := by
  rw [windowLength_eq, windowLength_eq]
  rfl

theorem boundedWeightedSum_retimed (ordered : header.nTime ≤ later) :
    boundedWeightedSum params (.child parent header) ≤
      boundedWeightedSum params
        (.child parent { header with nTime := later }) := by
  rw [boundedWeightedSum, boundedWeightedSum,
    windowLength_retimed parent header later, windowAnchor_child,
    windowAnchor_child, windowBlocks_child, windowBlocks_child,
    List.map_append, List.map_append]
  apply max_le_max_right
  rw [List.map_singleton, List.map_singleton, solveTimes_concat,
    solveTimes_concat, weightedTimes_concat, weightedTimes_concat]
  apply Int.add_le_add_left
  apply Int.mul_le_mul_of_nonneg_left _ (Int.natCast_nonneg _)
  apply limitedSolveTime_mono
  apply Int.sub_le_sub_right
  exact Int.ofNat_le.mpr ordered

theorem lwma3Formula_retimed (ordered : header.nTime ≤ later) :
    lwma3Formula params (.child parent header) ≤
      lwma3Formula params
        (.child parent { header with nTime := later }) := by
  have weighted :=
    boundedWeightedSum_retimed params parent header later ordered
  have floor :
      floorTarget params (.child parent { header with nTime := later }) =
        floorTarget params (.child parent header) :=
    rfl
  have divisor :
      weightDivisor params (.child parent { header with nTime := later }) =
        weightDivisor params (.child parent header) := by
    rw [weightDivisor, weightDivisor,
      windowLength_retimed parent header later]
  have scaled :
      scaledTarget params (.child parent header) ≤
        scaledTarget params
          (.child parent { header with nTime := later }) := by
    rw [scaledTarget, scaledTarget,
      sumOfTargets_retimed parent header later,
      windowLength_retimed parent header later]
    exact Nat.mul_le_mul_left _ (Int.toNat_le_toNat weighted)
  rw [lwma3Formula, lwma3Formula, floor, divisor]
  have quotient :=
    Nat.div_le_div_right (c := weightDivisor params (.child parent header))
      scaled
  omega

theorem targetsWithin_retimed
    {limit : Nat} (within : TargetsWithin limit (.child parent header)) :
    TargetsWithin limit (.child parent { header with nTime := later }) := by
  intro block below
  rcases (Branch.le_child_iff _ _ _).mp below with top | lower
  · rw [top]
    exact within (.child parent header) le_rfl
  · exact within block (Branch.le_child_of_le lower header)

end Retimed

/-! ## The range of the target -/

/-- The average target of the window. -/
def averageTarget (pindexLast : CBlockIndex) : Nat :=
  sumOfTargets pindexLast / windowLength pindexLast

/-- The bits encode a target between the average scaled by the least weighted
sum, or one, and six times the average, or the floor. -/
def EncodesWithin (params : Params) (pindexLast : CBlockIndex)
    (bits : Nat) : Prop :=
  ∃ target,
    bits = encodeTarget target ∧ decodeTarget bits = roundTarget target ∧
      max 1 (averageTarget pindexLast *
          (params.nPowTargetSpacing * windowLength pindexLast / 20) /
            weightDivisor params pindexLast) ≤ target ∧
      target ≤ min (6 * averageTarget pindexLast)
        (floorTarget params pindexLast)

theorem averageTarget_ge
    {least : Nat} {pindexLast : CBlockIndex}
    (above : ∀ block : CBlockIndex, block ≤ pindexLast →
      least ≤ decodeTarget block.nBits) :
    least ≤ averageTarget pindexLast := by
  have bound :=
    List.card_nsmul_le_sum
      ((windowBlocks pindexLast).map fun index =>
        decodeTarget (CBlockIndex.nBits index)) least (by
          intro target member
          obtain ⟨block, inWindow, rfl⟩ := List.mem_map.mp member
          exact above block (le_of_mem_windowBlocks inWindow))
  rw [List.length_map, smul_eq_mul, Nat.mul_comm] at bound
  rw [averageTarget, Nat.le_div_iff_mul_le (windowLength_pos pindexLast)]
  exact bound

theorem averageTarget_pos
    {limit : Nat} {pindexLast : CBlockIndex}
    (within : TargetsWithin limit pindexLast) :
    1 ≤ averageTarget pindexLast :=
  averageTarget_ge fun block below => (within block below).1

/-- Both floors of mainnet are wider than a quarter of `powLimit`. -/
theorem le_floorTarget_main (pindexLast : CBlockIndex) :
    2 ^ 229 ≤ floorTarget Network.main.params pindexLast := by
  rcases Nat.lt_or_ge Network.main.params.nEarlyDifficultyGuardHeight
      (CBlockIndex.nHeight pindexLast + 1) with past | guarded
  · rw [floorTarget_operating (Or.inl rfl) past]
    decide
  · have whole :
        floorTarget Network.main.params pindexLast =
          Network.main.powLimitNat := by
      rw [floorTarget, effectiveFloor,
        if_neg (fun active => absurd active.2.2 (by omega)),
        Network.toNat_powLimit]
    rw [whole]
    norm_num [Network.powLimitNat]

theorem lwma3Formula_within
    {pindexLast : CBlockIndex}
    (within : TargetsWithin Network.main.powLimitNat pindexLast) :
    max 1 (averageTarget pindexLast *
          (Network.main.params.nPowTargetSpacing *
            windowLength pindexLast / 20) /
            weightDivisor Network.main.params pindexLast) ≤
        lwma3Formula Network.main.params pindexLast ∧
      lwma3Formula Network.main.params pindexLast ≤
        min (6 * averageTarget pindexLast)
          (floorTarget Network.main.params pindexLast) := by
  have positive := averageTarget_pos within
  have average : averageTarget pindexLast ≤ 2 ^ 231 - 1 := by
    have bound := average_le within
    norm_num [Network.powLimitNat] at bound
    exact bound
  have floor := le_floorTarget_main pindexLast
  obtain ⟨divisorPos, _⟩ := network_weightDivisor_bounds .main pindexLast
  have weightedLe := boundedWeightedSum_le Network.main.params pindexLast
  have lengthLe :=
    (triangle_bounds (windowLength_pos pindexLast)
      (windowLength_le pindexLast)).2.1
  have least :
      Network.main.params.nPowTargetSpacing * windowLength pindexLast / 20 ≤
        (boundedWeightedSum Network.main.params pindexLast).toNat := by
    rw [Int.le_toNat (boundedWeightedSum_nonneg _ _)]
    push_cast
    exact le_max_right _ _
  have quarter :
      4 * (Network.main.params.nPowTargetSpacing *
          windowLength pindexLast / 20) ≤
        weightDivisor Network.main.params pindexLast := by
    have product :
        Network.main.params.nPowTargetSpacing * windowLength pindexLast ≤
          weightDivisor Network.main.params pindexLast :=
      Nat.mul_le_mul_left _ lengthLe
    omega
  have lower :=
    Nat.div_le_div_right
      (c := weightDivisor Network.main.params pindexLast)
      (Nat.mul_le_mul_left (averageTarget pindexLast) least)
  have lowerFloor :
      averageTarget pindexLast *
          (Network.main.params.nPowTargetSpacing *
            windowLength pindexLast / 20) /
            weightDivisor Network.main.params pindexLast ≤
        2 ^ 229 := by
    apply Nat.div_le_of_le_mul
    have scaled := Nat.mul_le_mul average quarter
    rw [Nat.mul_left_comm] at scaled
    omega
  have upper :
      scaledTarget Network.main.params pindexLast /
          weightDivisor Network.main.params pindexLast ≤
        6 * averageTarget pindexLast := by
    apply Nat.div_le_of_le_mul
    calc
      scaledTarget Network.main.params pindexLast
          ≤ averageTarget pindexLast *
              (6 * weightDivisor Network.main.params pindexLast) :=
            Nat.mul_le_mul_left _ (by omega)
      _ = weightDivisor Network.main.params pindexLast *
            (6 * averageTarget pindexLast) := by ring
  rw [lwma3Formula]
  change _ ≤ scaledTarget Network.main.params pindexLast / _ at lower
  omega

theorem calculateLwma3Target_main
    {pindexLast : CBlockIndex}
    (several : 1 ≤ CBlockIndex.nHeight pindexLast)
    (within : TargetsWithin Network.main.powLimitNat pindexLast) :
    calculateLwma3Target pindexLast Network.main.params =
      some (encodeTarget (lwma3Formula Network.main.params pindexLast)) := by
  rw [calculateLwma3Target_eq several (network_spacing_pos .main)
      (network_narrow .main),
    wrappedQuotient_eq rfl within,
    Nat.mod_eq_of_lt (scaledTarget_lt rfl (by decide) within)]
  rfl

theorem lwma3Formula_lt (network : Network) (pindexLast : CBlockIndex) :
    lwma3Formula network.params pindexLast < 2 ^ 256 := by
  have floor := floorTarget_le network.params pindexLast
  have limit := network.powLimitNat_lt
  rw [Network.toNat_powLimit] at floor
  rw [lwma3Formula]
  omega

/-- On mainnet a later tip never lowers the next target, and the target stays
in its range up to the rounding of the compact form.  A block of the chain has
a target that `DeriveTarget` accepts. -/
theorem lwma3_monotone_in_tip_time
    (parent : CBlockIndex) (header : CBlockHeader)
    (within : TargetsWithin Network.main.powLimitNat (.child parent header))
    (later : Nat) (ordered : header.nTime ≤ later) :
    ∃ bits laterBits,
      calculateLwma3Target (.child parent header) Network.main.params =
          some bits ∧
        calculateLwma3Target (.child parent { header with nTime := later })
            Network.main.params = some laterBits ∧
        decodeTarget bits ≤ decodeTarget laterBits ∧
        EncodesWithin Network.main.params (.child parent header) bits ∧
        EncodesWithin Network.main.params
          (.child parent { header with nTime := later }) laterBits := by
  have laterWithin := targetsWithin_retimed parent header later within
  have range := lwma3Formula_within within
  have laterRange := lwma3Formula_within laterWithin
  have rounded := decodeTarget_encodeTarget
    (lwma3Formula_lt .main (.child parent header))
  have laterRounded := decodeTarget_encodeTarget
    (lwma3Formula_lt .main (.child parent { header with nTime := later }))
  refine ⟨_, _, calculateLwma3Target_main (Nat.le_add_left 1 _) within,
    calculateLwma3Target_main (Nat.le_add_left 1 _) laterWithin, ?_,
    ⟨_, rfl, rounded, range.1, range.2⟩,
    ⟨_, rfl, laterRounded, laterRange.1, laterRange.2⟩⟩
  rw [rounded, laterRounded]
  exact roundTarget_mono
    (lwma3Formula_retimed _ parent header later ordered)

/-- The second mainnet block twenty minutes later than on time. -/
theorem lwma3_monotone_on_second_block :
    ∃ bits laterBits,
      calculateLwma3Target
          (.child (.root mainGenesis)
            { mainGenesis with nTime := 1739146200 })
          Network.main.params = some bits ∧
        calculateLwma3Target
          (.child (.root mainGenesis)
            { mainGenesis with nTime := 1739147400 })
          Network.main.params = some laterBits ∧
        decodeTarget bits ≤ decodeTarget laterBits := by
  have within :
      TargetsWithin Network.main.powLimitNat
        (.child (.root mainGenesis)
          { mainGenesis with nTime := 1739146200 }) := by
    intro block below
    rcases (Branch.le_child_iff _ _ _).mp below with top | lower
    · rw [top]
      decide
    · rw [(Branch.le_root_iff _ _).mp lower]
      decide
  obtain ⟨bits, laterBits, computed, laterComputed, ordered, _⟩ :=
    lwma3_monotone_in_tip_time (.root mainGenesis)
      { mainGenesis with nTime := 1739146200 } within 1739147400
      (by decide)
  exact ⟨bits, laterBits, computed, laterComputed, ordered⟩

end B3Chain.Pow
