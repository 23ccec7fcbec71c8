import B3Chain.Pow.Transition

/-!
# The legacy retarget and the transition check

`GetNextWorkRequired` without LWMA-3 and `PermittedDifficultyTransition` compute
the same quotient from two sides: one for the timespan that was measured, the
other for the shortest and the longest that count.  As cutting at the limit and
rounding to the compact form keep the order, a retarget at a period's end always
lies between the two.

The early difficulty guard also changes `nBits` inside a period, where the check
asks for equality.  So the check accepts a chain exactly if the guard leaves
`nBits` as it is inside periods, apart from ends of periods where the product
passes 256 bits.
-/

namespace B3Chain.Pow

open B3Chain.Arith
open B3Chain.Chain
open B3Chain.Consensus
open B3Chain.Tree

/-- Every header after the first carries the required `nBits`. -/
def FollowsRequired (params : Params) : CBlockIndex → Prop
  | .root _ => True
  | .child parent header =>
    FollowsRequired params parent ∧
      getNextWorkRequired parent header params = some header.nBits

/-- The early difficulty guard decides the `nBits` of the header. -/
abbrev GuardFires (params : Params) (parent : CBlockIndex)
    (header : CBlockHeader) : Prop :=
  params.nEarlyDifficultyGuardHeight > 0 ∧
    CBlockIndex.nHeight parent + 1 ≤ params.nEarlyDifficultyGuardHeight ∧
      arrivesLate parent header params

/-- The header ends a period of the legacy retarget. -/
abbrev EndsPeriod (params : Params) (parent : CBlockIndex) : Prop :=
  (CBlockIndex.nHeight parent + 1) %
    params.difficultyAdjustmentInterval = 0

/-- The legacy retarget of a parameter set whose timespans fit the signed
64-bit type. -/
structure LegacyRetarget (params : Params) : Prop where
  legacy : params.useLwma3 = false
  strict : params.fPowAllowMinDifficultyBlocks = false
  retargets : params.fPowNoRetargeting = false
  interval : 0 < params.difficultyAdjustmentInterval
  narrow : params.nPowTargetTimespan * 4 < 2 ^ 63

/-- The target after a period of the given length, cut at the limit.  The
multiplication takes the low 32 bits of the length and wraps at 256 bits. -/
def retargeted (params : Params) (target timespan : Nat) : Nat :=
  min params.powLimit.toNat
    (target * (timespan % 2 ^ 32) % 2 ^ 256 / params.nPowTargetTimespan)

/-- The longest timespan carries the target past 256 bits, or is itself no
32-bit number. -/
def Wraps (params : Params) (target : Nat) : Prop :=
  2 ^ 32 ≤ params.nPowTargetTimespan * 4 ∨
    2 ^ 256 ≤ target * (params.nPowTargetTimespan * 4)

/-- Inside a period the guard leaves `nBits` as it is.  At the end of a period
at which the product wraps, the target of the header lies between those of the
shortest and of the longest period. -/
structure StepAgrees (params : Params) (parent : CBlockIndex)
    (header : CBlockHeader) : Prop where
  level : ¬ EndsPeriod params parent → GuardFires params parent header →
    earlyGuardBits parent params = parent.nBits
  between : EndsPeriod params parent →
    Wraps params (decodeTarget parent.nBits) →
      roundTarget (retargeted params (decodeTarget parent.nBits)
          (params.nPowTargetTimespan / 4)) ≤ decodeTarget header.nBits ∧
        decodeTarget header.nBits ≤
          roundTarget (retargeted params (decodeTarget parent.nBits)
            (params.nPowTargetTimespan * 4))

/-- Up to the block `nBits` changes only at the ends of periods. -/
def Level (params : Params) (chain : CBlockIndex) : Prop :=
  ∀ (parent : CBlockIndex) (header : CBlockHeader),
    .child parent header ≤ chain → ¬ EndsPeriod params parent →
      parent.nBits = header.nBits

/-! ## The two computations -/

section Legacy

variable {params : Params}

theorem retargeted_lt (target timespan : Nat) :
    retargeted params target timespan < 2 ^ 256 :=
  lt_of_le_of_lt (min_le_left _ _) params.powLimit.toNat_lt

theorem retargeted_eq {target timespan : Nat}
    (whole : ¬ Wraps params target)
    (short : timespan ≤ params.nPowTargetTimespan * 4) :
    retargeted params target timespan =
      min params.powLimit.toNat
        (target * timespan / params.nPowTargetTimespan) := by
  rw [Wraps, not_or, not_le, not_le] at whole
  have smaller := Nat.mul_le_mul_left target short
  have word : timespan % 2 ^ 32 = timespan := Nat.mod_eq_of_lt (by omega)
  rw [retargeted, word, Nat.mod_eq_of_lt (by omega)]

/-- A longer period leads to a larger target. -/
theorem retargeted_mono {target timespan longer : Nat}
    (whole : ¬ Wraps params target)
    (short : longer ≤ params.nPowTargetTimespan * 4)
    (ordered : timespan ≤ longer) :
    retargeted params target timespan ≤ retargeted params target longer := by
  rw [retargeted_eq whole (ordered.trans short), retargeted_eq whole short]
  exact min_le_min_left _
    (Nat.div_le_div_right (Nat.mul_le_mul_left target ordered))

section

variable (retarget : LegacyRetarget params)

include retarget

theorem LegacyRetarget.timespan_pos :
    0 < params.nPowTargetTimespan := by
  apply Nat.pos_of_ne_zero
  intro zero
  have interval := retarget.interval
  rw [Params.difficultyAdjustmentInterval, zero, Nat.zero_div] at interval
  exact Nat.lt_irrefl 0 interval

/-- The division both functions share. -/
theorem scaled_div (bits timespan : Nat) :
    ∃ quotient,
      ((setCompact bits).target.mulUint32 (timespan % 2 ^ 32)).div
          (.ofUint64 params.nPowTargetTimespan) = some quotient ∧
        (if quotient.gt params.powLimit then params.powLimit
          else quotient).toNat =
          retargeted params (decodeTarget bits) timespan := by
  have narrow := retarget.narrow
  have positive := retarget.timespan_pos
  have word :
      (ArithUint256.ofUint64 params.nPowTargetTimespan).toNat =
        params.nPowTargetTimespan :=
    ArithUint256.toNat_ofUint64 (by omega)
  obtain ⟨quotient, divided, value⟩ :=
    ArithUint256.div_eq
      ((setCompact bits).target.mulUint32 (timespan % 2 ^ 32))
      (.ofUint64 params.nPowTargetTimespan) (by rw [word]; omega)
  refine ⟨quotient, divided, ?_⟩
  rw [toNat_capped, value, word, ArithUint256.toNat_mulUint32,
    toNat_setCompact, Nat.mul_comm (timespan % _)]
  rfl

theorem transitionTarget_eq (bits timespan : Nat) :
    ∃ target,
      transitionTarget params bits timespan = some target ∧
        target.toNat =
          roundTarget (retargeted params (decodeTarget bits) timespan) := by
  obtain ⟨quotient, divided, value⟩ := scaled_div retarget bits timespan
  refine ⟨(setCompact (getCompact
    (if quotient.gt params.powLimit then params.powLimit
      else quotient))).target, ?_, ?_⟩
  · rw [transitionTarget, divided]
    rfl
  · rw [toNat_setCompact, getCompact_eq, value,
      decodeTarget_encodeTarget (retargeted_lt _ _)]

/-- At a period's end the check asks for a target between two others. -/
theorem permitted_iff_between {parent : CBlockIndex}
    (ends : EndsPeriod params parent) (newBits : Nat) :
    permittedDifficultyTransition params (CBlockIndex.nHeight parent + 1)
        parent.nBits newBits = some true ↔
      roundTarget (retargeted params (decodeTarget parent.nBits)
          (params.nPowTargetTimespan / 4)) ≤ decodeTarget newBits ∧
        decodeTarget newBits ≤
          roundTarget (retargeted params (decodeTarget parent.nBits)
            (params.nPowTargetTimespan * 4)) := by
  obtain ⟨maximum, maximumEq, maximumValue⟩ :=
    transitionTarget_eq retarget parent.nBits (params.nPowTargetTimespan * 4)
  obtain ⟨minimum, minimumEq, minimumValue⟩ :=
    transitionTarget_eq retarget parent.nBits (params.nPowTargetTimespan / 4)
  rw [permittedDifficultyTransition, retarget.strict, retarget.legacy,
    if_neg Bool.false_ne_true, if_neg Bool.false_ne_true, if_pos ends,
    maximumEq, minimumEq, ← maximumValue, ← minimumValue,
    ← toNat_setCompact newBits]
  have below := ArithUint256.lt_iff maximum (setCompact newBits).target
  have above := ArithUint256.gt_iff minimum (setCompact newBits).target
  simp [← Bool.not_eq_true, below, above, and_comm, pure]

/-- Inside a period the check asks for the same `nBits`. -/
theorem permitted_iff_same {parent : CBlockIndex}
    (inside : ¬ EndsPeriod params parent) (newBits : Nat) :
    permittedDifficultyTransition params (CBlockIndex.nHeight parent + 1)
        parent.nBits newBits = some true ↔ parent.nBits = newBits := by
  rw [permittedDifficultyTransition, retarget.strict, retarget.legacy,
    if_neg Bool.false_ne_true, if_neg Bool.false_ne_true, if_neg inside,
    Option.some_inj, beq_iff_eq]

/-! ## The required value -/

/-- The retarget at a period's end, for the target it starts from. -/
theorem calculateNextWorkRequired_eq {parent : CBlockIndex}
    (constant : ∀ first : CBlockIndex,
      CBlockIndex.getAncestor parent
          (CBlockIndex.nHeight parent -
            (params.difficultyAdjustmentInterval - 1)) = some first →
        first.nBits = parent.nBits) {firstTime : Int} {bits : Nat}
    (required : calculateNextWorkRequired parent firstTime params = some bits) :
    ∃ timespan,
      params.nPowTargetTimespan / 4 ≤ timespan ∧
        timespan ≤ params.nPowTargetTimespan * 4 ∧
        bits = encodeTarget
          (retargeted params (decodeTarget parent.nBits) timespan) := by
  have narrow := retarget.narrow
  rw [calculateNextWorkRequired, retarget.retargets,
    if_neg Bool.false_ne_true] at required
  generalize elapsedEq :
    CBlockIndex.getBlockTime parent - firstTime = elapsed at required
  obtain ⟨timespan, actual, shortest, longest⟩ :
      ∃ timespan : Nat,
        (if (if elapsed < (params.nPowTargetTimespan : Int) / 4 then
              (params.nPowTargetTimespan : Int) / 4 else elapsed) >
            (params.nPowTargetTimespan : Int) * 4 then
            (params.nPowTargetTimespan : Int) * 4
          else if elapsed < (params.nPowTargetTimespan : Int) / 4 then
            (params.nPowTargetTimespan : Int) / 4
          else elapsed) = timespan ∧
          params.nPowTargetTimespan / 4 ≤ timespan ∧
          timespan ≤ params.nPowTargetTimespan * 4 := by
    refine ⟨Int.toNat _, (Int.toNat_of_nonneg ?_).symm, ?_, ?_⟩
    all_goals split_ifs <;> omega
  refine ⟨timespan, shortest, longest, ?_⟩
  have word : toUint64 timespan = timespan := by
    rw [toUint64_of_bounds (Int.natCast_nonneg _) (by omega),
      Int.toNat_natCast]
  obtain ⟨quotient, divided, value⟩ :=
    scaled_div retarget parent.nBits timespan
  obtain ⟨base, baseBits, rest⟩ :
      ∃ base : CBlockIndex, base.nBits = parent.nBits ∧
        (do
          let bnNew ←
            ((setCompact base.nBits).target.mulUint32
              (timespan % 2 ^ 32)).div
              (.ofUint64 params.nPowTargetTimespan)
          return getCompact
            (if bnNew.gt params.powLimit then params.powLimit
              else bnNew)) = some bits := by
    dsimp only at required
    rw [actual, word] at required
    split_ifs at required
    · obtain ⟨base, found, rest⟩ := Option.bind_eq_some_iff.mp required
      exact ⟨base, constant base found, rest⟩
    · exact ⟨parent, rfl, required⟩
  rw [baseBits, divided] at rest
  rw [← Option.some_inj.mp rest, getCompact_eq, value]

/-- Inside a period the required value is the parent's exactly if the guard
leaves it as it is. -/
theorem nBits_inside_period_iff {parent : CBlockIndex}
    {header : CBlockHeader}
    (required : getNextWorkRequired parent header params = some header.nBits)
    (inside : ¬ EndsPeriod params parent) :
    parent.nBits = header.nBits ↔
      (GuardFires params parent header →
        earlyGuardBits parent params = parent.nBits) := by
  rw [getNextWorkRequired, retarget.legacy,
    if_neg Bool.false_ne_true] at required
  split_ifs at required with guarded
  · rw [← Option.some_inj.mp required]
    exact ⟨fun same _ => same.symm, fun kept => (kept guarded).symm⟩
  · rw [legacyNextWork, if_pos inside, retarget.strict,
      if_neg Bool.false_ne_true, Option.some_inj] at required
    exact iff_of_true required fun fires => absurd fires guarded

omit retarget in
/-- Blocks with no period's end between them have the same `nBits`. -/
theorem nBits_of_same_period {chain first : CBlockIndex}
    (level : Level params chain) (below : first ≤ chain)
    (inside : ∀ height,
      CBlockIndex.nHeight first < height →
        height ≤ CBlockIndex.nHeight chain →
          height % params.difficultyAdjustmentInterval ≠ 0) :
    first.nBits = chain.nBits := by
  induction chain with
  | root header => rw [(Branch.le_root_iff _ _).mp below]
  | child parent header induction =>
    rcases (Branch.le_child_iff _ _ _).mp below with top | lower
    · rw [top]
    · have shorter := Branch.height_le_of_le lower
      rw [CBlockIndex.nBits_child, ← level parent header le_rfl
        (inside _ (Nat.lt_succ_of_le shorter) le_rfl)]
      apply induction
      · intro before older lowest
        exact level before older (Branch.le_child_of_le lowest header)
      · exact lower
      · intro height above under
        exact inside height above (Nat.le_succ_of_le under)

/-- The guard's value lies between the check's bounds. -/
theorem earlyGuardBits_eq {parent : CBlockIndex}
    (whole : ¬ Wraps params (decodeTarget parent.nBits)) :
    ∃ target,
      earlyGuardBits parent params = encodeTarget target ∧
        retargeted params (decodeTarget parent.nBits)
            (params.nPowTargetTimespan / 4) ≤ target ∧
        target ≤ retargeted params (decodeTarget parent.nBits)
          (params.nPowTargetTimespan * 4) := by
  have positive := retarget.timespan_pos
  have quadruple :
      decodeTarget parent.nBits * (params.nPowTargetTimespan * 4) /
          params.nPowTargetTimespan =
        4 * decodeTarget parent.nBits := by
    rw [Nat.mul_left_comm, Nat.mul_div_cancel_left _ positive,
      Nat.mul_comm]
  have quarter :
      decodeTarget parent.nBits * (params.nPowTargetTimespan / 4) /
          params.nPowTargetTimespan ≤
        decodeTarget parent.nBits := by
    apply Nat.div_le_of_le_mul
    rw [Nat.mul_comm]
    exact Nat.mul_le_mul_right _ (Nat.div_le_self _ 4)
  have wide :
      4 * decodeTarget parent.nBits ≤
        decodeTarget parent.nBits * (params.nPowTargetTimespan * 4) := by
    rw [Nat.mul_comm 4]
    exact Nat.mul_le_mul_left _ (by omega)
  have fits := whole
  rw [Wraps, not_or, not_le, not_le] at fits
  rw [retargeted_eq whole le_rfl, quadruple,
    retargeted_eq whole (by omega)]
  refine ⟨min params.powLimit.toNat
    (decodeTarget parent.nBits + decodeTarget parent.nBits / 4), ?_, ?_, ?_⟩
  · simp only [earlyGuardBits]
    rw [getCompact_eq, toNat_capped, ArithUint256.toNat_add,
      ArithUint256.toNat_shiftRight, toNat_setCompact,
      Nat.mod_eq_of_lt (by omega)]
    rfl
  · apply min_le_min_left
    omega
  · apply min_le_min_left
    omega

/-- At the end of a period without wrapping the required target lies between the
check's bounds. -/
theorem between_of_whole {parent : CBlockIndex} {header : CBlockHeader}
    (required : getNextWorkRequired parent header params = some header.nBits)
    (level : Level params parent)
    (ends : EndsPeriod params parent)
    (whole : ¬ Wraps params (decodeTarget parent.nBits)) :
    roundTarget (retargeted params (decodeTarget parent.nBits)
        (params.nPowTargetTimespan / 4)) ≤ decodeTarget header.nBits ∧
      decodeTarget header.nBits ≤
        roundTarget (retargeted params (decodeTarget parent.nBits)
          (params.nPowTargetTimespan * 4)) := by
  obtain ⟨target, encoded, least, most⟩ :
      ∃ target, header.nBits = encodeTarget target ∧
        retargeted params (decodeTarget parent.nBits)
            (params.nPowTargetTimespan / 4) ≤ target ∧
        target ≤ retargeted params (decodeTarget parent.nBits)
          (params.nPowTargetTimespan * 4) := by
    rw [getNextWorkRequired, retarget.legacy,
      if_neg Bool.false_ne_true] at required
    split_ifs at required with guarded
    · rw [← Option.some_inj.mp required]
      exact earlyGuardBits_eq retarget whole
    · rw [legacyNextWork, if_neg (not_not.mpr ends)] at required
      obtain ⟨first, _, calculated⟩ := Option.bind_eq_some_iff.mp required
      obtain ⟨timespan, shortest, longest, encoded⟩ :=
        calculateNextWorkRequired_eq retarget (by
          intro first found
          obtain ⟨below, height⟩ :=
            (Branch.ancestorAt_eq_some_iff _ _ _).mp found
          refine nBits_of_same_period level below ?_
          -- The period's heights lie strictly between two multiples.
          intro inner above under multiple
          obtain ⟨periods, whole⟩ := Nat.dvd_of_mod_eq_zero ends
          obtain ⟨count, rfl⟩ := Nat.dvd_of_mod_eq_zero multiple
          have interval := retarget.interval
          change Branch.height first < _ at above
          have fewer : count < periods := by
            apply Nat.lt_of_mul_lt_mul_left
            rw [← whole]
            exact Nat.lt_succ_of_le under
          have more := Nat.mul_le_mul_left
            params.difficultyAdjustmentInterval fewer
          rw [Nat.mul_succ] at more
          omega) calculated
      exact ⟨_, encoded, retargeted_mono whole longest shortest,
        retargeted_mono whole le_rfl longest⟩
  rw [encoded, decodeTarget_encodeTarget
    (lt_of_le_of_lt most (retargeted_lt _ _))]
  exact ⟨roundTarget_mono least, roundTarget_mono most⟩

/-- One step of a chain that is level inside its periods. -/
theorem permitted_iff_agrees {parent : CBlockIndex} {header : CBlockHeader}
    (required : getNextWorkRequired parent header params = some header.nBits)
    (level : Level params parent) :
    permittedDifficultyTransition params (CBlockIndex.nHeight parent + 1)
        parent.nBits header.nBits = some true ↔
      StepAgrees params parent header := by
  by_cases ends : EndsPeriod params parent
  · rw [permitted_iff_between retarget ends]
    refine ⟨fun between => ⟨fun inside => absurd ends inside,
      fun _ _ => between⟩, fun agrees => ?_⟩
    by_cases wraps : Wraps params (decodeTarget parent.nBits)
    · exact agrees.between ends wraps
    · exact between_of_whole retarget required level ends wraps
  · rw [permitted_iff_same retarget ends,
      nBits_inside_period_iff retarget required ends]
    exact ⟨fun kept => ⟨fun _ => kept, fun impossible => absurd impossible
      ends⟩, fun agrees => agrees.level ends⟩

end

theorem FollowsRequired.required {chain parent : CBlockIndex}
    {header : CBlockHeader} (follows : FollowsRequired params chain)
    (below : .child parent header ≤ chain) :
    getNextWorkRequired parent header params = some header.nBits := by
  induction chain with
  | root first => cases (Branch.le_root_iff _ _).mp below
  | child before next induction =>
    rcases (Branch.le_child_iff _ _ _).mp below with top | lower
    · obtain ⟨rfl, rfl⟩ := Branch.child.inj top
      exact follows.2
    · exact induction follows.1 lower

end Legacy

/-- A chain that follows the legacy retarget passes the transition check at
every header exactly if the guard leaves `nBits` as it is inside periods, and
the target stays between the check's bounds at the ends of periods where the
product wraps. -/
theorem chain_permitted_iff_agrees
    (params : Params) (retarget : LegacyRetarget params)
    (chain : CBlockIndex) (follows : FollowsRequired params chain) :
    (∀ (parent : CBlockIndex) (header : CBlockHeader),
      .child parent header ≤ chain →
        permittedDifficultyTransition params
          (CBlockIndex.nHeight parent + 1) parent.nBits header.nBits =
            some true) ↔
      ∀ (parent : CBlockIndex) (header : CBlockHeader),
        .child parent header ≤ chain → StepAgrees params parent header := by
  have each (level : Level params chain) (parent : CBlockIndex)
      (header : CBlockHeader) (below : .child parent header ≤ chain) :
      permittedDifficultyTransition params (CBlockIndex.nHeight parent + 1)
          parent.nBits header.nBits = some true ↔
        StepAgrees params parent header :=
    permitted_iff_agrees retarget (follows.required below)
      fun before next lower => level before next
        (lower.trans ((Branch.parent_lt_child parent header).le.trans below))
  constructor
  · intro permitted parent header below
    refine (each (fun before next lower inside => ?_) parent header
      below).mp (permitted parent header below)
    exact (permitted_iff_same retarget inside _).mp
      (permitted before next lower)
  · intro agrees parent header below
    refine (each (fun before next lower inside => ?_) parent header
      below).mpr (agrees parent header below)
    exact (nBits_inside_period_iff retarget (follows.required lower)
      inside).mpr ((agrees before next lower).level inside)

/-- Mainnet's parameters with the legacy retarget. -/
def legacyMain : Params :=
  { Network.main.params with useLwma3 := false }

/-- Two late blocks at the limit, where the guard has nothing left to raise. -/
theorem late_pair_at_limit_permitted :
    GuardFires legacyMain (.root ⟨1, 0, 1739145600, 0x1d7fffff, 0⟩)
        ⟨1, 0, 1739149200, 0x1d7fffff, 0⟩ ∧
      permittedDifficultyTransition legacyMain 1 0x1d7fffff 0x1d7fffff =
        some true := by
  refine ⟨by decide, (chain_permitted_iff_agrees legacyMain
    ⟨rfl, rfl, rfl, by decide, by decide⟩
    (.child (.root ⟨1, 0, 1739145600, 0x1d7fffff, 0⟩)
      ⟨1, 0, 1739149200, 0x1d7fffff, 0⟩)
    ⟨trivial, by decide⟩).mpr (fun parent header below => ?_)
    (.root ⟨1, 0, 1739145600, 0x1d7fffff, 0⟩)
    ⟨1, 0, 1739149200, 0x1d7fffff, 0⟩ le_rfl⟩
  rcases (Branch.le_child_iff _ _ _).mp below with top | lower
  · obtain ⟨rfl, rfl⟩ := Branch.child.inj top
    exact ⟨fun _ _ => by decide, fun ends => absurd ends (by decide)⟩
  · cases (Branch.le_root_iff _ _).mp lower

/-- The second block is late: the guard raises the target by a quarter, and the
check refuses the header. -/
theorem guarded_pair_refused :
    LegacyRetarget legacyMain ∧
      FollowsRequired legacyMain
        (.child (.root ⟨1, 0, 1739145600, 0x1c7fffff, 0⟩)
          ⟨1, 0, 1739149200, 0x1d009fff, 0⟩) ∧
      permittedDifficultyTransition legacyMain 1 0x1c7fffff 0x1d009fff =
        some false := by
  refine ⟨⟨rfl, rfl, rfl, by decide, by decide⟩, ⟨trivial, ?_⟩, by decide⟩
  decide

end B3Chain.Pow
