import B3Chain.Chain.BlockIndex
import B3Chain.Consensus.ChainParams

/-!
# The LWMA-3 difficulty algorithm

`CalculateLwma3Target` of `pow/lwma3.cpp`: a window of at most sixty blocks,
solve times clamped and weighted by their position, an average target scaled
in wrapping 256-bit arithmetic, and a clamp to the difficulty floor.  Signed
64-bit quantities are integers; the conversions to unsigned words at the
multiplication and the division are written out.

The second half says what the code computes over natural numbers.
-/

namespace B3Chain.Pow

open B3Chain.Arith
open B3Chain.Chain
open B3Chain.Consensus
open B3Chain.Tree

def lwma3Window : Nat := 60

def lwma3SolveTimeMaxFactor : Int := 6

def lwma3SolveTimeMinFactor : Int := 5

/-! ## Gathering the window -/

/-- The backward walk of `GatherWindow`, newest block first. -/
def walkBack : Nat → Option CBlockIndex → List CBlockIndex
  | 0, _ => []
  | _ + 1, none => []
  | steps + 1, some it => it :: walkBack steps (CBlockIndex.pprev it)

/-- The blocks of the window in chronological order. -/
def windowBlocks (pindexLast : CBlockIndex) : List CBlockIndex :=
  (walkBack lwma3Window (some pindexLast)).reverse

/-- `WindowSlice`. -/
structure WindowSlice where
  length : Nat
  tsAnchor : Int
  timestamps : List Int
  targets : List ArithUint256

/-- The time before the first block of the window. -/
def windowAnchor (chain : List CBlockIndex) : Int :=
  match chain.head? with
  | none => 0
  | some oldest =>
    match CBlockIndex.pprev oldest with
    | some parent => CBlockIndex.getBlockTime parent
    | none => CBlockIndex.getBlockTime oldest

/-- `GatherWindow`. -/
def gatherWindow (pindexLast : CBlockIndex) : WindowSlice :=
  let chain := windowBlocks pindexLast
  { length := chain.length
    tsAnchor := windowAnchor chain
    timestamps := chain.map CBlockIndex.getBlockTime
    targets := chain.map fun index =>
      (setCompact (CBlockIndex.nBits index)).target }

/-! ## Weighting the solve times -/

/-- The two clamps on one solve time. -/
def clampSolveTime (spacing solveTime : Int) : Int :=
  let upper :=
    if solveTime > lwma3SolveTimeMaxFactor * spacing then
      lwma3SolveTimeMaxFactor * spacing
    else solveTime
  if upper < -lwma3SolveTimeMinFactor * spacing then
    -lwma3SolveTimeMinFactor * spacing
  else upper

/-- The loop variables of the weighting loop. -/
structure SolveTimes where
  weightedSum : Int
  weightDenominator : Int
  prevTs : Int
deriving DecidableEq

/-- The weighting loop from position `i` on. -/
def weighSolveTimes (spacing : Int) :
    Nat → SolveTimes → List Int → SolveTimes
  | _, times, [] => times
  | i, times, timestamp :: rest =>
    let weight : Int := i + 1
    let solveTime := clampSolveTime spacing (timestamp - times.prevTs)
    weighSolveTimes spacing (i + 1)
      { weightedSum := times.weightedSum + weight * solveTime
        weightDenominator := times.weightDenominator + weight
        prevTs := timestamp }
      rest

/-! ## The target -/

/-- `static_cast<uint64_t>` of a signed 64-bit value. -/
def toUint64 (number : Int) : Nat :=
  (number % 2 ^ 64).toNat

/-- The floor of step 5: `powLimit`, or the operating floor after the guard. -/
def effectiveFloor (params : Params) (nextHeight : Nat) : ArithUint256 :=
  if params.operatingPowFloorBits ≠ 0 ∧
      params.nEarlyDifficultyGuardHeight > 0 ∧
      nextHeight > params.nEarlyDifficultyGuardHeight then
    let opFloor := setCompact params.operatingPowFloorBits
    if !opFloor.negative && !opFloor.overflow &&
        !opFloor.target.equalTo 0 && opFloor.target.lt params.powLimit then
      opFloor.target
    else params.powLimit
  else params.powLimit

/-- The clamps of step 5. -/
def clampTarget (floor target : ArithUint256) : ArithUint256 :=
  let capped := if target.gt floor then floor else target
  if capped.equalTo 0 then .ofUint64 1 else capped

/-- `CalculateLwma3Target`; `none` models a division by zero. -/
def calculateLwma3Target (pindexLast : CBlockIndex) (params : Params) :
    Option Nat :=
  let spacing : Int := params.nPowTargetSpacing
  let w := gatherWindow pindexLast
  if w.length ≤ 1 then some (getCompact params.powLimit)
  else do
    let times := weighSolveTimes spacing 0 ⟨0, 0, w.tsAnchor⟩ w.timestamps
    let minWeightedSum := spacing * w.length / 20
    let weightedSum :=
      if times.weightedSum < minWeightedSum then minWeightedSum
      else times.weightedSum
    let sumTargets := w.targets.foldl ArithUint256.add (.ofUint64 0)
    let avgTarget ← sumTargets.div (.ofUint64 w.length)
    -- The only multiplication by a word takes a `uint32_t`.
    let numerator := avgTarget.mulUint32 (toUint64 weightedSum % 2 ^ 32)
    let denom :=
      toUint64 spacing * toUint64 times.weightDenominator % 2 ^ 64
    let newTarget ← numerator.div (.ofUint64 denom)
    let floor := effectiveFloor params (CBlockIndex.nHeight pindexLast + 1)
    return getCompact (clampTarget floor newTarget)

/-! ## The window as a list of blocks -/

theorem length_walkBack (steps : Nat) (index : CBlockIndex) :
    (walkBack steps (some index)).length =
      min steps (CBlockIndex.nHeight index + 1) := by
  induction steps generalizing index with
  | zero => simp [walkBack]
  | succ steps induction =>
    cases index with
    | root header =>
      cases steps <;>
        simp [walkBack, CBlockIndex.pprev, CBlockIndex.nHeight,
          Branch.parent?]
    | child parent header =>
      rw [walkBack, List.length_cons, CBlockIndex.nHeight_child,
        show CBlockIndex.pprev (.child parent header) = some parent from
          rfl, induction]
      omega

theorem length_windowBlocks (index : CBlockIndex) :
    (windowBlocks index).length =
      min lwma3Window (CBlockIndex.nHeight index + 1) := by
  rw [windowBlocks, List.length_reverse, length_walkBack]

theorem le_of_mem_walkBack
    {steps : Nat} {index block : CBlockIndex}
    (member : block ∈ walkBack steps (some index)) :
    block ≤ index := by
  induction steps generalizing index with
  | zero => simp [walkBack] at member
  | succ steps induction =>
    rw [walkBack, List.mem_cons] at member
    rcases member with rfl | later
    · exact le_rfl
    · cases index with
      | root header =>
        cases steps <;>
          simp [walkBack, CBlockIndex.pprev, Branch.parent?] at later
      | child parent header =>
        exact Branch.le_child_of_le (induction later) header

/-- Every block of the window is an ancestor of the last one. -/
theorem le_of_mem_windowBlocks
    {index block : CBlockIndex} (member : block ∈ windowBlocks index) :
    block ≤ index := by
  rw [windowBlocks, List.mem_reverse] at member
  exact le_of_mem_walkBack member

/-! ## The formula over unbounded integers -/

/-- Differences of consecutive times, the first one from the anchor. -/
def solveTimes (anchor : Int) (timestamps : List Int) : List Int :=
  List.zipWith (· - ·) timestamps (anchor :: timestamps)

/-- A solve time limited to the interval from `-5T` to `6T`. -/
def limitedSolveTime (spacing solveTime : Int) : Int :=
  max (-5 * spacing) (min (6 * spacing) solveTime)

/-- The sum of limited solve times, weighted from `first` upwards. -/
def weightedTimes (spacing : Int) (first : Nat) (times : List Int) : Int :=
  ((times.zipIdx first).map fun entry =>
    (entry.2 : Int) * limitedSolveTime spacing entry.1).sum

/-- The number of blocks of the window. -/
def windowLength (pindexLast : CBlockIndex) : Nat :=
  (windowBlocks pindexLast).length

/-- The sum of the window's targets. -/
def sumOfTargets (pindexLast : CBlockIndex) : Nat :=
  ((windowBlocks pindexLast).map fun index =>
    decodeTarget (CBlockIndex.nBits index)).sum

/-- The weighted sum after its lower bound `(T * N) / 20`. -/
def boundedWeightedSum (params : Params) (pindexLast : CBlockIndex) : Int :=
  max
    (weightedTimes params.nPowTargetSpacing 1
      (solveTimes (windowAnchor (windowBlocks pindexLast))
        ((windowBlocks pindexLast).map CBlockIndex.getBlockTime)))
    (params.nPowTargetSpacing * windowLength pindexLast / 20)

/-- The divisor `T * N(N+1)/2`. -/
def weightDivisor (params : Params) (pindexLast : CBlockIndex) : Nat :=
  params.nPowTargetSpacing *
    (windowLength pindexLast * (windowLength pindexLast + 1) / 2)

/-- The average target times the bounded weighted sum. -/
def scaledTarget (params : Params) (pindexLast : CBlockIndex) : Nat :=
  sumOfTargets pindexLast / windowLength pindexLast *
    (boundedWeightedSum params pindexLast).toNat

/-- The floor that applies to the block after `pindexLast`. -/
def floorTarget (params : Params) (pindexLast : CBlockIndex) : Nat :=
  (effectiveFloor params (CBlockIndex.nHeight pindexLast + 1)).toNat

/-- The LWMA-3 target over unbounded integers. -/
def lwma3Formula (params : Params) (pindexLast : CBlockIndex) : Nat :=
  max 1 (min (floorTarget params pindexLast)
    (scaledTarget params pindexLast / weightDivisor params pindexLast))

/-! ## The weighting loop -/

theorem clampSolveTime_eq
    {spacing : Int} (nonnegative : 0 ≤ spacing) (solveTime : Int) :
    clampSolveTime spacing solveTime =
      limitedSolveTime spacing solveTime := by
  simp only [clampSolveTime, limitedSolveTime, lwma3SolveTimeMaxFactor,
    lwma3SolveTimeMinFactor]
  split_ifs <;> omega

theorem weightedTimes_cons
    (spacing : Int) (first : Nat) (time : Int) (times : List Int) :
    weightedTimes spacing first (time :: times) =
      first * limitedSolveTime spacing time +
        weightedTimes spacing (first + 1) times := by
  rw [weightedTimes, List.zipIdx_cons, List.map_cons, List.sum_cons]
  rfl

theorem solveTimes_cons
    (anchor timestamp : Int) (rest : List Int) :
    solveTimes anchor (timestamp :: rest) =
      (timestamp - anchor) :: solveTimes timestamp rest :=
  rfl

/-- The loop accumulates the weighted sum of the limited solve times. -/
theorem weightedSum_weighSolveTimes
    {spacing : Int} (nonnegative : 0 ≤ spacing)
    (i : Nat) (times : SolveTimes) (timestamps : List Int) :
    (weighSolveTimes spacing i times timestamps).weightedSum =
      times.weightedSum +
        weightedTimes spacing (i + 1)
          (solveTimes times.prevTs timestamps) := by
  induction timestamps generalizing i times with
  | nil => simp [weighSolveTimes, solveTimes, weightedTimes]
  | cons timestamp rest induction =>
    rw [weighSolveTimes, induction, solveTimes_cons, weightedTimes_cons,
      clampSolveTime_eq nonnegative]
    push_cast
    ring

/-- The loop accumulates the sum of the weights. -/
theorem weightDenominator_weighSolveTimes
    (spacing : Int) (i : Nat) (times : SolveTimes) (timestamps : List Int) :
    2 * (weighSolveTimes spacing i times timestamps).weightDenominator =
      2 * times.weightDenominator +
        timestamps.length * (2 * i + timestamps.length + 1) := by
  induction timestamps generalizing i times with
  | nil => simp [weighSolveTimes]
  | cons timestamp rest induction =>
    rw [weighSolveTimes, induction, List.length_cons]
    push_cast
    ring

theorem limitedSolveTime_le
    {spacing : Int} (nonnegative : 0 ≤ spacing) (solveTime : Int) :
    limitedSolveTime spacing solveTime ≤ 6 * spacing := by
  rw [limitedSolveTime]
  omega

theorem weightedTimes_le
    {spacing : Int} (nonnegative : 0 ≤ spacing)
    (first : Nat) (times : List Int) :
    2 * weightedTimes spacing first times ≤
      6 * spacing * (times.length * (2 * first + times.length - 1)) := by
  induction times generalizing first with
  | nil => simp [weightedTimes]
  | cons time rest induction =>
    have step :
        (first : Int) * limitedSolveTime spacing time ≤
          first * (6 * spacing) :=
      mul_le_mul_of_nonneg_left (limitedSolveTime_le nonnegative time)
        (Int.natCast_nonneg first)
    have tail := induction (first + 1)
    rw [weightedTimes_cons, List.length_cons]
    push_cast at tail ⊢
    calc
      2 * (first * limitedSolveTime spacing time +
            weightedTimes spacing (first + 1) rest)
          = 2 * (first * limitedSolveTime spacing time) +
              2 * weightedTimes spacing (first + 1) rest := by ring
      _ ≤ 2 * (first * (6 * spacing)) +
            6 * spacing *
              (rest.length * (2 * (first + 1) + rest.length - 1)) := by
          linarith only [step, tail]
      _ = 6 * spacing *
            ((rest.length + 1) *
              (2 * first + (rest.length + 1) - 1)) := by ring

theorem length_solveTimes (anchor : Int) (timestamps : List Int) :
    (solveTimes anchor timestamps).length = timestamps.length := by
  rw [solveTimes, List.length_zipWith, List.length_cons]
  omega

end B3Chain.Pow
