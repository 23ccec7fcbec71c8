import B3Chain.Pow.NextWork

/-!
# Permitted difficulty transitions

`PermittedDifficultyTransition`, the cheap bound on how `nBits` may change from
one header to the next.  Every shipped network returns before the bound is
computed: the difficulty of a header that has only been received is not
restricted by its predecessor.
-/

namespace B3Chain.Pow

open B3Chain.Arith
open B3Chain.Consensus

/-- The target that a period of the given length leads to, after rounding. -/
def transitionTarget (params : Params) (oldBits timespan : Nat) :
    Option ArithUint256 := do
  let scaled := (setCompact oldBits).target.mulUint32 (timespan % 2 ^ 32)
  let target ← scaled.div (.ofUint64 params.nPowTargetTimespan)
  return (setCompact (getCompact
    (if target.gt params.powLimit then params.powLimit else target))).target

/-- `PermittedDifficultyTransition`; `none` is a division by zero. -/
def permittedDifficultyTransition (params : Params)
    (height oldBits newBits : Nat) : Option Bool :=
  if params.fPowAllowMinDifficultyBlocks then some true
  else if params.useLwma3 then some true
  else if height % params.difficultyAdjustmentInterval = 0 then do
    let observedNewTarget := (setCompact newBits).target
    let maximumNewTarget ←
      transitionTarget params oldBits (params.nPowTargetTimespan * 4)
    let minimumNewTarget ←
      transitionTarget params oldBits (params.nPowTargetTimespan / 4)
    return !maximumNewTarget.lt observedNewTarget &&
      !minimumNewTarget.gt observedNewTarget
  else some (oldBits == newBits)

end B3Chain.Pow
