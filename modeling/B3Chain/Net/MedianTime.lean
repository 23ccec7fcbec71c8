import B3Chain.Pow.HeaderCheck
import B3Chain.Pow.Transition

/-!
# Times of blocks

The bounds `ContextualCheckBlockHeader` puts on the time of a block: after the
median time of its last ancestors, and not too far in the future.
-/

namespace B3Chain.Net

open B3Chain.Chain

/-- `MAX_FUTURE_BLOCK_TIME`. -/
def maxFutureBlockTime : Int := 2 * 60 * 60

/-- The times `GetMedianTimePast` collects. -/
def pastTimes : Nat → CBlockIndex → List Int
  | 0, _ => []
  | _ + 1, .root header => [CBlockIndex.getBlockTime (.root header)]
  | left + 1, .child parent header =>
    CBlockIndex.getBlockTime (.child parent header) :: pastTimes left parent

/-- `GetMedianTimePast`. -/
def getMedianTimePast (index : CBlockIndex) : Int :=
  let sorted := (pastTimes 11 index).insertionSort (· ≤ ·)
  sorted.getD (sorted.length / 2) 0

end B3Chain.Net
