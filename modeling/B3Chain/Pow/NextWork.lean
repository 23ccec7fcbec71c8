import B3Chain.Pow.Lwma3Networks

/-!
# The required work of the next block

`GetNextWorkRequired` and `DeriveTarget` of `pow.cpp`.  A chain whose headers
carry the required `nBits` is shown to stay decodable: whatever the
timestamps, every header's `nBits` is accepted by `DeriveTarget`.
-/

namespace B3Chain.Pow

open B3Chain.Arith
open B3Chain.Chain
open B3Chain.Consensus
open B3Chain.Tree

/-- `DeriveTarget`. -/
def deriveTarget (nBits : Nat) (powLimit : ArithUint256) :
    Option ArithUint256 :=
  let compact := setCompact nBits
  if compact.negative || compact.target.equalTo 0 || compact.overflow ||
      compact.target.gt powLimit then none
  else some compact.target

/-! ## Retargeting -/

/-- The walk back to the last block without the minimum difficulty. -/
def lastNonSpecial (interval limitBits : Nat) : CBlockIndex → CBlockIndex
  | .root header => .root header
  | .child parent header =>
    if CBlockIndex.nHeight (.child parent header) % interval ≠ 0 ∧
        header.nBits = limitBits then
      lastNonSpecial interval limitBits parent
    else .child parent header

/-- `CalculateNextWorkRequired`; `none` models a failed assertion or a
division by zero. -/
def calculateNextWorkRequired (pindexLast : CBlockIndex)
    (nFirstBlockTime : Int) (params : Params) : Option Nat :=
  if params.fPowNoRetargeting then some (CBlockIndex.nBits pindexLast)
  else do
    let timespan : Int := params.nPowTargetTimespan
    let elapsed := CBlockIndex.getBlockTime pindexLast - nFirstBlockTime
    let raised := if elapsed < timespan / 4 then timespan / 4 else elapsed
    let nActualTimespan :=
      if raised > timespan * 4 then timespan * 4 else raised
    let base ←
      if params.enforceBIP94 then
        CBlockIndex.getAncestor pindexLast
          (CBlockIndex.nHeight pindexLast -
            (params.difficultyAdjustmentInterval - 1))
      else some pindexLast
    let bnOld := (setCompact (CBlockIndex.nBits base)).target
    let scaled := bnOld.mulUint32 (toUint64 nActualTimespan % 2 ^ 32)
    let bnNew ← scaled.div (.ofUint64 params.nPowTargetTimespan)
    return getCompact
      (if bnNew.gt params.powLimit then params.powLimit else bnNew)

/-- The block came more than two spacings after its parent. -/
def arrivesLate (pindexLast : CBlockIndex) (pblock : CBlockHeader)
    (params : Params) : Bool :=
  decide ((pblock.nTime : Int) >
    CBlockIndex.getBlockTime pindexLast + params.nPowTargetSpacing * 2)

/-- The early difficulty guard: a quarter more target after a late block. -/
def earlyGuardBits (pindexLast : CBlockIndex) (params : Params) : Nat :=
  let bnOld := (setCompact (CBlockIndex.nBits pindexLast)).target
  let bnNew := bnOld.add (bnOld.shiftRight 2)
  getCompact (if bnNew.gt params.powLimit then params.powLimit else bnNew)

/-- The legacy retarget of regtest. -/
def legacyNextWork (pindexLast : CBlockIndex) (pblock : CBlockHeader)
    (params : Params) : Option Nat :=
  let nProofOfWorkLimit := getCompact params.powLimit
  let interval := params.difficultyAdjustmentInterval
  if (CBlockIndex.nHeight pindexLast + 1) % interval ≠ 0 then
    if params.fPowAllowMinDifficultyBlocks then
      if arrivesLate pindexLast pblock params then some nProofOfWorkLimit
      else
        some (CBlockIndex.nBits
          (lastNonSpecial interval nProofOfWorkLimit pindexLast))
    else some (CBlockIndex.nBits pindexLast)
  else do
    let pindexFirst ←
      CBlockIndex.getAncestor pindexLast
        (CBlockIndex.nHeight pindexLast - (interval - 1))
    calculateNextWorkRequired pindexLast
      (CBlockIndex.getBlockTime pindexFirst) params

/-- `GetNextWorkRequired`. -/
def getNextWorkRequired (pindexLast : CBlockIndex) (pblock : CBlockHeader)
    (params : Params) : Option Nat :=
  if params.nEarlyDifficultyGuardHeight > 0 ∧
      CBlockIndex.nHeight pindexLast + 1 ≤
        params.nEarlyDifficultyGuardHeight ∧
      arrivesLate pindexLast pblock params then
    some (earlyGuardBits pindexLast params)
  else if params.useLwma3 then
    if params.fPowNoRetargeting then some (CBlockIndex.nBits pindexLast)
    else if params.fPowAllowMinDifficultyBlocks &&
        arrivesLate pindexLast pblock params then
      some (getCompact params.powLimit)
    else calculateLwma3Target pindexLast params
  else legacyNextWork pindexLast pblock params

/-! ## Decodable targets -/

/-- What `DeriveTarget` asks of a compact value. -/
structure Decodable (limit nBits : Nat) : Prop where
  nonnegative : compactNegative nBits = false
  fits : compactOverflow nBits = false
  nonzero : decodeTarget nBits ≠ 0
  bounded : decodeTarget nBits ≤ limit

theorem deriveTarget_of_decodable
    {powLimit : ArithUint256} {nBits : Nat}
    (decodable : Decodable powLimit.toNat nBits) :
    ∃ target,
      deriveTarget nBits powLimit = some target ∧
        target.toNat = decodeTarget nBits := by
  have nonzero : (setCompact nBits).target.equalTo 0 = false := by
    rw [← Bool.not_eq_true, ArithUint256.equalTo_iff _ _ (by norm_num),
      toNat_setCompact]
    exact decodable.nonzero
  have bounded : (setCompact nBits).target.gt powLimit = false := by
    rw [← Bool.not_eq_true, ArithUint256.gt_iff, toNat_setCompact]
    exact Nat.not_lt.mpr decodable.bounded
  refine ⟨(setCompact nBits).target, ?_, toNat_setCompact nBits⟩
  rw [deriveTarget]
  simp only [setCompact_negative, setCompact_overflow,
    decodable.nonnegative, decodable.fits, nonzero, bounded, Bool.or_self,
    Bool.false_eq_true, if_false]

/-- Every nonzero target within the limit encodes to a decodable value. -/
theorem decodable_encodeTarget
    {limit target : Nat} (limitBounded : limit < 2 ^ 256)
    (nonzero : target ≠ 0) (bounded : target ≤ limit) :
    Decodable limit (encodeTarget target) where
  nonnegative := compactNegative_encodeTarget target
  fits := compactOverflow_encodeTarget (by omega)
  nonzero := by
    rw [decodeTarget_encodeTarget (by omega)]
    exact roundTarget_ne_zero nonzero
  bounded := by
    rw [decodeTarget_encodeTarget (by omega)]
    exact le_trans (roundTarget_le target) bounded

theorem decodable_getCompact
    (network : Network) {number : ArithUint256}
    (nonzero : number.toNat ≠ 0)
    (bounded : number.toNat ≤ network.powLimitNat) :
    Decodable network.powLimitNat (getCompact number) := by
  rw [getCompact_eq]
  exact decodable_encodeTarget network.powLimitNat_lt nonzero bounded

theorem decodable_powLimit (network : Network) :
    Decodable network.powLimitNat (getCompact network.params.powLimit) :=
  decodable_getCompact network
    (by rw [Network.toNat_powLimit]; exact network.powLimitNat_ne_zero)
    (by rw [Network.toNat_powLimit])

theorem decodable_genesis (network : Network) :
    Decodable network.powLimitNat network.genesisBits := by
  cases network <;>
    exact ⟨by decide +revert, by decide +revert, by decide +revert,
      by decide +revert⟩

/-! ## Each branch returns a decodable value -/

/-- The guard adds a quarter and cuts at the limit; the sum never wraps, since
the old target is within the limit. -/
theorem decodable_earlyGuardBits
    {network : Network} (guarded : network.params.useLwma3 = true)
    {pindexLast : CBlockIndex}
    (previous : Decodable network.powLimitNat
      (CBlockIndex.nBits pindexLast)) :
    Decodable network.powLimitNat
      (earlyGuardBits pindexLast network.params) := by
  have limit : network.powLimitNat < 2 ^ 240 := by
    cases network with
    | regtest enforceBip94 => cases guarded
    | _ => norm_num [Network.powLimitNat]
  have nonzero := previous.nonzero
  have bounded := previous.bounded
  have sum :
      ((setCompact (CBlockIndex.nBits pindexLast)).target.add
          ((setCompact (CBlockIndex.nBits pindexLast)).target.shiftRight
            2)).toNat =
        decodeTarget (CBlockIndex.nBits pindexLast) +
          decodeTarget (CBlockIndex.nBits pindexLast) / 4 := by
    rw [ArithUint256.toNat_add, ArithUint256.toNat_shiftRight,
      toNat_setCompact]
    exact Nat.mod_eq_of_lt (by omega)
  rw [earlyGuardBits]
  split_ifs with above
  · exact decodable_powLimit network
  · rw [ArithUint256.gt_iff, Network.toNat_powLimit] at above
    exact decodable_getCompact network (by omega) (by omega)

/-- The clamps of LWMA-3 leave a decodable value, wrapped or not. -/
theorem decodable_lwma3
    (network : Network) (pindexLast : CBlockIndex) :
    ∃ bits,
      calculateLwma3Target pindexLast network.params = some bits ∧
        Decodable network.powLimitNat bits := by
  rcases Nat.eq_zero_or_pos (CBlockIndex.nHeight pindexLast) with
    genesis | several
  · refine ⟨_, calculateLwma3Target_genesis genesis network.params, ?_⟩
    rw [← getCompact_eq]
    exact decodable_powLimit network
  · refine ⟨_, calculateLwma3Target_eq several (network_spacing_pos network)
      (network_narrow network), ?_⟩
    have floor := floorTarget_le network.params pindexLast
    have positive := network.powLimitNat_ne_zero
    rw [Network.toNat_powLimit] at floor
    exact decodable_encodeTarget network.powLimitNat_lt (by omega) (by omega)

theorem lastNonSpecial_le
    (interval limitBits : Nat) (index : CBlockIndex) :
    lastNonSpecial interval limitBits index ≤ index := by
  induction index with
  | root header => exact le_rfl
  | child parent header induction =>
    rw [lastNonSpecial]
    split_ifs
    · exact Branch.le_child_of_le induction header
    · exact le_rfl

/-- Regtest never retargets, so its legacy branch repeats an earlier value. -/
theorem decodable_legacy_regtest
    (enforceBip94 : Bool) {pindexLast : CBlockIndex}
    (previous : ∀ block : CBlockIndex, block ≤ pindexLast →
      Decodable (Network.regtest enforceBip94).powLimitNat
        (CBlockIndex.nBits block))
    (pblock : CBlockHeader) :
    ∃ bits,
      legacyNextWork pindexLast pblock
          (Network.regtest enforceBip94).params = some bits ∧
        Decodable (Network.regtest enforceBip94).powLimitNat bits := by
  rw [legacyNextWork]
  by_cases boundary :
      (CBlockIndex.nHeight pindexLast + 1) %
          (Network.regtest enforceBip94).params.difficultyAdjustmentInterval =
        0
  · obtain ⟨first, found⟩ :=
      Branch.exists_ancestorAt
        (Nat.sub_le (Branch.height pindexLast)
          ((Network.regtest
            enforceBip94).params.difficultyAdjustmentInterval - 1))
    refine ⟨CBlockIndex.nBits pindexLast, ?_, previous pindexLast le_rfl⟩
    rw [if_neg (by simp [boundary]), CBlockIndex.getAncestor,
      CBlockIndex.nHeight, found]
    rfl
  · rw [if_pos boundary, if_pos (show
      (Network.regtest enforceBip94).params.fPowAllowMinDifficultyBlocks =
        true from rfl)]
    split_ifs with late
    · exact ⟨_, rfl, decodable_powLimit _⟩
    · exact ⟨_, rfl, previous _ (lastNonSpecial_le _ _ pindexLast)⟩

/-- One step of an honest chain: after decodable blocks the required value is
defined and decodable, whatever the time of the next block. -/
theorem decodable_getNextWorkRequired
    (network : Network) {pindexLast : CBlockIndex}
    (previous : ∀ block : CBlockIndex, block ≤ pindexLast →
      Decodable network.powLimitNat (CBlockIndex.nBits block))
    (pblock : CBlockHeader) :
    ∃ bits,
      getNextWorkRequired pindexLast pblock network.params = some bits ∧
        Decodable network.powLimitNat bits := by
  rw [getNextWorkRequired]
  cases lwma : network.params.useLwma3 with
  | false =>
    obtain ⟨enforceBip94, rfl⟩ :
        ∃ enforceBip94, network = .regtest enforceBip94 := by
      cases network with
      | regtest enforceBip94 => exact ⟨enforceBip94, rfl⟩
      | _ => cases lwma
    rw [if_neg (fun guard => Nat.lt_irrefl 0 guard.1),
      if_neg Bool.false_ne_true]
    exact decodable_legacy_regtest enforceBip94 previous pblock
  | true =>
    rw [if_pos (rfl : true = true)]
    split_ifs with guard fixed late
    · exact ⟨_, rfl,
        decodable_earlyGuardBits lwma (previous pindexLast le_rfl)⟩
    · exact ⟨_, rfl, previous pindexLast le_rfl⟩
    · exact ⟨_, rfl, decodable_powLimit network⟩
    · exact decodable_lwma3 network pindexLast

/-! ## Honest chains -/

/-- The chain starts at the network's genesis `nBits` and every later header
carries the required ones. -/
def HonestChain (network : Network) : CBlockIndex → Prop
  | .root header => header.nBits = network.genesisBits
  | .child parent header =>
    HonestChain network parent ∧
      getNextWorkRequired parent header network.params = some header.nBits

theorem decodable_of_honest
    {network : Network} {chain : CBlockIndex}
    (honest : HonestChain network chain) :
    ∀ block : CBlockIndex, block ≤ chain →
      Decodable network.powLimitNat (CBlockIndex.nBits block) := by
  induction chain with
  | root header =>
    intro block below
    rw [(Branch.le_root_iff _ _).mp below]
    change Decodable network.powLimitNat header.nBits
    rw [show header.nBits = network.genesisBits from honest]
    exact decodable_genesis network
  | child parent header induction =>
    obtain ⟨honestParent, required⟩ := honest
    intro block below
    rcases (Branch.le_child_iff _ _ _).mp below with top | lower
    · obtain ⟨bits, computed, decodable⟩ :=
        decodable_getNextWorkRequired network (induction honestParent)
          header
      rw [required, Option.some_inj] at computed
      rw [top, CBlockIndex.nBits_child, computed]
      exact decodable
    · exact induction honestParent block lower

/-- On every shipped network, `DeriveTarget` accepts the `nBits` of each header
of an honest chain, and the chain can always be continued. -/
theorem honest_chain_stays_decodable
    (network : Network) (chain : CBlockIndex)
    (honest : HonestChain network chain) :
    (∀ block : CBlockIndex, block ≤ chain →
      compactNegative (CBlockIndex.nBits block) = false ∧
        compactOverflow (CBlockIndex.nBits block) = false ∧
        ∃ target,
          deriveTarget (CBlockIndex.nBits block) network.params.powLimit =
              some target ∧
            target.toNat = decodeTarget (CBlockIndex.nBits block) ∧
            target.toNat ≠ 0 ∧
            target.toNat ≤ network.powLimitNat) ∧
      ∀ pblock : CBlockHeader,
        ∃ bits,
          getNextWorkRequired chain pblock network.params = some bits := by
  have decodable := decodable_of_honest honest
  constructor
  · intro block below
    have accepted := decodable block below
    have withinLimit :
        Decodable network.params.powLimit.toNat
          (CBlockIndex.nBits block) := by
      rw [Network.toNat_powLimit]
      exact accepted
    obtain ⟨target, derived, value⟩ := deriveTarget_of_decodable withinLimit
    refine ⟨accepted.nonnegative, accepted.fits, target, derived, value,
      ?_, ?_⟩
    · rw [value]
      exact accepted.nonzero
    · rw [value]
      exact accepted.bounded
  · intro pblock
    obtain ⟨bits, computed, _⟩ :=
      decodable_getNextWorkRequired network decodable pblock
    exact ⟨bits, computed⟩

/-- Two mainnet blocks that follow the rule. -/
theorem honest_mainnet_start_decodable :
    ∃ target,
      deriveTarget 0x1d7fffff Network.main.params.powLimit =
        some target := by
  have honest :
      HonestChain .main
        (.child (.root mainGenesis) ⟨1, 0, 1739146200, 0x1d7fffff, 0⟩) := by
    refine ⟨rfl, ?_⟩
    -- Mainnet is past the early guard and takes the new rule.
    rw [getNextWorkRequired, if_neg (by decide), if_pos (by decide),
      if_neg (by decide), if_neg (by decide),
      calculateLwma3Target_genesis rfl, Network.toNat_powLimit]
    decide
  obtain ⟨_, _, target, derived, _⟩ :=
    (honest_chain_stays_decodable .main _ honest).1 _ le_rfl
  exact ⟨target, derived⟩

end B3Chain.Pow
