import B3Chain.Arith.Compact

/-!
# Consensus parameters of the shipped networks

The fields of `Consensus::Params` that difficulty adjustment, proof-of-work
verification and the reorganisation rules read, with the defaults of the
struct and the values each network class sets.
-/

namespace B3Chain.Consensus

open B3Chain.Arith

/-- `Consensus::Params`, restricted to the fields read by the model. -/
structure Params where
  powLimit : ArithUint256
  fPowAllowMinDifficultyBlocks : Bool
  enforceBIP94 : Bool
  fPowNoRetargeting : Bool
  nPowTargetSpacing : Nat
  nPowTargetTimespan : Nat
  nEarlyDifficultyGuardHeight : Nat := 0
  b3powVerifyBudgetMs : Int := 50
  useLwma3 : Bool := false
  maxReorgDepth : Nat := 0
  signetBlocks : Bool := false
  operatingPowFloorBits : Nat := 0

/-- `DifficultyAdjustmentInterval`. -/
def Params.difficultyAdjustmentInterval (params : Params) : Nat :=
  params.nPowTargetTimespan / params.nPowTargetSpacing

/-- The chain types of `kernel/chainparams.cpp`. -/
inductive Network where
  | main
  | testnet
  | testnet4
  | signet
  | regtest (enforceBip94 : Bool)
deriving DecidableEq, Repr

namespace Network

/-- The `powLimit` constant of a network, as a number. -/
def powLimitNat : Network → Nat
  | main | testnet4 | signet =>
    0x0000007fffffffffffffffffffffffffffffffffffffffffffffffffffffffff
  | testnet =>
    0x0000ffff00000000000000000000000000000000000000000000000000000000
  | regtest _ =>
    0x7fffffffffffffffffffffffffffffffffffffffffffffffffffffffffffffff

/-- `CMainParams`. -/
def mainParams : Params where
  powLimit := .ofNat (powLimitNat main)
  nPowTargetTimespan := 14 * 24 * 60 * 60
  nPowTargetSpacing := 10 * 60
  fPowAllowMinDifficultyBlocks := false
  enforceBIP94 := true
  fPowNoRetargeting := false
  nEarlyDifficultyGuardHeight := 10000
  b3powVerifyBudgetMs := 50
  useLwma3 := true
  operatingPowFloorBits := 0x1d3fffff
  maxReorgDepth := 200

/-- `CTestNetParams`. -/
def testNetParams : Params where
  powLimit := .ofNat (powLimitNat testnet)
  nPowTargetTimespan := 14 * 24 * 60 * 60
  nPowTargetSpacing := 10 * 60
  fPowAllowMinDifficultyBlocks := true
  enforceBIP94 := true
  fPowNoRetargeting := false
  nEarlyDifficultyGuardHeight := 10000
  b3powVerifyBudgetMs := 50
  useLwma3 := true
  maxReorgDepth := 200
  operatingPowFloorBits := 0x1effff80

/-- `CTestNet4Params`. -/
def testNet4Params : Params where
  powLimit := .ofNat (powLimitNat testnet4)
  nPowTargetTimespan := 14 * 24 * 60 * 60
  nPowTargetSpacing := 10 * 60
  fPowAllowMinDifficultyBlocks := true
  enforceBIP94 := true
  fPowNoRetargeting := false
  nEarlyDifficultyGuardHeight := 10000
  b3powVerifyBudgetMs := 50
  useLwma3 := true
  maxReorgDepth := 200
  operatingPowFloorBits := 0x1d3fffff

/-- `SigNetParams`; it leaves the guard height at its default. -/
def sigNetParams : Params where
  powLimit := .ofNat (powLimitNat signet)
  nPowTargetTimespan := 14 * 24 * 60 * 60
  nPowTargetSpacing := 10 * 60
  fPowAllowMinDifficultyBlocks := false
  enforceBIP94 := true
  fPowNoRetargeting := false
  b3powVerifyBudgetMs := 50
  useLwma3 := true
  maxReorgDepth := 200
  signetBlocks := true
  operatingPowFloorBits := 0x1d3fffff

/-- `CRegTestParams`. -/
def regTestParams (enforceBip94 : Bool) : Params where
  powLimit := .ofNat (powLimitNat (regtest enforceBip94))
  nPowTargetTimespan := 24 * 60 * 60
  nPowTargetSpacing := 10 * 60
  fPowAllowMinDifficultyBlocks := true
  enforceBIP94 := enforceBip94
  fPowNoRetargeting := true
  b3powVerifyBudgetMs := 1000

/-- The consensus parameters of a network. -/
def params : Network → Params
  | main => mainParams
  | testnet => testNetParams
  | testnet4 => testNet4Params
  | signet => sigNetParams
  | regtest enforceBip94 => regTestParams enforceBip94

/-- The `nBits` argument of each network's `CreateGenesisBlock`. -/
def genesisBits : Network → Nat
  | main | testnet4 | signet => 0x1d7fffff
  | testnet => 0x1f00ffff
  | regtest _ => 0x207fffff

theorem powLimit_params (network : Network) :
    network.params.powLimit = .ofNat network.powLimitNat := by
  cases network <;> rfl

theorem powLimitNat_lt (network : Network) :
    network.powLimitNat < 2 ^ 256 := by
  cases network <;> norm_num [powLimitNat]

theorem powLimitNat_ne_zero (network : Network) :
    network.powLimitNat ≠ 0 := by
  cases network <;> norm_num [powLimitNat]

@[simp]
theorem toNat_powLimit (network : Network) :
    network.params.powLimit.toNat = network.powLimitNat := by
  rw [powLimit_params, ArithUint256.toNat_ofNat network.powLimitNat_lt]

@[simp]
theorem nPowTargetSpacing_params (network : Network) :
    network.params.nPowTargetSpacing = 600 := by
  cases network <;> rfl

end Network

end B3Chain.Consensus
