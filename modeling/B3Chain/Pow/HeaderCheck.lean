import B3Chain.Crypto.ReducedMemory
import B3Chain.Pow.NextWork

/-!
# Verifying the proof of work of a header

`CheckBlockHeaderPoW` with the serialization it hashes.  SHA-256d and BLAKE3 are
parameters.  A verification runs under a wall-clock budget that shrinks with the
depth of the header below the tip; the result is read off the hash only when no
probe of the clock has found the budget used up.

The pad that `b3pow::Cache` returns is a function of its key.  The cache itself
is modelled apart, in `B3Chain.Cache`.
-/

namespace B3Chain.Pow

open B3Chain.Arith
open B3Chain.Chain
open B3Chain.Consensus
open B3Chain.Crypto
open B3Chain.Words

/-- The hash functions the headers go through. -/
structure HashFunctions where
  blake3 : List Byte → Nat → Byte
  sha256d : Bytes 80 → Lane

/-! ## Serialized headers -/

/-- The 80 bytes of a header with the given parent hash. -/
def serializeHeader (hashPrevBlock : Lane) (header : CBlockHeader) :
    Bytes 80 :=
  let nVersion : Bytes 4 := writeLE (BitVec.ofNat _ header.nVersion)
  let hashMerkleRoot : Bytes 32 :=
    writeLE (BitVec.ofNat _ header.hashMerkleRoot)
  let nTime : Bytes 4 := writeLE (BitVec.ofNat _ header.nTime)
  let nBits : Bytes 4 := writeLE (BitVec.ofNat _ header.nBits)
  let nNonce : Bytes 4 := writeLE (BitVec.ofNat _ header.nNonce)
  Fin.append (Fin.append (Fin.append (Fin.append (Fin.append nVersion
    hashPrevBlock) hashMerkleRoot) nTime) nBits) nNonce

/-- `GetBlockHash` of an entry. -/
def getBlockHash (hashes : HashFunctions) : CBlockIndex → Lane
  | .root header => hashes.sha256d (serializeHeader (fun _ => 0) header)
  | .child parent header =>
    hashes.sha256d (serializeHeader (getBlockHash hashes parent) header)

/-- The parent hash a verification is given; null for genesis. -/
def prevBlockHash (hashes : HashFunctions) (block : CBlockIndex) : Lane :=
  match CBlockIndex.pprev block with
  | none => fun _ => 0
  | some parent => getBlockHash hashes parent

/-- The bytes that are hashed for an entry. -/
def headerBytes (hashes : HashFunctions) (block : CBlockIndex) : Bytes 80 :=
  serializeHeader (prevBlockHash hashes block) (Tree.Branch.label block)

/-- `UintToArith256`: the limbs are little-endian words. -/
def uintToArith256 (bytes : Lane) : ArithUint256 where
  pn := List.ofFn fun word : Fin 8 => (toWords bytes word).toNat
  width := by simp
  fits := by
    intro limb member
    obtain ⟨word, rfl⟩ := List.mem_ofFn.mp member
    exact (toWords bytes word).isLt

/-! ## The budget -/

/-- `HeaderDepth`. -/
inductive HeaderDepth where
  | tip
  | recent
  | deep
deriving DecidableEq, Repr

/-- The divisor of the budget at a depth; the numerator is always one. -/
def HeaderDepth.denom : HeaderDepth → Int
  | tip => 1
  | recent => 2
  | deep => 5

/-- `scaled_ms`. -/
def scaledMs (params : Params) (depth : HeaderDepth) : Int :=
  let baseMs :=
    if params.b3powVerifyBudgetMs > 0 then params.b3powVerifyBudgetMs else 0
  baseMs * 1 / depth.denom

/-- The depth class `AcceptBlockHeader` gives to a new child of `parent`. -/
def headerDepth (isInitialBlockDownload : Bool) (tip parent : CBlockIndex) :
    HeaderDepth :=
  if isInitialBlockDownload then .tip
  else
    let proposedHeight : Int := CBlockIndex.nHeight parent + 1
    let depth : Int := CBlockIndex.nHeight tip - proposedHeight
    if depth > 100 then .deep
    else if depth > 6 then .recent
    else .tip

/-! ## Verification -/

/-- `PoWResult`. -/
inductive PoWResult where
  | pass
  | fail
  | budgetExceeded
deriving DecidableEq, Repr

/-- `CheckBlockHeaderPoW` of an entry; `elapsed` is what the probes see. -/
def checkBlockHeaderPoW (hashes : HashFunctions) (params : Params)
    (block : CBlockIndex) (depth : HeaderDepth) (elapsed : Nat → Int) :
    PoWResult :=
  match deriveTarget (CBlockIndex.nBits block) params.powLimit with
  | none => .fail
  | some bnTarget =>
    let pad := initScratchpad hashes.blake3 (prevBlockHash hashes block)
    let result :=
      hash hashes.blake3 (headerBytes hashes block) pad
        (scaledMs params depth) elapsed
    match result.powHash with
    | none => .budgetExceeded
    | some powHash =>
      if result.outBudgetExceeded then .budgetExceeded
      else if (uintToArith256 powHash).gt bnTarget then .fail
      else .pass

/-- The proof-of-work hash of an entry, as an unhurried run computes it. -/
def powHash (hashes : HashFunctions) (block : CBlockIndex) : Lane :=
  finalHash hashes.blake3 (headerBytes hashes block)
    (loopState hashes.blake3 (headerBytes hashes block)
      (prevBlockHash hashes block) iterations).lanes

/-- The header has a valid target and its hash does not exceed it. -/
def MeetsTarget (hashes : HashFunctions) (params : Params)
    (block : CBlockIndex) : Prop :=
  ∃ target,
    deriveTarget (CBlockIndex.nBits block) params.powLimit = some target ∧
      (uintToArith256 (powHash hashes block)).toNat ≤ target.toNat

section Verdict

variable {hashes : HashFunctions} {params : Params} {block : CBlockIndex}
  {depth : HeaderDepth} {elapsed : Nat → Int}

/-- Within the budget the verdict does not depend on the clock. -/
theorem checkBlockHeaderPoW_of_not_overruns
    (quiet : ¬ Overruns (scaledMs params depth) elapsed) :
    checkBlockHeaderPoW hashes params block depth elapsed = .pass ↔
      MeetsTarget hashes params block := by
  rw [checkBlockHeaderPoW, MeetsTarget]
  cases target : deriveTarget (CBlockIndex.nBits block) params.powLimit with
  | none => simp
  | some bnTarget =>
    simp only [hash_of_not_overruns hashes.blake3 _ _ quiet,
      Bool.false_eq_true, if_false, Option.some_inj, exists_eq_left',
      ← powHash.eq_1]
    rw [← Nat.not_lt, ← ArithUint256.gt_iff]
    split_ifs with high
    · simp [high]
    · simp [high]

/-- Two clocks within the budget give the same verdict. -/
theorem checkBlockHeaderPoW_clock
    {other : Nat → Int}
    (quiet : ¬ Overruns (scaledMs params depth) elapsed)
    (otherQuiet : ¬ Overruns (scaledMs params depth) other) :
    checkBlockHeaderPoW hashes params block depth elapsed =
      checkBlockHeaderPoW hashes params block depth other := by
  simp only [checkBlockHeaderPoW,
    hash_of_not_overruns hashes.blake3 _ _ quiet,
    hash_of_not_overruns hashes.blake3 _ _ otherQuiet]

/-- An overrun hides whether a header with a valid target meets it. -/
theorem checkBlockHeaderPoW_of_overruns
    (overrun : Overruns (scaledMs params depth) elapsed)
    (meets : MeetsTarget hashes params block) :
    checkBlockHeaderPoW hashes params block depth elapsed =
      .budgetExceeded := by
  obtain ⟨target, derived, _⟩ := meets
  rw [checkBlockHeaderPoW, derived]
  simp only [hash_of_overruns hashes.blake3 _ _ overrun]

end Verdict

end B3Chain.Pow
