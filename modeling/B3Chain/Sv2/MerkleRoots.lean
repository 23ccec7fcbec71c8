import B3Chain.Sv2.Jobs
import B3Chain.Sv2.TpPoller

/-!
# The merkle roots of the pool and the node

The node hashes a whole list of transaction ids level by level.  The pool keeps
the branch of the coinbase, as texts with the bytes reversed; the template
provider keeps it as bytes.  All of them compute one root.
-/

namespace B3Chain.Sv2

open Words
open Stratum (Hashes computeMerkleRoot computeMerkleBranches setBytes)

/-! ## The node -/

/-- `SHA256D64`: the double hashes of consecutive pairs. -/
def sha256D64 (hashes : Hashes) : List (List Byte) → List (List Byte)
  | left :: right :: rest =>
    hashes.sha256d (left ++ right) :: sha256D64 hashes rest
  | _ => []

/-- The loop of `ComputeMerkleRoot`, which returns the first hash left. -/
def merkleLoop (hashes : Hashes) : Nat → List (List Byte) → List Byte
  | 0, level => level.headD (List.replicate 32 0)
  | rounds + 1, level =>
    if level.length > 1 then
      let even :=
        if level.length % 2 = 1 then level ++ level.getLast?.toList
        else level
      merkleLoop hashes rounds (sha256D64 hashes even)
    else level.headD (List.replicate 32 0)

/-- `ComputeMerkleRoot`; each level is shorter than the one before. -/
def nodeMerkleRoot (hashes : Hashes) (leaves : List (List Byte)) :
    List Byte :=
  merkleLoop hashes leaves.length leaves

/-! ## Nodes of the tree -/

/-- A hash of 32 bytes. -/
abbrev Digest := { bytes : List Byte // bytes.length = 32 }

variable (hashes : Hashes)

/-- The hash over two nodes. -/
def Digest.pair (left right : Digest) : Digest :=
  ⟨hashes.sha256d (left.1 ++ right.1), hashes.length_sha256d _⟩

/-- The text of a hash in a template. -/
def Digest.display (digest : Digest) : JsString :=
  JsString.bytesToHex digest.1.reverse

theorem sha256D64_eq (level : List Digest) :
    sha256D64 hashes
        (if (level.map Subtype.val).length % 2 = 1 then
          level.map Subtype.val ++ (level.map Subtype.val).getLast?.toList
        else level.map Subtype.val) =
      (Tree.pairUp (Digest.pair hashes) level).map Subtype.val := by
  induction level using Tree.pairUp.induct with
  | case1 => rfl
  | case2 last => rfl
  | case3 left right rest induction =>
    have parity : (rest.length + 1 + 1) % 2 = rest.length % 2 := by omega
    simp only [List.map_cons, List.length_cons, List.length_map, parity,
      Tree.pairUp] at induction ⊢
    split_ifs at induction ⊢ with odd
    · have nonempty : rest.map Subtype.val ≠ [] := by
        rintro empty
        rw [List.map_eq_nil_iff.mp empty] at odd
        cases odd
      rw [List.getLast?_cons_cons, List.getLast?_cons_of_ne_nil nonempty,
        List.cons_append, List.cons_append, sha256D64, induction]
      rfl
    · rw [sha256D64, induction]
      rfl

theorem merkleLoop_eq (rounds : Nat) (first : Digest) (rest : List Digest) :
    merkleLoop hashes rounds (first.1 :: rest.map Subtype.val) =
      (Tree.rootOf (Digest.pair hashes) rounds first rest).1 := by
  induction rounds generalizing first rest with
  | zero => rfl
  | succ rounds induction =>
    cases rest with
    | nil => rfl
    | cons sibling rest =>
      have level := sha256D64_eq hashes (first :: sibling :: rest)
      rw [merkleLoop, if_pos (by simp)]
      simp only [List.map_cons] at level ⊢
      rw [level]
      exact induction (Digest.pair hashes first sibling) _

/-! ## Copies into a buffer -/

theorem setBytes_both (left right : Digest) :
    (setBytes (List.replicate 64 0) 0 left.1).bind
        (fun buf => setBytes buf 32 right.1) =
      .ok (left.1 ++ right.1) := by
  obtain ⟨left, leftSize⟩ := left
  obtain ⟨right, rightSize⟩ := right
  rw [setBytes, List.length_replicate, leftSize, if_neg (by decide)]
  dsimp only [Except.bind]
  rw [setBytes, if_neg (by simp [leftSize, rightSize])]
  simp [leftSize, rightSize]

theorem combineNodes_eq (left right : Digest) :
    combineNodes hashes left.1 right.1 =
      .ok (Digest.pair hashes left right).1 := by
  have both := setBytes_both left right
  obtain ⟨buf, first, second⟩ := Machine.bind_eq_ok_iff.mp both
  rw [combineNodes, first]
  dsimp only [bind, Except.bind]
  rw [second]
  rfl

theorem combineHashesBE_eq (left right : Digest) :
    Stratum.combineHashesBE hashes left.display right.display =
      .ok (Digest.pair hashes left right).display := by
  have both := setBytes_both left right
  obtain ⟨buf, first, second⟩ := Machine.bind_eq_ok_iff.mp both
  rw [Stratum.combineHashesBE, Digest.display, Digest.display,
    JsString.hexToBytes_bytesToHex, JsString.hexToBytes_bytesToHex]
  dsimp only [bind, Except.bind]
  rw [List.reverse_reverse, List.reverse_reverse, first]
  dsimp only
  rw [second]
  rfl

/-! ## Branches -/

theorem combinePairs_eq (level : List JsString) :
    Stratum.combinePairs hashes level =
      Tree.tryPairUp (Stratum.combineHashesBE hashes) level := by
  induction level using Stratum.combinePairs.induct with
  | case1 => rfl
  | case2 last => rfl
  | case3 left right rest induction =>
    rw [Stratum.combinePairs, Tree.tryPairUp, induction]

theorem branchLevels_eq (rounds : Nat) (level : List JsString) :
    Stratum.branchLevels hashes rounds level =
      Tree.tryBranchOf (Stratum.combineHashesBE hashes) rounds level := by
  induction rounds generalizing level with
  | zero => rfl
  | succ rounds induction =>
    cases level with
    | nil => rfl
    | cons sibling rest =>
      simp only [Stratum.branchLevels, Tree.tryBranchOf, combinePairs_eq,
        induction]

/-- The pool's branches are those of the tree. -/
theorem computeMerkleBranches_eq (txids : List Digest) :
    computeMerkleBranches hashes (txids.map Digest.display) =
      .ok ((Tree.branchOf (Digest.pair hashes) txids.length txids).map
        Digest.display) := by
  rw [computeMerkleBranches, branchLevels_eq, List.length_map,
    Tree.tryBranchOf_map _ (combineHashesBE_eq hashes)]

/-- So is the path of the template provider. -/
theorem merklePathFromTxids_eq (txids : List Digest) :
    merklePathFromTxids hashes (txids.map Digest.display) =
      .ok ((Tree.branchOf (Digest.pair hashes) txids.length txids).map
        Subtype.val) := by
  have read : (txids.map Digest.display).mapM (fun txid =>
      (JsString.hexToBytes txid).map List.reverse) =
        Except.ok (txids.map Subtype.val) := by
    induction txids with
    | nil => rfl
    | cons digest rest induction =>
      rw [List.map_cons, List.mapM_cons, induction, Digest.display,
        JsString.hexToBytes_bytesToHex]
      simp only [Except.map, List.reverse_reverse]
      rfl
  rw [merklePathFromTxids, read]
  dsimp only [bind, Except.bind]
  rw [List.length_map, Tree.tryBranchOf_map _ (combineNodes_eq hashes)]

/-! ## Folds -/

theorem computeMerkleRoot_fold (first : Digest) (branches : List Digest) :
    computeMerkleRoot hashes first.1 (branches.map Digest.display) =
      .ok (branches.foldl (Digest.pair hashes) first).1 := by
  induction branches generalizing first with
  | nil => rfl
  | cons sibling rest induction =>
    have combined : Stratum.combineBranch hashes first.1 sibling.1 =
        .ok (Digest.pair hashes first sibling).1 := by
      rw [Stratum.combineBranch, sibling.2, if_neg (by decide), Nat.sub_self,
        List.replicate_zero, List.append_nil]
      rfl
    rw [List.map_cons, computeMerkleRoot, Digest.display,
      JsString.hexToBytes_bytesToHex]
    dsimp only [bind, Except.bind]
    rw [List.reverse_reverse, combined]
    exact induction (Digest.pair hashes first sibling)

theorem foldPath_fold (first : Digest) (path : List Digest) :
    foldPath hashes first.1 (path.map Subtype.val) =
      .ok (path.foldl (Digest.pair hashes) first).1 := by
  induction path generalizing first with
  | nil => rfl
  | cons sibling rest induction =>
    rw [List.map_cons, foldPath, combineNodes_eq]
    exact induction (Digest.pair hashes first sibling)

/--
For every coinbase and every list of other transaction ids, the branches of the
pool folded by the share validator and by the jobs of the second protocol, and
the path of the template provider folded by its server, give the root that the
node computes for the whole list.
-/
theorem merkle_roots_agree (coinbaseTx : List Byte) (txids : List Digest) :
    let root := nodeMerkleRoot hashes
      (hashes.sha256d coinbaseTx :: txids.map Subtype.val)
    (computeMerkleBranches hashes (txids.map Digest.display)).bind
        (computeMerkleRoot hashes (hashes.sha256d coinbaseTx)) = .ok root ∧
      (merklePathFromTxids hashes (txids.map Digest.display)).bind
        (reconstructMerkleRoot hashes coinbaseTx) = .ok root ∧
      (computeMerkleBranches hashes (txids.map Digest.display)).bind
        (computeMerkleRootLE hashes (hashes.sha256d coinbaseTx)) =
          .ok root := by
  intro root
  obtain ⟨first, named⟩ : ∃ first : Digest,
      first.1 = hashes.sha256d coinbaseTx :=
    ⟨⟨_, hashes.length_sha256d coinbaseTx⟩, rfl⟩
  have whole : root = ((Tree.branchOf (Digest.pair hashes) txids.length
      txids).foldl (Digest.pair hashes) first).1 := by
    rw [Tree.foldl_branchOf, ← Tree.rootOf_succ _ _ le_rfl]
    have loop := merkleLoop_eq hashes (txids.length + 1) first txids
    rw [named] at loop
    rw [← loop]
    simp only [root, nodeMerkleRoot, List.length_cons, List.length_map]
  have folded : (computeMerkleBranches hashes
      (txids.map Digest.display)).bind
        (computeMerkleRoot hashes (hashes.sha256d coinbaseTx)) =
          .ok root := by
    rw [computeMerkleBranches_eq, ← named, whole]
    exact computeMerkleRoot_fold hashes first _
  refine ⟨folded, ?_, folded⟩
  rw [merklePathFromTxids_eq, whole]
  dsimp only [Except.bind]
  rw [reconstructMerkleRoot, ← named]
  exact foldPath_fold hashes first _

end B3Chain.Sv2
