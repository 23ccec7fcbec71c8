import B3Chain.Stratum.JobManager
import B3Chain.Tree.Merkle

/-!
# Templates of the template provider

`buildBundle` of `sv2/tp/poller.ts` makes a template for miners that build
their own blocks: the coinbase up to the extranonce, its outputs, and the
merkle path of the coinbase.  The other fields of its messages are copied from
the node's template and are not read here.
-/

namespace B3Chain.Sv2

open Words
open Stratum

/-! ## The coinbase -/

/-- `scriptNumPush`, which takes every number for a positive one. -/
def tpScriptNumPush (n : Int) : List Byte :=
  if n = 0 then [0]
  else
    let bytes := signed false (heightBytes 5 n.natAbs)
    BitVec.ofNat 8 bytes.length :: bytes

/-- `tagPush`. -/
def tpTagPush : List Byte :=
  let tag := "/B3Chain Pool SV2/".toList.map fun letter =>
    BitVec.ofNat 8 letter.toNat
  BitVec.ofNat 8 tag.length :: tag

/-- `coinbasePrefix`. -/
def coinbasePrefix (height : Int) : List Byte :=
  let heightPush := tpScriptNumPush height
  let prevout := List.replicate 32 0 ++ List.replicate 4 0xff
  let scriptSigLen := heightPush.length + 8 + tpTagPush.length
  leBytes 4 1 ++ [1] ++ prevout ++ varInt scriptSigLen ++ heightPush

/-! ## The merkle path -/

/-- The double hash over two nodes. -/
def combineNodes (hashes : Hashes) (left right : List Byte) :
    Except String (List Byte) := do
  let buf ← setBytes (List.replicate 64 0) 0 left
  let both ← setBytes buf 32 right
  return hashes.sha256d both

/-- `merklePathFromTxids`. -/
def merklePathFromTxids (hashes : Hashes) (txidsHexBE : List JsString) :
    Except String (List (List Byte)) := do
  let txids ← txidsHexBE.mapM fun txid =>
    (JsString.hexToBytes txid).map List.reverse
  Tree.tryBranchOf (combineNodes hashes) txids.length txids

/-- `reconstructMerkleRoot` from the id of the coinbase on. -/
def foldPath (hashes : Hashes) :
    List Byte → List (List Byte) → Except String (List Byte)
  | cur, [] => .ok cur
  | cur, sib :: rest => do
      let next ← combineNodes hashes cur sib
      foldPath hashes next rest

/-- `reconstructMerkleRoot`. -/
def reconstructMerkleRoot (hashes : Hashes) (coinbaseTx : List Byte)
    (merklePath : List (List Byte)) : Except String (List Byte) :=
  foldPath hashes (hashes.sha256d coinbaseTx) merklePath

/-! ## The template -/

/-- The fields of `TpTemplateBundle` that are built from the template. -/
structure TpTemplateBundle where
  coinbasePrefix : List Byte
  coinbaseTxOutputs : List Byte
  merklePath : List (List Byte)
  transactionList : List (List Byte)

/-- `buildBundle`. -/
def buildBundle (hashes : Hashes) (payoutScript : Option (List Byte))
    (tpl : Template) : Except String TpTemplateBundle :=
  match payoutScript with
  | none => .error "B3POOL_PAYOUT_ADDRESS invalid"
  | some spk => do
      let vouts ← coinbaseOutputs tpl spk
      let transactionList ← tpl.transactions.mapM fun tx =>
        JsString.hexToBytes tx.data
      let merklePath ← merklePathFromTxids hashes
        (tpl.transactions.map fun tx => tx.txid.getD tx.hash)
      return {
        coinbasePrefix := Sv2.coinbasePrefix tpl.height
        coinbaseTxOutputs := vouts.flatten
        merklePath
        transactionList }

end B3Chain.Sv2
