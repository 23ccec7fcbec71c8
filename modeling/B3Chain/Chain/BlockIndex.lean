import B3Chain.Arith.Compact
import B3Chain.Tree.Branch

/-!
# Block index entries

A `CBlockIndex` entry is reached from its descendants through `pprev`; its
height, its ancestors and its chain work are fixed by the headers on the way
from genesis.  An entry is therefore modelled as that branch of headers.
Distinct entries have distinct branches: the header hash that identifies an
entry in `m_block_index` is taken to be free of collisions.
-/

namespace B3Chain.Chain

open B3Chain.Arith
open B3Chain.Tree

/-- `CBlockHeader` without `hashPrevBlock`, which the branch records. -/
structure CBlockHeader where
  nVersion : Nat
  hashMerkleRoot : Nat
  nTime : Nat
  nBits : Nat
  nNonce : Nat
deriving DecidableEq, Repr

/-- A block index entry with everything that never changes about it. -/
abbrev CBlockIndex :=
  Branch CBlockHeader

instance lawfulBEqCBlockIndex : LawfulBEq CBlockIndex :=
  inferInstance

namespace CBlockIndex

/-- The `nBits` field of an entry. -/
def nBits (index : CBlockIndex) : Nat :=
  (Branch.label index).nBits

/-- `GetBlockTime`: the header time as a signed 64-bit number. -/
def getBlockTime (index : CBlockIndex) : Int :=
  (Branch.label index).nTime

/-- The parent entry. -/
def pprev (index : CBlockIndex) : Option CBlockIndex :=
  Branch.parent? index

/-- The height of an entry. -/
def nHeight (index : CBlockIndex) : Nat :=
  Branch.height index

/-- `GetAncestor`; the skip list is an index into the same branch. -/
def getAncestor (index : CBlockIndex) (height : Nat) :
    Option CBlockIndex :=
  Branch.ancestorAt height index

@[simp]
theorem nBits_child (index : CBlockIndex) (header : CBlockHeader) :
    nBits (Branch.child index header) = header.nBits :=
  rfl

@[simp]
theorem nHeight_child (index : CBlockIndex) (header : CBlockHeader) :
    nHeight (Branch.child index header) = nHeight index + 1 :=
  rfl

end CBlockIndex

/-! ## Work -/

/-- The expected number of hashes for a compact target. -/
def blockProof (nBits : Nat) : Nat :=
  if compactNegative nBits || compactOverflow nBits ||
      decodeTarget nBits == 0 then 0
  else 2 ^ 256 / (decodeTarget nBits + 1)

/-- `nChainWork`: accumulated when an entry is added to the index. -/
def CBlockIndex.nChainWork : CBlockIndex → Nat
  | .root header => blockProof header.nBits
  | .child parent header =>
    (nChainWork parent + blockProof header.nBits) % 2 ^ 256

end B3Chain.Chain
