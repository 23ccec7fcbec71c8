import Mathlib

/-!
# Merkle trees with a repeated last node

The nodes of a level are combined in pairs, and a last one without a partner is
combined with itself.  The branch of the first leaf holds its sibling at each
level; folding the branch over the first leaf gives the root of the whole tree.
The checked operations work on texts of the nodes and may fail; on the texts of
proper nodes they do what the plain ones do on the nodes.
-/

namespace B3Chain.Tree

universe u v

variable {Node : Type u} (pair : Node → Node → Node)

/-- The next level. -/
def pairUp : List Node → List Node
  | [] => []
  | [last] => [pair last last]
  | left :: right :: rest => pair left right :: pairUp rest

/-- The root over a first leaf and the others, in so many levels. -/
def rootOf : Nat → Node → List Node → Node
  | 0, first, _ => first
  | _ + 1, first, [] => first
  | levels + 1, first, sibling :: rest =>
    rootOf levels (pair first sibling) (pairUp pair rest)

/-- The siblings of the first leaf, which is left out of the levels. -/
def branchOf : Nat → List Node → List Node
  | 0, _ => []
  | _ + 1, [] => []
  | levels + 1, sibling :: rest =>
    sibling :: branchOf levels (pairUp pair rest)

theorem length_pairUp_le (nodes : List Node) :
    (pairUp pair nodes).length ≤ nodes.length := by
  induction nodes using pairUp.induct with
  | case1 => exact le_rfl
  | case2 last => exact le_rfl
  | case3 left right rest induction =>
    rw [pairUp, List.length_cons, List.length_cons, List.length_cons]
    omega

/-- As many levels as there are other leaves are enough. -/
theorem rootOf_succ {levels : Nat} (first : Node) {rest : List Node}
    (enough : rest.length ≤ levels) :
    rootOf pair (levels + 1) first rest = rootOf pair levels first rest := by
  induction levels generalizing first rest with
  | zero =>
    cases List.length_eq_zero_iff.mp (Nat.le_zero.mp enough)
    rfl
  | succ levels induction =>
    cases rest with
    | nil => rfl
    | cons sibling rest =>
      have fewer := (length_pairUp_le pair rest).trans
        (Nat.le_of_succ_le_succ enough)
      exact induction (pair first sibling) fewer

/-- The branch of the first leaf folds to the root. -/
theorem foldl_branchOf (levels : Nat) (first : Node) (rest : List Node) :
    (branchOf pair levels rest).foldl pair first =
      rootOf pair levels first rest := by
  induction levels generalizing first rest with
  | zero => rfl
  | succ levels induction =>
    cases rest with
    | nil => rfl
    | cons sibling rest => exact induction (pair first sibling) _

/-! ## Checked operations -/

section Checked

variable {Text : Type v} (combine : Text → Text → Except String Text)

/-- The next level, if all pairs can be combined. -/
def tryPairUp : List Text → Except String (List Text)
  | [] => .ok []
  | [last] => do
      let node ← combine last last
      return [node]
  | left :: right :: rest => do
      let node ← combine left right
      let others ← tryPairUp rest
      return node :: others

/-- The siblings of the first leaf, if the levels can be computed. -/
def tryBranchOf : Nat → List Text → Except String (List Text)
  | 0, _ => .ok []
  | _ + 1, [] => .ok []
  | levels + 1, sibling :: rest => do
      let next ← tryPairUp combine rest
      let branches ← tryBranchOf levels next
      return sibling :: branches

variable {pair} {text : Node → Text}

theorem tryPairUp_map
    (combines : ∀ left right,
      combine (text left) (text right) = .ok (text (pair left right)))
    (nodes : List Node) :
    tryPairUp combine (nodes.map text) =
      .ok ((pairUp pair nodes).map text) := by
  induction nodes using pairUp.induct with
  | case1 => rfl
  | case2 last =>
    rw [List.map_singleton, tryPairUp, combines]
    rfl
  | case3 left right rest induction =>
    rw [List.map_cons, List.map_cons, tryPairUp, combines, induction]
    rfl

theorem tryBranchOf_map
    (combines : ∀ left right,
      combine (text left) (text right) = .ok (text (pair left right)))
    (levels : Nat) (nodes : List Node) :
    tryBranchOf combine levels (nodes.map text) =
      .ok ((branchOf pair levels nodes).map text) := by
  induction levels generalizing nodes with
  | zero => rfl
  | succ levels induction =>
    cases nodes with
    | nil => rfl
    | cons sibling rest =>
      rw [List.map_cons, tryBranchOf, tryPairUp_map combine combines]
      dsimp only [bind, Except.bind]
      rw [induction]
      rfl

end Checked

end B3Chain.Tree
