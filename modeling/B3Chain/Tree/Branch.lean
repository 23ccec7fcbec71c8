import Mathlib

/-!
# Branches of a rooted tree

A node of a tree that is only reached through parent pointers is the same
thing as the branch from the root to it.  Branches are ordered by "is an
ancestor of, or equal to"; the ancestors of one branch form a chain, one for
each height.  The last common ancestor is computed by the walk down one
branch that stops at the first node lying on the other.
-/

namespace B3Chain.Tree

universe u

/-- A node of a tree, given by the labels on the way from its root. -/
inductive Branch (Label : Type u) where
  | root (label : Label)
  | child (parent : Branch Label) (label : Label)
deriving Repr

namespace Branch

variable {Label : Type u}

/-- Equality is decided from the last node down, so that branches that differ
in their last label are told apart at once. -/
def decideEq [DecidableEq Label] :
    (left right : Branch Label) → Decidable (left = right)
  | root first, root second =>
    decidable_of_iff (first = second) (by simp)
  | root _, child _ _ => isFalse nofun
  | child _ _, root _ => isFalse nofun
  | child left first, child right second =>
    if labels : first = second then
      have := decideEq left right
      decidable_of_iff (left = right) (by simp [labels])
    else isFalse fun equal => labels (by injection equal)

instance [DecidableEq Label] : DecidableEq (Branch Label) :=
  decideEq

/-- The label of the last node. -/
def label : Branch Label → Label
  | root label => label
  | child _ label => label

/-- The parent pointer; a root has none. -/
def parent? : Branch Label → Option (Branch Label)
  | root _ => none
  | child parent _ => some parent

/-- The number of edges from the root. -/
def height : Branch Label → Nat
  | root _ => 0
  | child parent _ => parent.height + 1

@[simp]
theorem height_root (label : Label) :
    (root label).height = 0 :=
  rfl

@[simp]
theorem height_child (parent : Branch Label) (label : Label) :
    (child parent label).height = parent.height + 1 :=
  rfl

/-! ## The ancestor order -/

/-- `Below ancestor branch`: `ancestor` lies on `branch`. -/
def Below (ancestor : Branch Label) : Branch Label → Prop
  | root label => ancestor = root label
  | child parent label =>
    ancestor = child parent label ∨ Below ancestor parent

instance : LE (Branch Label) :=
  ⟨Below⟩

@[simp]
theorem le_root_iff (ancestor : Branch Label) (label : Label) :
    ancestor ≤ root label ↔ ancestor = root label :=
  Iff.rfl

theorem le_child_iff
    (ancestor parent : Branch Label) (label : Label) :
    ancestor ≤ child parent label ↔
      ancestor = child parent label ∨ ancestor ≤ parent :=
  Iff.rfl

protected theorem le_refl (branch : Branch Label) :
    branch ≤ branch := by
  cases branch with
  | root label => exact rfl
  | child parent label => exact Or.inl rfl

variable {ancestor branch : Branch Label}

theorem le_child_of_le {parent : Branch Label} (below : ancestor ≤ parent)
    (label : Label) :
    ancestor ≤ child parent label :=
  Or.inr below

protected theorem le_trans
    {lower middle upper : Branch Label}
    (first : lower ≤ middle) (second : middle ≤ upper) :
    lower ≤ upper := by
  induction upper with
  | root label =>
    rw [le_root_iff] at second
    rwa [second] at first
  | child parent label induction =>
    rcases (le_child_iff _ _ _).mp second with equal | below
    · rwa [equal] at first
    · exact le_child_of_le (induction below) label

theorem height_le_of_le (below : ancestor ≤ branch) :
    ancestor.height ≤ branch.height := by
  induction branch with
  | root label =>
    rw [le_root_iff] at below
    rw [below]
  | child parent label induction =>
    rcases (le_child_iff _ _ _).mp below with equal | lower
    · rw [equal]
    · exact Nat.le_succ_of_le (induction lower)

/-- One ancestor for each height: of equal height means equal. -/
theorem eq_of_le_of_height_eq (below : ancestor ≤ branch)
    (height : ancestor.height = branch.height) :
    ancestor = branch := by
  cases branch with
  | root label => exact below
  | child parent label =>
    rcases (le_child_iff _ _ _).mp below with equal | lower
    · exact equal
    · have bound := height_le_of_le lower
      rw [height_child] at height
      omega

instance : PartialOrder (Branch Label) where
  le := (· ≤ ·)
  le_refl := Branch.le_refl
  le_trans _ _ _ := Branch.le_trans
  le_antisymm left right forward backward :=
    eq_of_le_of_height_eq forward
      (Nat.le_antisymm (height_le_of_le forward) (height_le_of_le backward))

theorem parent_lt_child (parent : Branch Label) (label : Label) :
    parent < child parent label := by
  refine lt_of_le_of_ne (le_child_of_le le_rfl label) ?_
  intro equal
  have heights := congrArg height equal
  rw [height_child] at heights
  omega

theorem lt_child_iff
    (ancestor parent : Branch Label) (label : Label) :
    ancestor < child parent label ↔ ancestor ≤ parent := by
  constructor
  · intro below
    rcases (le_child_iff _ _ _).mp below.le with equal | lower
    · exact absurd equal below.ne
    · exact lower
  · intro below
    exact lt_of_le_of_lt below (parent_lt_child parent label)

/-- Two ancestors of one branch are comparable. -/
theorem le_total_of_le {left right : Branch Label} (leftBelow : left ≤ branch)
    (rightBelow : right ≤ branch) :
    left ≤ right ∨ right ≤ left := by
  induction branch with
  | root label =>
    rw [le_root_iff] at leftBelow rightBelow
    exact Or.inl (by rw [leftBelow, rightBelow])
  | child parent label induction =>
    rcases (le_child_iff _ _ _).mp leftBelow with leftTop | leftLower
    · exact Or.inr (leftTop ▸ rightBelow)
    · rcases (le_child_iff _ _ _).mp rightBelow with rightTop | rightLower
      · exact Or.inl (rightTop ▸ leftBelow)
      · exact induction leftLower rightLower

/-- Of two ancestors of one branch, the one of smaller height is lower. -/
theorem le_of_height_le {left right : Branch Label}
    (leftBelow : left ≤ branch) (rightBelow : right ≤ branch)
    (height : left.height ≤ right.height) :
    left ≤ right := by
  rcases le_total_of_le leftBelow rightBelow with below | above
  · exact below
  · have bound := height_le_of_le above
    exact (eq_of_le_of_height_eq above (by omega)).ge

/-- The root of a branch lies below each of its ancestors. -/
theorem root_le_of_le {label : Label} (onBranch : root label ≤ branch)
    (below : ancestor ≤ branch) :
    root label ≤ ancestor :=
  le_of_height_le onBranch below (Nat.zero_le _)

/-! ## Deciding the order -/

/-- Follow the parent pointer a number of times. -/
def descend : Nat → Branch Label → Branch Label
  | 0, branch => branch
  | _ + 1, root label => root label
  | count + 1, child parent _ => descend count parent

theorem descend_le (count : Nat) (branch : Branch Label) :
    descend count branch ≤ branch := by
  induction branch generalizing count with
  | root label => cases count <;> exact le_rfl
  | child parent label induction =>
    cases count with
    | zero => exact le_rfl
    | succ count => exact le_child_of_le (induction count) label

/-- Only one node of a branch can be the ancestor: the one of its height. -/
theorem le_iff_descend_eq (ancestor branch : Branch Label) :
    ancestor ≤ branch ↔
      descend (branch.height - ancestor.height) branch = ancestor := by
  constructor
  · intro below
    induction branch with
    | root label =>
      rw [le_root_iff] at below
      rw [below, Nat.sub_self, descend]
    | child parent label induction =>
      rcases (le_child_iff _ _ _).mp below with equal | lower
      · rw [equal, Nat.sub_self, descend]
      · rw [height_child, Nat.succ_sub (height_le_of_le lower), descend]
        exact induction lower
  · intro equal
    rw [← equal]
    exact descend_le _ branch

instance [DecidableEq Label] (ancestor branch : Branch Label) :
    Decidable (ancestor ≤ branch) :=
  decidable_of_iff _ (le_iff_descend_eq ancestor branch).symm

/-! ## Ancestors by height -/

/-- The ancestor of a given height. -/
def ancestorAt (wanted : Nat) : Branch Label → Option (Branch Label)
  | root label => if wanted = 0 then some (root label) else none
  | child parent label =>
    if wanted = parent.height + 1 then some (child parent label)
    else ancestorAt wanted parent

theorem ancestorAt_eq_some_iff
    (wanted : Nat) (branch ancestor : Branch Label) :
    branch.ancestorAt wanted = some ancestor ↔
      ancestor ≤ branch ∧ ancestor.height = wanted := by
  induction branch with
  | root label =>
    rw [ancestorAt, le_root_iff]
    by_cases zero : wanted = 0
    · rw [if_pos zero, Option.some_inj, zero]
      constructor
      · rintro rfl
        exact ⟨rfl, rfl⟩
      · exact fun facts => facts.1.symm
    · rw [if_neg zero]
      constructor
      · intro impossible
        cases impossible
      · rintro ⟨rfl, height⟩
        exact absurd height.symm zero
  | child parent label induction =>
    rw [ancestorAt, le_child_iff]
    by_cases top : wanted = parent.height + 1
    · rw [if_pos top, Option.some_inj]
      constructor
      · rintro rfl
        exact ⟨Or.inl rfl, top.symm⟩
      · rintro ⟨equal | lower, height⟩
        · exact equal.symm
        · have bound := height_le_of_le lower
          omega
    · rw [if_neg top, induction]
      constructor
      · exact fun facts => ⟨Or.inr facts.1, facts.2⟩
      · rintro ⟨equal | lower, height⟩
        · rw [equal, height_child] at height
          exact absurd height.symm top
        · exact ⟨lower, height⟩

theorem exists_ancestorAt {wanted : Nat} (bounded : wanted ≤ branch.height) :
    ∃ ancestor, branch.ancestorAt wanted = some ancestor := by
  induction branch with
  | root label =>
    have zero : wanted = 0 := by simpa using bounded
    exact ⟨root label, by rw [ancestorAt, if_pos zero]⟩
  | child parent label induction =>
    by_cases top : wanted = parent.height + 1
    · exact ⟨child parent label, by rw [ancestorAt, if_pos top]⟩
    · rw [height_child] at bounded
      obtain ⟨ancestor, found⟩ := induction (by omega)
      exact ⟨ancestor, by rw [ancestorAt, if_neg top, found]⟩

/-! ## The last common ancestor -/

variable [DecidableEq Label]

/-- Walk down a branch to the first node that lies on `other`. -/
def lastCommon : Branch Label → Branch Label → Option (Branch Label)
  | root label, other =>
    if root label ≤ other then some (root label) else none
  | child parent label, other =>
    if child parent label ≤ other then some (child parent label)
    else lastCommon parent other

/-- The walk finds the greatest node that lies on both branches. -/
theorem lastCommon_eq_some_iff
    (branch other common : Branch Label) :
    branch.lastCommon other = some common ↔
      IsGreatest {node | node ≤ branch ∧ node ≤ other} common := by
  induction branch with
  | root label =>
    rw [lastCommon]
    constructor
    · intro found
      split_ifs at found with on
      obtain rfl := Option.some_inj.mp found
      exact ⟨⟨le_rfl, on⟩, fun _ member => member.1⟩
    · rintro ⟨⟨below, on⟩, _⟩
      obtain rfl := (le_root_iff _ _).mp below
      rw [if_pos on]
  | child parent label induction =>
    rw [lastCommon]
    by_cases on : child parent label ≤ other
    · rw [if_pos on, Option.some_inj]
      constructor
      · rintro rfl
        exact ⟨⟨le_rfl, on⟩, fun _ member => member.1⟩
      · rintro ⟨⟨below, _⟩, greatest⟩
        exact le_antisymm (greatest ⟨le_rfl, on⟩) below
    · have same :
          {node | node ≤ child parent label ∧ node ≤ other} =
            {node | node ≤ parent ∧ node ≤ other} := by
        ext node
        constructor
        · rintro ⟨below, onOther⟩
          rcases (le_child_iff _ _ _).mp below with rfl | lower
          · exact absurd onOther on
          · exact ⟨lower, onOther⟩
        · rintro ⟨lower, onOther⟩
          exact ⟨le_child_of_le lower label, onOther⟩
      rw [if_neg on, induction, same]

/-- Branches that share a node have a last common node, at or above it. -/
theorem exists_lastCommon {base other : Branch Label}
    (onBranch : base ≤ branch) (onOther : base ≤ other) :
    ∃ common, branch.lastCommon other = some common ∧ base ≤ common := by
  induction branch with
  | root label =>
    rw [le_root_iff] at onBranch
    rw [onBranch] at onOther ⊢
    exact ⟨root label, by rw [lastCommon, if_pos onOther], le_rfl⟩
  | child parent label induction =>
    rw [lastCommon]
    split_ifs with on
    · exact ⟨child parent label, rfl, onBranch⟩
    · rcases (le_child_iff _ _ _).mp onBranch with rfl | lower
      · exact absurd onOther on
      · exact induction lower

theorem lastCommon_of_ge {other : Branch Label} (above : other ≤ branch) :
    branch.lastCommon other = some other :=
  (lastCommon_eq_some_iff branch other other).mpr
    ⟨⟨above, le_rfl⟩, fun _ member => member.2⟩

end Branch

end B3Chain.Tree
