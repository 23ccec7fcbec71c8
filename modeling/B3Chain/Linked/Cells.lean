import Mathlib

/-!
# Linked lists with stable cells

A cell of a linked list keeps its address while other cells are linked and
unlinked around it, so an address can be stored elsewhere and used later to
reach its cell.  Reaching for an address that is not in the list has no
result.
-/

namespace B3Chain.Linked

universe u

variable {Value : Type u}

/-- A cell of a linked list. -/
structure Cell (Value : Type u) where
  address : Nat
  value : Value
deriving DecidableEq, Repr

/-- Unlink the cell at an address. -/
def detach (address : Nat) : List (Cell Value) →
    Option (Cell Value × List (Cell Value))
  | [] => none
  | cell :: rest =>
    if cell.address = address then some (cell, rest)
    else (detach address rest).map fun found =>
      (found.1, cell :: found.2)

/-- `erase` of the cell at an address. -/
def unlink (cells : List (Cell Value)) (address : Nat) :
    Option (List (Cell Value)) :=
  (detach address cells).map Prod.snd

/-- `splice` of the cell at an address to the front of its own list. -/
def moveToFront (cells : List (Cell Value)) (address : Nat) :
    Option (List (Cell Value)) :=
  (detach address cells).map fun found => found.1 :: found.2

/-- A stored address whose cell is still linked finds that cell. -/
theorem detach_of_mem
    {cells : List (Cell Value)} {cell : Cell Value}
    (distinct : (cells.map Cell.address).Nodup)
    (member : cell ∈ cells) :
    ∃ before after, cells = before ++ cell :: after ∧
      detach cell.address cells = some (cell, before ++ after) := by
  induction cells with
  | nil => exact absurd member List.not_mem_nil
  | cons head rest induction =>
    rw [List.map_cons, List.nodup_cons] at distinct
    rcases List.mem_cons.mp member with rfl | later
    · exact ⟨[], rest, rfl, by simp [detach]⟩
    · have other : head.address ≠ cell.address := by
        intro equal
        exact distinct.1 (equal ▸ List.mem_map_of_mem later)
      obtain ⟨before, after, rfl, found⟩ := induction distinct.2 later
      exact ⟨head :: before, after, rfl, by simp [detach, other, found]⟩

end B3Chain.Linked
