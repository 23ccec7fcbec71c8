import Mathlib

/-!
# Iterating "exclusive or with a permuted copy"

`xorShift move` adds to each entry of a table the entry at its image under
`move`.  Over bit vectors, twice `xorShift move` is `xorShift` of `move`
applied twice.  When a power of two of applications of `move` is the identity,
that many applications of `xorShift move` therefore give the zero table.
-/

namespace B3Chain.Words

universe u

variable {Index : Type u} {width : Nat}

/-- Exclusive or of a table with its copy read through `move`. -/
def xorShift (move : Index → Index) (table : Index → BitVec width) :
    Index → BitVec width :=
  fun index => table index ^^^ table (move index)

theorem xorShift_xorShift
    (move : Index → Index) (table : Index → BitVec width) :
    xorShift move (xorShift move table) =
      xorShift (move ∘ move) table := by
  funext index
  simp only [xorShift, Function.comp_apply]
  rw [BitVec.xor_assoc, ← BitVec.xor_assoc (table (move index)),
    BitVec.xor_self, BitVec.zero_xor]

theorem xorShift_id (table : Index → BitVec width) :
    xorShift id table = fun _ => 0 := by
  funext index
  exact BitVec.xor_self

theorem xorShift_zero (move : Index → Index) :
    xorShift move (fun _ => (0 : BitVec width)) = fun _ => 0 := by
  funext index
  exact BitVec.xor_self

/-- Doubling the number of applications doubles the power of `move`. -/
theorem iterate_xorShift_two_pow
    (move : Index → Index) (exponent : Nat)
    (table : Index → BitVec width) :
    (xorShift move)^[2 ^ exponent] table =
      xorShift (move^[2 ^ exponent]) table := by
  induction exponent generalizing move with
  | zero => rfl
  | succ exponent induction =>
    have doubled :
        (fun start : Index → BitVec width => xorShift move start)^[2] =
          xorShift (move^[2]) := by
      funext start
      exact xorShift_xorShift move start
    rw [Nat.pow_succ', Function.iterate_mul, doubled, induction,
      Function.iterate_mul]

/-- From the period of `move` on, nothing of the table is left. -/
theorem iterate_xorShift_eq_zero
    {move : Index → Index} {exponent count : Nat}
    (period : move^[2 ^ exponent] = id) (enough : 2 ^ exponent ≤ count)
    (table : Index → BitVec width) :
    (xorShift move)^[count] table = fun _ => 0 := by
  obtain ⟨extra, rfl⟩ := Nat.exists_eq_add_of_le' enough
  rw [Function.iterate_add_apply, iterate_xorShift_two_pow, period,
    xorShift_id]
  exact Function.iterate_fixed (xorShift_zero move) extra

/-- Counting applications beyond the period is unnecessary. -/
theorem iterate_xorShift_min
    {move : Index → Index} {exponent : Nat}
    (period : move^[2 ^ exponent] = id) (count : Nat)
    (table : Index → BitVec width) :
    (xorShift move)^[min count (2 ^ exponent)] table =
      (xorShift move)^[count] table := by
  rcases Nat.le_total count (2 ^ exponent) with few | many
  · rw [min_eq_left few]
  · rw [min_eq_right many, iterate_xorShift_eq_zero period le_rfl,
      iterate_xorShift_eq_zero period many]

end B3Chain.Words
