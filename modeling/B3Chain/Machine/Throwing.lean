import Mathlib

/-!
# Computations that may throw

A computation that sequences others returns exactly if each part returns, and
one behind a check exactly if the check passes.
-/

namespace B3Chain.Machine

universe u v

variable {ε : Type u} {α β : Type v}

theorem bind_eq_ok_iff {first : Except ε α} {next : α → Except ε β}
    {result : β} :
    (first >>= next) = .ok result ↔
      ∃ value, first = .ok value ∧ next value = .ok result := by
  cases first with
  | error thrown =>
    constructor
    · intro returned
      cases returned
    · rintro ⟨value, returned, -⟩
      cases returned
  | ok value =>
    constructor
    · intro returned
      exact ⟨value, rfl, returned⟩
    · rintro ⟨other, found, returned⟩
      cases found
      exact returned

/-- A check that throws, then the rest. -/
theorem check_eq_ok_iff {condition : Prop} [Decidable condition]
    {thrown : ε} {next : Except ε β} {result : β} :
    (if condition then .error thrown else next) = .ok result ↔
      ¬ condition ∧ next = .ok result := by
  by_cases holds : condition
  · rw [if_pos holds]
    constructor
    · intro returned
      cases returned
    · rintro ⟨other, -⟩
      exact absurd holds other
  · rw [if_neg holds]
    constructor
    · intro returned
      exact ⟨holds, returned⟩
    · rintro ⟨-, returned⟩
      exact returned

end B3Chain.Machine
