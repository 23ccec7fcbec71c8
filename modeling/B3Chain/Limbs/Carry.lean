import Mathlib

/-!
# Carry loops on little-endian limb lists

A natural number is stored as a list of words of `bits` bits, least
significant word first.  Its value is Mathlib's `Nat.ofDigits` at the radix
`2 ^ bits`.  The loops below are the textbook ones: a word sum or product is
split into the word that is kept and the carry that moves on, and the carry
out of the last word is dropped.  Each loop is shown to compute the exact
result modulo the radix power of its width.
-/

namespace B3Chain.Limbs

/-- The number of values of one word. -/
def radix (bits : Nat) : Nat :=
  2 ^ bits

theorem radix_pos (bits : Nat) : 0 < radix bits :=
  Nat.two_pow_pos bits

theorem radix_pow
    (bits count : Nat) :
    radix bits ^ count = 2 ^ (bits * count) := by
  rw [radix, ← Nat.pow_mul]

/-- The natural number represented by a little-endian limb list. -/
def value (bits : Nat) (limbs : List Nat) : Nat :=
  Nat.ofDigits (radix bits) limbs

/-- Every limb fits its word. -/
def Fits (bits : Nat) (limbs : List Nat) : Prop :=
  ∀ limb ∈ limbs, limb < radix bits

@[simp]
theorem value_nil (bits : Nat) : value bits [] = 0 := rfl

@[simp]
theorem value_cons
    (bits limb : Nat) (rest : List Nat) :
    value bits (limb :: rest) =
      limb + radix bits * value bits rest := by
  simp [value, Nat.ofDigits_cons]

theorem value_append
    (bits : Nat) (low high : List Nat) :
    value bits (low ++ high) =
      value bits low + radix bits ^ low.length * value bits high := by
  simp [value, Nat.ofDigits_append]

@[simp]
theorem fits_nil (bits : Nat) : Fits bits [] := by
  simp [Fits]

@[simp]
theorem fits_cons
    {bits limb : Nat} {rest : List Nat} :
    Fits bits (limb :: rest) ↔ limb < radix bits ∧ Fits bits rest := by
  simp [Fits]

theorem value_lt
    {bits : Nat} {limbs : List Nat}
    (fits : Fits bits limbs) :
    value bits limbs < radix bits ^ limbs.length := by
  induction limbs with
  | nil => simp
  | cons limb rest induction =>
    rw [fits_cons] at fits
    have restBound := induction fits.2
    rw [value_cons, List.length_cons, Nat.pow_succ]
    calc
      limb + radix bits * value bits rest
          < radix bits + radix bits * value bits rest := by
            omega
      _ = (value bits rest + 1) * radix bits := by ring
      _ ≤ radix bits ^ rest.length * radix bits :=
            Nat.mul_le_mul_right _ restBound

/-- Splitting a total into a kept word and a carry commutes with the modulus. -/
theorem split_word_mod
    (bits total tail modulus : Nat) :
    total % radix bits +
        radix bits * ((total / radix bits + tail) % modulus) =
      (total + radix bits * tail) % (modulus * radix bits) := by
  have positive := radix_pos bits
  have recombined :
      total + radix bits * tail =
        total % radix bits +
          radix bits * (total / radix bits + tail) := by
    rw [Nat.mul_add, ← Nat.add_assoc, Nat.mod_add_div]
  rw [recombined, Nat.mul_comm modulus, Nat.mod_mul,
    Nat.add_mul_mod_self_left, Nat.mod_mod,
    Nat.add_mul_div_left _ _ positive,
    Nat.div_eq_of_lt (Nat.mod_lt total positive), Nat.zero_add]

/-! ## Addition -/

/-- Add two limb lists of one length and an incoming carry. -/
def addCarry (bits : Nat) : Nat → List Nat → List Nat → List Nat
  | carry, left :: lefts, right :: rights =>
    let total := carry + left + right
    total % radix bits ::
      addCarry bits (total / radix bits) lefts rights
  | _, _, _ => []

theorem length_addCarry
    (bits carry : Nat) (lefts rights : List Nat)
    (sameLength : lefts.length = rights.length) :
    (addCarry bits carry lefts rights).length = lefts.length := by
  induction lefts generalizing carry rights with
  | nil => simp [addCarry]
  | cons left lefts induction =>
    cases rights with
    | nil => simp at sameLength
    | cons right rights =>
      simp only [List.length_cons, Nat.add_right_cancel_iff]
        at sameLength
      simp [addCarry, induction _ _ sameLength]

theorem fits_addCarry
    (bits carry : Nat) (lefts rights : List Nat) :
    Fits bits (addCarry bits carry lefts rights) := by
  induction lefts generalizing carry rights with
  | nil => simp [addCarry]
  | cons left lefts induction =>
    cases rights with
    | nil => simp [addCarry]
    | cons right rights =>
      exact fits_cons.mpr
        ⟨Nat.mod_lt _ (radix_pos bits), induction _ _⟩

/-- The carry loop adds modulo the radix power of the width. -/
theorem value_addCarry
    (bits carry : Nat) (lefts rights : List Nat)
    (sameLength : lefts.length = rights.length) :
    value bits (addCarry bits carry lefts rights) =
      (carry + value bits lefts + value bits rights) %
        radix bits ^ lefts.length := by
  induction lefts generalizing carry rights with
  | nil => simp [addCarry, Nat.mod_one]
  | cons left lefts induction =>
    cases rights with
    | nil => simp at sameLength
    | cons right rights =>
      simp only [List.length_cons, Nat.add_right_cancel_iff]
        at sameLength
      rw [addCarry, value_cons, induction _ _ sameLength,
        Nat.add_assoc (_ / _), split_word_mod, value_cons,
        value_cons, List.length_cons, Nat.pow_succ]
      congr 1
      ring

/-! ## Multiplication by one word -/

/-- Multiply a limb list by one word, with an incoming carry. -/
def mulWord (bits factor : Nat) : Nat → List Nat → List Nat
  | _, [] => []
  | carry, limb :: rest =>
    let total := carry + factor * limb
    total % radix bits ::
      mulWord bits factor (total / radix bits) rest

@[simp]
theorem length_mulWord
    (bits factor carry : Nat) (limbs : List Nat) :
    (mulWord bits factor carry limbs).length = limbs.length := by
  induction limbs generalizing carry with
  | nil => rfl
  | cons limb rest induction => simp [mulWord, induction]

theorem fits_mulWord
    (bits factor carry : Nat) (limbs : List Nat) :
    Fits bits (mulWord bits factor carry limbs) := by
  induction limbs generalizing carry with
  | nil => simp [mulWord]
  | cons limb rest induction =>
    exact fits_cons.mpr
      ⟨Nat.mod_lt _ (radix_pos bits), induction _⟩

/-- The product loop multiplies modulo the radix power of the width. -/
theorem value_mulWord
    (bits factor carry : Nat) (limbs : List Nat) :
    value bits (mulWord bits factor carry limbs) =
      (carry + factor * value bits limbs) %
        radix bits ^ limbs.length := by
  induction limbs generalizing carry with
  | nil => simp [mulWord, Nat.mod_one]
  | cons limb rest induction =>
    rw [mulWord, value_cons, induction, split_word_mod,
      value_cons, List.length_cons, Nat.pow_succ]
    congr 1
    ring

/-! ## Complement and increment -/

/-- Flip every bit of every limb. -/
def complement (bits : Nat) (limbs : List Nat) : List Nat :=
  limbs.map fun limb => radix bits - 1 - limb

theorem fits_complement
    (bits : Nat) (limbs : List Nat) :
    Fits bits (complement bits limbs) := by
  intro limb member
  obtain ⟨source, _, rfl⟩ := List.mem_map.mp member
  have positive := radix_pos bits
  omega

/-- A number and its complement add up to the largest number of the width. -/
theorem value_complement
    {bits : Nat} {limbs : List Nat}
    (fits : Fits bits limbs) :
    value bits (complement bits limbs) + value bits limbs + 1 =
      radix bits ^ limbs.length := by
  induction limbs with
  | nil => simp [complement]
  | cons limb rest induction =>
    rw [fits_cons] at fits
    have tail := induction fits.2
    have head : radix bits - 1 - limb + limb + 1 = radix bits := by
      omega
    have unfolded :
        complement bits (limb :: rest) =
          (radix bits - 1 - limb) :: complement bits rest := rfl
    rw [unfolded, value_cons, value_cons, List.length_cons,
      Nat.pow_succ, ← tail]
    calc
      radix bits - 1 - limb +
            radix bits * value bits (complement bits rest) +
            (limb + radix bits * value bits rest) + 1
          = (radix bits - 1 - limb + limb + 1) +
              radix bits *
                (value bits (complement bits rest) +
                  value bits rest) := by ring
      _ = (value bits (complement bits rest) + value bits rest + 1) *
            radix bits := by
            rw [head]
            ring

/-- Increment limb after limb until one does not wrap to zero. -/
def increment (bits : Nat) : List Nat → List Nat
  | [] => []
  | limb :: rest =>
    let next := (limb + 1) % radix bits
    if next = 0 then next :: increment bits rest else next :: rest

@[simp]
theorem length_increment
    (bits : Nat) (limbs : List Nat) :
    (increment bits limbs).length = limbs.length := by
  induction limbs with
  | nil => rfl
  | cons limb rest induction =>
    rw [increment]
    split_ifs <;> simp [induction]

/-- The increment loop adds one modulo the radix power of the width. -/
theorem value_increment
    {bits : Nat} {limbs : List Nat}
    (fits : Fits bits limbs) :
    value bits (increment bits limbs) =
      (value bits limbs + 1) % radix bits ^ limbs.length := by
  induction limbs with
  | nil => simp [increment]
  | cons limb rest induction =>
    have whole := value_lt fits
    rw [fits_cons] at fits
    have positive := radix_pos bits
    rw [increment]
    by_cases wraps : (limb + 1) % radix bits = 0
    · have headTop : limb + 1 = radix bits := by
        by_contra different
        rw [Nat.mod_eq_of_lt (by omega)] at wraps
        omega
      have split := split_word_mod bits (limb + 1)
        (value bits rest) (radix bits ^ rest.length)
      rw [headTop, Nat.mod_self, Nat.div_self positive,
        Nat.zero_add, Nat.add_comm 1] at split
      rw [if_pos wraps, value_cons, wraps, induction fits.2,
        Nat.zero_add, split, value_cons, List.length_cons,
        Nat.pow_succ]
      congr 1
      omega
    · have headBelow : limb + 1 < radix bits := by
        rcases Nat.lt_or_ge (limb + 1) (radix bits) with below | above
        · exact below
        · have equal : limb + 1 = radix bits := by omega
          rw [equal, Nat.mod_self] at wraps
          exact (wraps rfl).elim
      have fitsNext : Fits bits ((limb + 1) :: rest) :=
        fits_cons.mpr ⟨headBelow, fits.2⟩
      have nextBound := value_lt fitsNext
      rw [if_neg wraps, Nat.mod_eq_of_lt headBelow]
      rw [value_cons, List.length_cons] at nextBound
      rw [value_cons, value_cons, List.length_cons,
        Nat.mod_eq_of_lt (by omega)]
      omega

end B3Chain.Limbs
