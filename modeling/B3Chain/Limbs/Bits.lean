import B3Chain.Limbs.Carry

/-!
# Bit-level operations on little-endian limb lists

Comparison, bit length, shifts and single-bit updates of a limb list are
read off the bits of its value: bit `i` of the number is bit `i % bits` of
limb `i / bits`.  The shift loops combine two neighbouring limbs with a
bitwise or, so they are proved bit by bit rather than through carries.
-/

namespace B3Chain.Limbs

/-- The limb at an index, zero beyond the stored width. -/
def limbAt (limbs : List Nat) (index : Nat) : Nat :=
  limbs.getD index 0

@[simp]
theorem limbAt_nil (index : Nat) : limbAt [] index = 0 := by
  simp [limbAt]

@[simp]
theorem limbAt_cons_zero
    (limb : Nat) (rest : List Nat) :
    limbAt (limb :: rest) 0 = limb := by
  simp [limbAt]

@[simp]
theorem limbAt_cons_succ
    (limb : Nat) (rest : List Nat) (index : Nat) :
    limbAt (limb :: rest) (index + 1) = limbAt rest index := by
  simp [limbAt]

variable {bits : Nat} {limbs : List Nat}

theorem limbAt_lt (fits : Fits bits limbs) (index : Nat) :
    limbAt limbs index < radix bits := by
  induction limbs generalizing index with
  | nil => simpa using radix_pos bits
  | cons limb rest induction =>
    rw [fits_cons] at fits
    cases index with
    | zero => simpa using fits.1
    | succ index => simpa using induction fits.2 index

theorem limbAt_of_length_le {index : Nat} (beyond : limbs.length ≤ index) :
    limbAt limbs index = 0 := by
  simp [limbAt, beyond]

/-- Bits of the value are bits of the limbs. -/
theorem testBit_value (positive : 0 < bits) (fits : Fits bits limbs)
    (index : Nat) :
    (value bits limbs).testBit index =
      (limbAt limbs (index / bits)).testBit (index % bits) := by
  induction limbs generalizing index with
  | nil => simp
  | cons limb rest induction =>
    rw [fits_cons] at fits
    rw [value_cons, Nat.add_comm, radix,
      Nat.testBit_two_pow_mul_add _ fits.1]
    by_cases low : index < bits
    · rw [if_pos low, Nat.div_eq_of_lt low, Nat.mod_eq_of_lt low,
        limbAt_cons_zero]
    · have split : index = (index - bits) + bits := by omega
      rw [if_neg low, induction fits.2]
      conv_rhs => rw [split, Nat.add_div_right _ positive,
        Nat.add_mod_right, limbAt_cons_succ]

theorem word_of_place {word bit : Nat} (low : bit < bits) :
    (bits * word + bit) / bits = word ∧ (bits * word + bit) % bits = bit := by
  rw [Nat.mul_add_div (Nat.zero_lt_of_lt low), Nat.div_eq_of_lt low,
    Nat.mul_add_mod, Nat.mod_eq_of_lt low]
  exact ⟨rfl, rfl⟩

/-- Every place is a bit of a word. -/
theorem exists_place (positive : 0 < bits) (index : Nat) :
    ∃ word bit, bit < bits ∧ index = bits * word + bit :=
  ⟨index / bits, index % bits, Nat.mod_lt index positive,
    (Nat.div_add_mod index bits).symm⟩

theorem testBit_limbAt (fits : Fits bits limbs) (word : Nat) {bit : Nat}
    (low : bit < bits) :
    (value bits limbs).testBit (bits * word + bit) =
      (limbAt limbs word).testBit bit := by
  rw [testBit_value (Nat.zero_lt_of_lt low) fits, (word_of_place low).1,
    (word_of_place low).2]

theorem testBit_limbAt_high (fits : Fits bits limbs) (word : Nat) {bit : Nat}
    (high : bits ≤ bit) : (limbAt limbs word).testBit bit = false :=
  Nat.testBit_lt_two_pow (lt_of_lt_of_le (limbAt_lt fits word)
    (Nat.pow_le_pow_right (by norm_num) high))

/-- A limb list given limb by limb. -/
def tabulate (count : Nat) (limb : Nat → Nat) : List Nat :=
  (List.range count).map limb

@[simp]
theorem length_tabulate
    (count : Nat) (limb : Nat → Nat) :
    (tabulate count limb).length = count := by
  simp [tabulate]

theorem fits_tabulate {count : Nat} {limb : Nat → Nat}
    (bounded : ∀ index, limb index < radix bits) :
    Fits bits (tabulate count limb) := by
  intro word member
  obtain ⟨index, _, rfl⟩ := List.mem_map.mp member
  exact bounded index

theorem limbAt_tabulate
    (count : Nat) (limb : Nat → Nat) (index : Nat) :
    limbAt (tabulate count limb) index =
      if index < count then limb index else 0 := by
  rw [limbAt, tabulate, List.getD_eq_getElem?_getD, List.getElem?_map]
  split_ifs with inside
  · simp [inside]
  · simp [inside]

/-- Tabulating the radix digits of a number keeps its low part. -/
theorem value_tabulate_digits
    (bits count number : Nat) :
    value bits
        (tabulate count fun index =>
          number / radix bits ^ index % radix bits) =
      number % radix bits ^ count := by
  induction count with
  | zero => simp [tabulate, Nat.mod_one]
  | succ count induction =>
    rw [tabulate, List.range_succ, List.map_append, List.map_singleton,
      ← tabulate, value_append, induction, length_tabulate, value_cons,
      value_nil, Nat.mul_zero, Nat.add_zero, Nat.mod_pow_succ]

/-! ## Shifts -/

/-- Shift left by `shift` bits; bits beyond the width are lost. -/
def shiftLeft (bits : Nat) (limbs : List Nat) (shift : Nat) : List Nat :=
  let skip := shift / bits
  let rest := shift % bits
  tabulate limbs.length fun index =>
    (if skip + 1 ≤ index ∧ rest ≠ 0 then
        limbAt limbs (index - skip - 1) >>> (bits - rest)
      else 0) |||
    (if skip ≤ index then
        (limbAt limbs (index - skip) <<< rest) % radix bits
      else 0)

/-- Shift right by `shift` bits. -/
def shiftRight (bits : Nat) (limbs : List Nat) (shift : Nat) : List Nat :=
  let skip := shift / bits
  let rest := shift % bits
  tabulate limbs.length fun index =>
    (if index + skip + 1 < limbs.length ∧ rest ≠ 0 then
        (limbAt limbs (index + skip + 1) <<< (bits - rest)) % radix bits
      else 0) |||
    (if index + skip < limbs.length then
        limbAt limbs (index + skip) >>> rest
      else 0)

@[simp]
theorem length_shiftLeft
    (bits : Nat) (limbs : List Nat) (shift : Nat) :
    (shiftLeft bits limbs shift).length = limbs.length := by
  simp [shiftLeft]

@[simp]
theorem length_shiftRight
    (bits : Nat) (limbs : List Nat) (shift : Nat) :
    (shiftRight bits limbs shift).length = limbs.length := by
  simp [shiftRight]

theorem shiftRight_word_lt {word : Nat} (amount : Nat)
    (bounded : word < radix bits) :
    word >>> amount < radix bits :=
  lt_of_le_of_lt (Nat.shiftRight_le word amount) bounded

theorem fits_shiftLeft (fits : Fits bits limbs) (shift : Nat) :
    Fits bits (shiftLeft bits limbs shift) := by
  apply fits_tabulate
  intro index
  have positive := radix_pos bits
  apply Nat.or_lt_two_pow
  · split_ifs
    · exact shiftRight_word_lt _ (limbAt_lt fits _)
    · exact positive
  · split_ifs
    · exact Nat.mod_lt _ positive
    · exact positive

theorem fits_shiftRight (fits : Fits bits limbs) (shift : Nat) :
    Fits bits (shiftRight bits limbs shift) := by
  apply fits_tabulate
  intro index
  have positive := radix_pos bits
  apply Nat.or_lt_two_pow
  · split_ifs
    · exact Nat.mod_lt _ positive
    · exact positive
  · split_ifs
    · exact shiftRight_word_lt _ (limbAt_lt fits _)
    · exact positive

theorem index_word_lt_iff (positive : 0 < bits) {index count : Nat} :
    index / bits < count ↔ index < bits * count := by
  rw [Nat.div_lt_iff_lt_mul positive, Nat.mul_comm]

/-- The left shift multiplies by a power of two and drops the overflow. -/
theorem value_shiftLeft (positive : 0 < bits) (fits : Fits bits limbs)
    (shift : Nat) :
    value bits (shiftLeft bits limbs shift) =
      (value bits limbs * 2 ^ shift) % radix bits ^ limbs.length := by
  apply Nat.eq_of_testBit_eq
  intro index
  obtain ⟨word, bit, low, rfl⟩ := exists_place positive index
  obtain ⟨skip, rest, restLow, rfl⟩ := exists_place positive shift
  have inside : word < limbs.length ↔
      bits * word + bit < bits * limbs.length := by
    rw [← index_word_lt_iff positive, (word_of_place low).1]
  rw [testBit_limbAt (fits_shiftLeft fits _) word low, radix_pow,
    Nat.testBit_mod_two_pow, ← Nat.shiftLeft_eq, Nat.testBit_shiftLeft,
    shiftLeft, (word_of_place restLow).1, (word_of_place restLow).2,
    limbAt_tabulate]
  simp only [← inside]
  by_cases stored : word < limbs.length
  · rw [if_pos stored, decide_eq_true stored, Bool.true_and, Nat.testBit_or]
    rcases lt_or_ge word skip with below | above
    · -- The word lies below the shifted number.
      have less := Nat.mul_le_mul_left bits (Nat.succ_le_of_lt below)
      rw [Nat.mul_succ] at less
      rw [if_neg (by omega), if_neg (by omega), decide_eq_false (by omega)]
      simp
    · obtain ⟨d, rfl⟩ := Nat.exists_eq_add_of_le above
      rw [if_pos above, Nat.mul_add, radix, Nat.testBit_mod_two_pow,
        Nat.testBit_shiftLeft, Nat.add_sub_cancel_left]
      rcases le_or_gt rest bit with taken | carried
      · have place : bits * skip + bits * d + bit - (bits * skip + rest) =
            bits * d + (bit - rest) := by
          omega
        have reached : bits * skip + rest ≤ bits * skip + bits * d + bit := by
          omega
        have high : (limbAt limbs (d - 1)).testBit (bits - rest + bit) =
            false :=
          testBit_limbAt_high fits _ (by omega)
        rw [place, testBit_limbAt fits d (by omega)]
        split_ifs <;> simp [Nat.testBit_shiftRight, high, low, taken, reached]
      · have short : ¬ rest ≤ bit := not_le.mpr carried
        cases d with
        | zero => simp [short]
        | succ d =>
          have place : bits * skip + bits * (d + 1) + bit -
              (bits * skip + rest) = bits * d + (bits - rest + bit) := by
            rw [Nat.mul_succ]
            omega
          have reached : bits * skip + rest ≤
              bits * skip + bits * (d + 1) + bit := by
            rw [Nat.mul_succ]
            omega
          rw [place, testBit_limbAt fits d (by omega),
            if_pos ⟨by omega, by omega⟩, Nat.testBit_shiftRight]
          simp [short, reached]
  · rw [if_neg stored, decide_eq_false stored]
    simp

/-- The right shift divides by a power of two. -/
theorem value_shiftRight (positive : 0 < bits) (fits : Fits bits limbs)
    (shift : Nat) :
    value bits (shiftRight bits limbs shift) =
      value bits limbs / 2 ^ shift := by
  apply Nat.eq_of_testBit_eq
  intro index
  obtain ⟨word, bit, low, rfl⟩ := exists_place positive index
  obtain ⟨skip, rest, restLow, rfl⟩ := exists_place positive shift
  -- Limbs that are not stored are zero, so the loop's bounds do not matter.
  have absent (place : Nat) (stored : ¬ place < limbs.length) :
      limbAt limbs place = 0 :=
    limbAt_of_length_le (not_lt.mp stored)
  rw [testBit_limbAt (fits_shiftRight fits _) word low,
    ← Nat.shiftRight_eq_div_pow, Nat.testBit_shiftRight, shiftRight,
    (word_of_place restLow).1, (word_of_place restLow).2, limbAt_tabulate]
  rcases lt_or_ge (rest + bit) bits with within | carried
  · have place : bits * skip + rest + (bits * word + bit) =
        bits * (word + skip) + (rest + bit) := by
      rw [Nat.mul_add]
      omega
    have short : ¬ bits - rest ≤ bit := by omega
    rw [place, testBit_limbAt fits _ within]
    by_cases stored : word + skip < limbs.length
    · rw [if_pos (by omega), if_pos stored, Nat.testBit_or,
        Nat.testBit_shiftRight]
      split_ifs <;> simp [radix, Nat.testBit_shiftLeft, short]
    · rw [absent _ stored]
      split_ifs <;> simp [radix, Nat.testBit_shiftLeft, short]
  · have place : bits * skip + rest + (bits * word + bit) =
        bits * (word + skip + 1) + (bit - (bits - rest)) := by
      rw [Nat.mul_succ, Nat.mul_add]
      omega
    have high : (limbAt limbs (word + skip)).testBit (rest + bit) = false :=
      testBit_limbAt_high fits _ carried
    have long : bits - rest ≤ bit := by omega
    rw [place, testBit_limbAt fits _ (by omega)]
    by_cases stored : word + skip + 1 < limbs.length
    · rw [if_pos (by omega), if_pos ⟨stored, by omega⟩, Nat.testBit_or]
      split_ifs <;> simp [radix, Nat.testBit_shiftLeft, Nat.testBit_shiftRight,
        high, long, low]
    · simp only [absent _ stored, stored, false_and, if_false]
      split_ifs <;> simp [Nat.testBit_shiftRight, high]

end B3Chain.Limbs
