import B3Chain.Pool.Ledger

/-!
# Rounding a reward

The fee and every user's part of a reward are rounded to `10 ^ -8` coins each
on its own.  Exactly, the parts add up to the reward; rounded, they add up to
more exactly if more of them are rounded up than their fractions add up to.
-/

namespace B3Chain.Pool

/-! ## Rounded sums -/

/-- A rounded amount is its whole part, or one more. -/
theorem toFixed_eq {amount : ℚ} (nonneg : 0 ≤ amount) :
    (toFixed amount : ℚ) = amount - Int.fract amount +
      if 1 / 2 ≤ Int.fract amount then 1 else 0 := by
  have whole : amount - Int.fract amount = ⌊amount⌋ := Int.self_sub_fract amount
  have low := Int.fract_nonneg amount
  have high := Int.fract_lt_one amount
  have parts := Int.floor_add_fract amount
  rw [toFixed, if_neg (not_lt.mpr nonneg), whole]
  split
  · next up =>
      have floor : ⌊amount + 1 / 2⌋ = ⌊amount⌋ + 1 := by
        rw [Int.floor_eq_iff]
        push_cast
        constructor
        · linarith
        · linarith
      rw [floor]
      push_cast
      rfl
  · next down =>
      have floor : ⌊amount + 1 / 2⌋ = ⌊amount⌋ := by
        rw [Int.floor_eq_iff]
        constructor
        · linarith
        · linarith
      rw [floor, add_zero]

theorem toFixed_nonneg {amount : ℚ} (nonneg : 0 ≤ amount) :
    0 ≤ toFixed amount := by
  rw [toFixed, if_neg (not_lt.mpr nonneg)]
  exact Int.floor_nonneg.mpr (by linarith)

/-- How many of the amounts are rounded up. -/
def roundedUp (amounts : List ℚ) : Nat :=
  amounts.countP fun amount => 1 / 2 ≤ Int.fract amount

theorem sum_toFixed {amounts : List ℚ}
    (nonneg : ∀ amount ∈ amounts, 0 ≤ amount) :
    ((amounts.map toFixed).sum : ℚ) =
      amounts.sum - (amounts.map Int.fract).sum + roundedUp amounts := by
  induction amounts with
  | nil => simp [roundedUp]
  | cons amount amounts induction =>
    have first := toFixed_eq (nonneg amount List.mem_cons_self)
    have others := induction fun later member =>
      nonneg later (List.mem_cons_of_mem amount member)
    rw [roundedUp] at others ⊢
    rw [List.map_cons, List.sum_cons, List.sum_cons, List.map_cons,
      List.sum_cons, List.countP_cons, Int.cast_add, first, others]
    push_cast
    split
    · next up =>
        rw [if_pos (decide_eq_true up)]
        ring
    · next down =>
        rw [if_neg (by simpa using down)]
        ring

/-- Lines that are left out because they are nothing add nothing. -/
theorem sum_filterMap_pos {Item : Type} (user : Item → Nat)
    {amount : Item → Int} {items : List Item}
    (nonneg : ∀ item ∈ items, 0 ≤ amount item) :
    ((items.filterMap fun item =>
      if amount item ≤ 0 then none
      else some (user item, amount item)).map Prod.snd).sum =
        (items.map amount).sum := by
  induction items with
  | nil => rfl
  | cons item items induction =>
    have first := nonneg item List.mem_cons_self
    have others := induction fun later member =>
      nonneg later (List.mem_cons_of_mem item member)
    rw [List.map_cons, List.sum_cons, ← others, List.filterMap_cons]
    by_cases nothing : amount item ≤ 0
    · rw [if_pos nothing, le_antisymm nothing first, zero_add]
    · rw [if_neg nothing, List.map_cons, List.sum_cons]

/-! ## The parts of a reward -/

theorem sum_addTotal (uid : Nat) (d : ℚ) (sums : List (Nat × ℚ)) :
    ((addTotal uid d sums).map Prod.snd).sum =
      (sums.map Prod.snd).sum + d := by
  induction sums with
  | nil => simp [addTotal]
  | cons entry rest induction =>
    obtain ⟨user, total⟩ := entry
    rw [addTotal]
    split
    · simp only [List.map_cons, List.sum_cons]
      ring
    · simp only [List.map_cons, List.sum_cons, induction]
      ring

theorem nonneg_addTotal {uid : Nat} {d : ℚ} {sums : List (Nat × ℚ)}
    (positive : 0 ≤ d) (nonneg : ∀ entry ∈ sums, 0 ≤ entry.2) :
    ∀ entry ∈ addTotal uid d sums, 0 ≤ entry.2 := by
  induction sums with
  | nil =>
    intro entry member
    rw [List.mem_singleton.mp member]
    exact positive
  | cons first rest induction =>
    obtain ⟨user, total⟩ := first
    have start := nonneg _ List.mem_cons_self
    have later : ∀ entry ∈ rest, 0 ≤ entry.2 := fun entry member =>
      nonneg entry (List.mem_cons_of_mem _ member)
    intro entry member
    rw [addTotal] at member
    split at member
    · obtain rfl | old := List.mem_cons.mp member
      · exact add_nonneg start positive
      · exact later entry old
    · obtain rfl | old := List.mem_cons.mp member
      · exact start
      · exact induction later entry old

/-- The users' difficulties add up to all of it. -/
theorem sum_totals (shares : List ShareRow) :
    ((totals shares).map Prod.snd).sum = sumDiff shares := by
  have folded (sums : List (Nat × ℚ)) :
      ((shares.foldl (fun sums share =>
        addTotal share.userId share.diff sums) sums).map Prod.snd).sum =
          (sums.map Prod.snd).sum + sumDiff shares := by
    induction shares generalizing sums with
    | nil => simp [sumDiff]
    | cons share shares induction =>
      rw [List.foldl_cons, induction, sum_addTotal, sumDiff, sumDiff,
        List.map_cons, List.sum_cons, add_assoc]
  rw [totals, folded, List.map_nil, List.sum_nil, zero_add]

theorem nonneg_totals {shares : List ShareRow}
    (positive : ∀ share ∈ shares, 0 < share.diff) :
    ∀ entry ∈ totals shares, 0 ≤ entry.2 := by
  have folded (sums : List (Nat × ℚ)) (nonneg : ∀ entry ∈ sums, 0 ≤ entry.2) :
      ∀ entry ∈ shares.foldl (fun sums share =>
        addTotal share.userId share.diff sums) sums, 0 ≤ entry.2 := by
    induction shares generalizing sums with
    | nil => exact nonneg
    | cons share shares induction =>
      refine induction (fun later member =>
        positive later (List.mem_cons_of_mem share member)) _ ?_
      exact nonneg_addTotal (positive share List.mem_cons_self).le nonneg
  exact folded [] nofun

theorem sumDiff_pos {shares : List ShareRow} (some : shares ≠ [])
    (positive : ∀ share ∈ shares, 0 < share.diff) : 0 < sumDiff shares := by
  refine List.sum_pos _ ?_ ?_
  · intro diff member
    obtain ⟨share, listed, rfl⟩ := List.mem_map.mp member
    exact positive share listed
  · simpa using some

/-- The users' exact parts of a reward. -/
def userParts (config : PoolConfig) (reward : Int) (window : List ShareRow) :
    List ℚ :=
  (totals window).map fun entry =>
    entry.2 / sumDiff window * distributable config reward

/-- The exact fee and the users' exact parts. -/
def exactParts (config : PoolConfig) (reward : Int) (window : List ShareRow) :
    List ℚ :=
  grossFee config reward :: userParts config reward window

/-- A fee of the reward, and shares that are worth something. -/
structure Payable (config : PoolConfig) (reward : Int)
    (window : List ShareRow) : Prop where
  reward : 0 ≤ reward
  least : 0 ≤ config.feePercent
  most : config.feePercent ≤ 100
  positive : ∀ share ∈ window, 0 < share.diff

section

variable {config : PoolConfig} {reward : Int} {window : List ShareRow}

section

variable (payable : Payable config reward window)

include payable

theorem Payable.grossFee_nonneg :
    0 ≤ grossFee config reward := by
  have rewardQ : (0 : ℚ) ≤ reward := Int.cast_nonneg payable.reward
  exact mul_nonneg rewardQ (div_nonneg payable.least (by norm_num))

theorem Payable.distributable_nonneg :
    0 ≤ distributable config reward := by
  have rewardQ : (0 : ℚ) ≤ reward := Int.cast_nonneg payable.reward
  have share : config.feePercent / 100 ≤ 1 := by
    have most := payable.most
    linarith
  rw [distributable, grossFee]
  exact sub_nonneg.mpr (mul_le_of_le_one_right rewardQ share)

theorem Payable.parts_nonneg :
    ∀ part ∈ exactParts config reward window, 0 ≤ part := by
  intro part member
  obtain rfl | user := List.mem_cons.mp member
  · exact payable.grossFee_nonneg
  · obtain ⟨entry, listed, rfl⟩ := List.mem_map.mp user
    refine mul_nonneg (div_nonneg ?_ ?_) payable.distributable_nonneg
    · exact nonneg_totals payable.positive entry listed
    · refine List.sum_nonneg fun diff found => ?_
      obtain ⟨share, among, rfl⟩ := List.mem_map.mp found
      exact (payable.positive share among).le

/-- The exact parts add up to the reward. -/
theorem Payable.sum_exactParts (some : window ≠ []) :
    (exactParts config reward window).sum = reward := by
  have positive := sumDiff_pos some payable.positive
  have users : (userParts config reward window).sum =
      distributable config reward := by
    have factored : userParts config reward window =
        ((totals window).map Prod.snd).map fun diff =>
          diff / sumDiff window * distributable config reward := by
      rw [userParts, List.map_map]
      rfl
    have scaled : (fun diff : ℚ =>
        diff / sumDiff window * distributable config reward) =
          fun diff => diff * (distributable config reward / sumDiff window) :=
      funext fun diff => by ring
    rw [factored, scaled, List.sum_map_mul_right, List.map_id', sum_totals,
      mul_div_cancel₀ _ positive.ne']
  rw [exactParts, List.sum_cons, users, distributable]
  ring

/-- What is not inserted was rounded to nothing. -/
theorem Payable.sum_distribution :
    ((distribution config reward window).map Prod.snd).sum =
      ((userParts config reward window).map toFixed).sum := by
  rw [userParts, List.map_map]
  refine sum_filterMap_pos Prod.fst fun entry member => toFixed_nonneg ?_
  refine payable.parts_nonneg _ (List.mem_cons_of_mem _ ?_)
  exact List.mem_map_of_mem member

end

/-- No more parts are rounded up than the fractions of all parts add up to;
an empty window is not rounded. -/
def RoundsWithin (config : PoolConfig) (reward : Int)
    (window : List ShareRow) : Prop :=
  window = [] ∨
    (roundedUp (exactParts config reward window) : ℚ) ≤
      ((exactParts config reward window).map Int.fract).sum

/-- What is credited, and the fee. -/
theorem Payable.distributed_le_iff (payable : Payable config reward window)
    (some : window ≠ []) :
    ((distribution config reward window).map Prod.snd).sum +
        toFixed (grossFee config reward) ≤ reward ↔
      RoundsWithin config reward window := by
  have rounded := sum_toFixed payable.parts_nonneg
  rw [payable.sum_exactParts some] at rounded
  have total : ((exactParts config reward window).map toFixed).sum =
      ((distribution config reward window).map Prod.snd).sum +
        toFixed (grossFee config reward) := by
    rw [payable.sum_distribution, exactParts, List.map_cons, List.sum_cons,
      add_comm]
  rw [total] at rounded
  rw [RoundsWithin, or_iff_right some, ← Int.cast_le (R := ℚ), rounded]
  constructor
  · intro within
    linarith
  · intro within
    linarith

end

/-! ## The ledger -/

/-- The entries that were inserted after the first `count`. -/
def insertedSince (count : Nat) (db : Database) : Int :=
  ((db.entries.drop count).map BalanceEntry.deltaB3c).sum

/-- The credits that are inserted and the fee that is recorded are together no
more than the reward. -/
def Conserves (config : PoolConfig) (db : Database) (row : BlockRow)
    (window : List ShareRow) : Prop :=
  ∀ credited ∈ (db.credit config row.id row.rewardB3c window).blocks,
    credited.id = row.id →
      insertedSince db.entries.length
          (db.credit config row.id row.rewardB3c window) +
        credited.poolFeeB3c ≤ row.rewardB3c

theorem conserves_iff_of_fee {config : PoolConfig} {db : Database}
    {row : BlockRow} {window : List ShareRow} {fee : Int}
    (member : row ∈ db.blocks)
    (blocks : (db.credit config row.id row.rewardB3c window).blocks =
      db.blocks.map (updateRow row.id (.credit fee))) :
    Conserves config db row window ↔
      insertedSince db.entries.length
        (db.credit config row.id row.rewardB3c window) + fee ≤
          row.rewardB3c := by
  rw [Conserves, blocks]
  constructor
  · intro conserved
    have updated := conserved _ (List.mem_map_of_mem member)
      (updateRow_id row.id (.credit fee) row)
    rwa [updateRow, if_pos rfl] at updated
  · intro within credited among same
    obtain ⟨old, -, rfl⟩ := List.mem_map.mp among
    rw [updateRow_id] at same
    rwa [updateRow, if_pos same]

/--
Crediting a block gives out no more than its reward exactly if no more parts
are rounded up than the fractions of all parts add up to.
-/
theorem pplns_conserves_iff_rounds_within {config : PoolConfig}
    {db : Database} {row : BlockRow} {window : List ShareRow}
    (member : row ∈ db.blocks)
    (payable : Payable config row.rewardB3c window) :
    Conserves config db row window ↔
      RoundsWithin config row.rewardB3c window := by
  by_cases none : window = []
  · subst none
    have unchanged : (db.credit config row.id row.rewardB3c []).entries =
        db.entries := by
      rw [Database.credit, if_pos rfl]
      rfl
    rw [conserves_iff_of_fee member
      (by rw [Database.credit, if_pos rfl]; rfl), insertedSince, unchanged,
      List.drop_length]
    exact iff_of_true (by simp) (.inl rfl)
  · have inserted : (db.credit config row.id row.rewardB3c window).entries =
        db.entries ++ (distribution config row.rewardB3c window).map
          (Database.creditEntry row.id) := by
      rw [Database.credit, if_neg none]
      rfl
    rw [conserves_iff_of_fee member
      (by rw [Database.credit, if_neg none]; rfl), insertedSince, inserted,
      List.drop_left, List.map_map,
      show BalanceEntry.deltaB3c ∘ Database.creditEntry row.id = Prod.snd
        from rfl]
    exact payable.distributed_le_iff none

/-- A block with a reward of 50 coins. -/
def fiftyCoins : BlockRow where
  id := 1
  height := 1
  hash := []
  rewardB3c := 5000000000
  poolFeeB3c := 0
  confirmations := 100
  isConfirmed := true
  isOrphan := false
  pplnsCredited := false
  foundAt := 0

/-- The ledger with the one block. -/
def fiftyLedger : Database where
  blocks := [fiftyCoins]
  nextBlockId := 2
  entries := []
  shares := []
  unique := by decide
  fresh := by decide

/-- One share for each of the first users. -/
def equalShares (users : Nat) : List ShareRow :=
  (List.range users).map fun user =>
    { id := user, userId := user, diff := 1, submittedAt := 0 }

/-- A pool without a fee. -/
def freePool : PoolConfig where
  feePercent := 0
  pplnsNShares := 4032
  blockConfirmations := 100

theorem payable_equalShares (users : Nat) :
    Payable freePool fiftyCoins.rewardB3c (equalShares users) where
  reward := by decide
  least := le_rfl
  most := by
    change (0 : ℚ) ≤ 100
    norm_num
  positive := by
    intro share member
    obtain ⟨user, -, rfl⟩ := List.mem_map.mp member
    exact one_pos

/-- Two users get 25 coins each. -/
theorem two_users_conserve :
    Conserves freePool fiftyLedger fiftyCoins (equalShares 2) := by
  refine (pplns_conserves_iff_rounds_within List.mem_cons_self
    (payable_equalShares 2)).mpr (.inr ?_)
  decide +kernel

/-- Three users get a third each, rounded up. -/
theorem three_users_exceed_reward :
    ((fiftyLedger.credit freePool 1 5000000000 (equalShares 3)).entries.map
        BalanceEntry.deltaB3c) = [1666666667, 1666666667, 1666666667] ∧
      ¬ Conserves freePool fiftyLedger fiftyCoins (equalShares 3) := by
  constructor
  · decide +kernel
  · intro conserved
    have sum := conserved
      { fiftyCoins with pplnsCredited := true } (by decide +kernel) rfl
    revert sum
    decide +kernel

end B3Chain.Pool
