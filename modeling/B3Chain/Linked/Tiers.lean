import Mathlib

/-!
# A bounded store with a protected tier

Keys are held in two tiers.  A request for a key that is not held puts it in
front of the recent keys and drops the oldest of them when the store is full;
the protected keys are never dropped.  Protecting a key beyond the capacity
of the protected tier sends the oldest protected key back to the recent ones.
-/

namespace B3Chain.Linked

universe u

/-- The keys held, newest first in each tier. -/
@[ext]
structure Tiers (Key : Type u) where
  recent : List Key
  pinned : List Key
deriving DecidableEq, Repr

namespace Tiers

variable {Key : Type u}

/-- The key is held in one of the tiers. -/
def Holds (tiers : Tiers Key) (key : Key) : Prop :=
  key ∈ tiers.recent ∨ key ∈ tiers.pinned

instance [DecidableEq Key] (tiers : Tiers Key) (key : Key) :
    Decidable (tiers.Holds key) :=
  inferInstanceAs (Decidable (key ∈ tiers.recent ∨ key ∈ tiers.pinned))

/-- Drop the oldest recent keys until there is room for one more. -/
def makeRoom (depth : Nat) (tiers : Tiers Key) : Tiers Key :=
  { tiers with recent := tiers.recent.take (depth - 1 - tiers.pinned.length) }

/-- Put a key that is not held in front. -/
def enter (depth : Nat) (key : Key) (tiers : Tiers Key) : Tiers Key :=
  { tiers.makeRoom depth with
    recent := key :: (tiers.makeRoom depth).recent }

/-! ## Bounds -/

/-- The bounds of both tiers; the recent tier always has a place left. -/
structure Bounded (depth capacity : Nat) (tiers : Tiers Key) : Prop where
  reserve : capacity < depth
  pinned_le : tiers.pinned.length ≤ capacity
  size_le : tiers.recent.length + tiers.pinned.length ≤ depth

variable {depth capacity : Nat} {tiers : Tiers Key} {key other : Key}

theorem Bounded.room (bounded : tiers.Bounded depth capacity) :
    tiers.pinned.length < depth :=
  lt_of_le_of_lt bounded.pinned_le bounded.reserve

theorem Bounded.enter (bounded : tiers.Bounded depth capacity) :
    (tiers.enter depth key).Bounded depth capacity where
  reserve := bounded.reserve
  pinned_le := bounded.pinned_le
  size_le := by
    have room := bounded.room
    have taken :=
      List.length_take_le (depth - 1 - tiers.pinned.length) tiers.recent
    simp only [Tiers.enter, makeRoom, List.length_cons]
    omega

/-- The key that a full store gives up for a new one. -/
def victim (depth : Nat) (tiers : Tiers Key) : Option Key :=
  if tiers.recent.length + tiers.pinned.length ≥ depth then
    tiers.recent.getLast?
  else none

/-- Making room in the tier of recent keys costs exactly the victim. -/
theorem Bounded.mem_take_iff (bounded : tiers.Bounded depth capacity)
    (nodup : tiers.recent.Nodup) (key : Key) :
    key ∈ tiers.recent.take (depth - 1 - tiers.pinned.length) ↔
      key ∈ tiers.recent ∧ tiers.victim depth ≠ some key := by
  have size := bounded.size_le
  have room := bounded.room
  rw [victim]
  split
  case isTrue full =>
    have places : depth - 1 - tiers.pinned.length =
        tiers.recent.length - 1 := by omega
    rw [places, ← List.dropLast_eq_take]
    rcases List.eq_nil_or_concat tiers.recent with empty | ⟨front, last, eq⟩
    · simp [empty]
    · rw [List.concat_eq_append] at eq
      have apart : last ∉ front := by
        rw [eq] at nodup
        exact fun inside => List.disjoint_of_nodup_append nodup inside
          List.mem_cons_self
      rw [eq, List.dropLast_concat, List.getLast?_concat]
      constructor
      · intro inside
        refine ⟨List.mem_append_left _ inside, ?_⟩
        rintro ⟨⟩
        exact apart inside
      · rintro ⟨inside, other⟩
        rcases List.mem_append.mp inside with inFront | atEnd
        · exact inFront
        · rw [List.mem_singleton] at atEnd
          exact absurd (congrArg some atEnd.symm) other
  case isFalse spare =>
    rw [List.take_of_length_le (by omega)]
    simp

theorem victim_mem (chosen : tiers.victim depth = some key) :
    key ∈ tiers.recent := by
  rw [victim] at chosen
  split at chosen
  · exact List.mem_of_getLast? chosen
  · cases chosen

theorem Bounded.holds_makeRoom_iff (bounded : tiers.Bounded depth capacity)
    (nodup : (tiers.recent ++ tiers.pinned).Nodup) :
    (tiers.makeRoom depth).Holds key ↔
      tiers.Holds key ∧ tiers.victim depth ≠ some key := by
  have taken := bounded.mem_take_iff nodup.of_append_left key
  have safe : key ∈ tiers.pinned → tiers.victim depth ≠ some key := by
    intro pinned chosen
    exact List.disjoint_of_nodup_append nodup (victim_mem chosen) pinned
  rw [Holds, Holds, makeRoom]
  tauto

theorem Bounded.holds_enter_iff (bounded : tiers.Bounded depth capacity)
    (nodup : (tiers.recent ++ tiers.pinned).Nodup) :
    (tiers.enter depth key).Holds other ↔
      other = key ∨
        (tiers.Holds other ∧ tiers.victim depth ≠ some other) := by
  rw [← bounded.holds_makeRoom_iff nodup, Holds, Holds, Tiers.enter,
    List.mem_cons, or_assoc]

/-! ## Requests and protection -/

variable [DecidableEq Key]

/-- Ask for a key. -/
def request (depth : Nat) (key : Key) (tiers : Tiers Key) : Tiers Key :=
  if tiers.Holds key then tiers else tiers.enter depth key

/-- Move a recent key to the front. -/
def refresh (key : Key) (tiers : Tiers Key) : Tiers Key :=
  if key ∈ tiers.recent then
    { tiers with recent := key :: tiers.recent.erase key }
  else tiers

/-- Protect a held key, within the capacity of the protected tier. -/
def protect (capacity : Nat) (key : Key) (tiers : Tiers Key) : Tiers Key :=
  if key ∈ tiers.pinned then
    { tiers with pinned := key :: tiers.pinned.erase key }
  else
    { recent := (key :: tiers.pinned).drop capacity ++ tiers.recent.erase key
      pinned := (key :: tiers.pinned).take capacity }

/-- Give up the protection of a key. -/
def release (depth : Nat) (key : Key) (tiers : Tiers Key) : Tiers Key :=
  if key ∈ tiers.pinned then
    makeRoom depth
      { recent := key :: tiers.recent
        pinned := tiers.pinned.erase key }
  else tiers

namespace Bounded

variable (bounded : tiers.Bounded depth capacity)

include bounded

theorem request : (tiers.request depth key).Bounded depth capacity := by
  rw [Tiers.request]
  split
  · exact bounded
  · exact bounded.enter

theorem refresh : (tiers.refresh key).Bounded depth capacity := by
  rw [Tiers.refresh]
  split
  case isTrue recent =>
    refine ⟨bounded.reserve, bounded.pinned_le, ?_⟩
    have length := List.length_erase_add_one recent
    have size := bounded.size_le
    simp only [List.length_cons]
    omega
  case isFalse => exact bounded

theorem protect (held : tiers.Holds key) :
    (tiers.protect capacity key).Bounded depth capacity := by
  have size := bounded.size_le
  have pins := bounded.pinned_le
  rw [Tiers.protect]
  split
  case isTrue pinned =>
    have length := List.length_erase_add_one pinned
    refine ⟨bounded.reserve, ?_, ?_⟩ <;>
      simp only [List.length_cons] <;> omega
  case isFalse loose =>
    have length := List.length_erase_add_one (held.resolve_right loose)
    refine ⟨bounded.reserve, List.length_take_le _ _, ?_⟩
    simp only [List.length_append, List.length_drop, List.length_take,
      List.length_cons]
    omega

theorem release : (tiers.release depth key).Bounded depth capacity := by
  rw [Tiers.release]
  split
  case isTrue pinned =>
    have length := List.length_erase_add_one pinned
    have pins := bounded.pinned_le
    have reserve := bounded.reserve
    refine ⟨reserve, ?_, ?_⟩ <;> simp only [makeRoom, List.length_take] <;>
      omega
  case isFalse => exact bounded

end Bounded

/-! ## Held keys -/

theorem request_pinned : (tiers.request depth key).pinned = tiers.pinned := by
  rw [request]
  split <;> rfl

theorem holds_request : (tiers.request depth key).Holds key := by
  rw [request]
  split
  case isTrue held => exact held
  case isFalse => exact .inl List.mem_cons_self

theorem holds_release (bounded : tiers.Bounded depth capacity)
    (held : tiers.Holds key) : (tiers.release depth key).Holds key := by
  rw [release]
  split
  case isTrue pinned =>
    have length := List.length_erase_add_one pinned
    have room := bounded.room
    left
    have positive :
        depth - 1 - (tiers.pinned.erase key).length ≠ 0 := by omega
    obtain ⟨places, enough⟩ := Nat.exists_eq_succ_of_ne_zero positive
    simp only [makeRoom, enough, List.take_succ_cons]
    exact List.mem_cons_self
  case isFalse => exact held

theorem eq_or_holds_of_request (held : (tiers.request depth key).Holds other) :
    other = key ∨ tiers.Holds other := by
  rw [request] at held
  split at held
  · exact .inr held
  · rcases held with recent | pinned
    · rcases List.mem_cons.mp recent with same | older
      · exact .inl same
      · exact .inr (.inl (List.mem_of_mem_take older))
    · exact .inr (.inr pinned)

theorem holds_protect_iff :
    (tiers.protect capacity key).Holds other ↔
      other = key ∨ tiers.Holds other := by
  have split : other ∈ (key :: tiers.pinned).take capacity ∨
      other ∈ (key :: tiers.pinned).drop capacity ↔
        other = key ∨ other ∈ tiers.pinned := by
    rw [← List.mem_append, List.take_append_drop, List.mem_cons]
  have erased (keys : List Key) :
      other = key ∨ other ∈ keys.erase key ↔ other = key ∨ other ∈ keys := by
    by_cases same : other = key
    · simp [same]
    · rw [List.mem_erase_of_ne same]
  rw [protect]
  split_ifs
  · simp only [Holds, List.mem_cons]
    grind
  · simp only [Holds, List.mem_append]
    grind

theorem holds_refresh_iff :
    (tiers.refresh key).Holds other ↔ tiers.Holds other := by
  rw [refresh]
  split
  case isTrue recent =>
    have same : (key :: tiers.recent.erase key).Perm tiers.recent :=
      (List.perm_cons_erase recent).symm
    exact or_congr_left same.mem_iff
  case isFalse => exact Iff.rfl

theorem holds_release_iff (bounded : tiers.Bounded depth capacity)
    (nodup : (tiers.recent ++ tiers.pinned).Nodup)
    (pinned : key ∈ tiers.pinned) :
    (tiers.release depth key).Holds other ↔
      tiers.Holds other ∧ tiers.victim depth ≠ some other := by
  have length := List.length_erase_add_one pinned
  have pins := bounded.pinned_le
  have size := bounded.size_le
  have reserve := bounded.reserve
  have same : (key :: tiers.recent ++ tiers.pinned.erase key).Perm
      (tiers.recent ++ tiers.pinned) :=
    List.perm_middle.symm.trans
      ((List.perm_cons_erase pinned).symm.append_left _)
  have moved : Bounded depth capacity
      ⟨key :: tiers.recent, tiers.pinned.erase key⟩ := by
    refine ⟨reserve, ?_, ?_⟩ <;> simp only [List.length_cons] <;> omega
  have sameVictim :
      victim depth ⟨key :: tiers.recent, tiers.pinned.erase key⟩ =
        tiers.victim depth := by
    simp only [victim, List.length_cons]
    by_cases full : tiers.recent.length + tiers.pinned.length ≥ depth
    · have some : tiers.recent ≠ [] := by
        intro empty
        rw [empty, List.length_nil] at full
        omega
      rw [if_pos full, if_pos (by omega), List.getLast?_cons_of_ne_nil some]
    · rw [if_neg full, if_neg (by omega)]
  rw [release, if_pos pinned, moved.holds_makeRoom_iff
    (same.nodup_iff.mpr nodup), sameVictim]
  refine and_congr_left fun _ => ?_
  have members := same.mem_iff (a := other)
  rwa [List.mem_append, List.mem_append] at members

theorem protect_pinned (bounded : tiers.Bounded depth capacity) :
    (tiers.protect capacity key).pinned =
      (key :: tiers.pinned.erase key).take capacity := by
  rw [protect]
  split
  case isTrue pinned =>
    have length := List.length_erase_add_one pinned
    have pins := bounded.pinned_le
    rw [List.take_of_length_le (by rw [List.length_cons]; omega)]
  case isFalse loose => rw [List.erase_of_not_mem loose]

/-! ## Floods of requests -/

/-- Ask for keys one after another. -/
def requests (depth : Nat) (keys : List Key) (tiers : Tiers Key) :
    Tiers Key :=
  keys.foldl (fun held key => held.request depth key) tiers

variable {keys : List Key}

theorem requests_pinned :
    (tiers.requests depth keys).pinned = tiers.pinned := by
  induction keys generalizing tiers with
  | nil => rfl
  | cons first rest induction =>
    exact induction.trans request_pinned

theorem Bounded.requests (bounded : tiers.Bounded depth capacity) :
    (tiers.requests depth keys).Bounded depth capacity := by
  induction keys generalizing tiers with
  | nil => exact bounded
  | cons first rest induction => exact induction bounded.request

/-- New keys push the recent ones towards the end. -/
theorem requests_recent (nodup : keys.Nodup)
    (fresh : ∀ key ∈ keys, ¬tiers.Holds key) :
    (tiers.requests depth keys).recent <+: keys.reverse ++ tiers.recent := by
  induction keys generalizing tiers with
  | nil => exact List.prefix_refl _
  | cons first rest induction =>
    rw [List.nodup_cons] at nodup
    have admitted : tiers.request depth first = tiers.enter depth first :=
      if_neg (fresh first List.mem_cons_self)
    have later : ∀ key ∈ rest, ¬(tiers.enter depth first).Holds key := by
      rintro key member (recent | pinned)
      · rcases List.mem_cons.mp recent with rfl | older
        · exact nodup.1 member
        · exact fresh key (List.mem_cons_of_mem _ member)
            (.inl (List.mem_of_mem_take older))
      · exact fresh key (List.mem_cons_of_mem _ member) (.inr pinned)
    have walked := induction nodup.2 later
    have start : tiers.requests depth (first :: rest) =
        (tiers.enter depth first).requests depth rest := by
      rw [requests, List.foldl_cons, admitted]
      rfl
    rw [start, List.reverse_cons, List.append_assoc]
    exact walked.trans ((List.prefix_append_right_inj _).mpr
      (List.cons_prefix_cons.mpr ⟨rfl, List.take_prefix _ _⟩))

/-- As many new keys as the store has places drop every unprotected key. -/
theorem not_holds_requests (bounded : tiers.Bounded depth capacity)
    (nodup : keys.Nodup) (fresh : ∀ key ∈ keys, ¬tiers.Holds key)
    (enough : depth ≤ keys.length) (other : key ∉ keys)
    (loose : key ∉ tiers.pinned) :
    ¬(tiers.requests depth keys).Holds key := by
  have size : (tiers.requests depth keys).recent.length +
      (tiers.requests depth keys).pinned.length ≤ depth :=
    bounded.requests.size_le
  have short : (tiers.requests depth keys).recent <+: keys.reverse :=
    List.prefix_of_prefix_length_le (requests_recent nodup fresh)
      (List.prefix_append _ _) (by rw [List.length_reverse]; omega)
  rintro (recent | pinned)
  · exact other (List.mem_reverse.mp (short.subset recent))
  · rw [requests_pinned] at pinned
    exact loose pinned

/-- A finite type with enough elements offers new keys. -/
theorem exists_fresh [Fintype Key] (held : List Key) (count : Nat)
    (few : held.length + count ≤ Fintype.card Key) :
    ∃ fresh : List Key, fresh.Nodup ∧ fresh.length = count ∧
      ∀ key ∈ fresh, key ∉ held := by
  have spare : count ≤ held.toFinsetᶜ.card := by
    have listed := List.toFinset_card_le held
    rw [Finset.card_compl]
    omega
  obtain ⟨chosen, inside, size⟩ := Finset.exists_subset_card_eq spare
  refine ⟨chosen.toList, chosen.nodup_toList,
    by rw [Finset.length_toList, size], ?_⟩
  intro key member listed
  have outside := inside (Finset.mem_toList.mp member)
  rw [Finset.mem_compl, List.mem_toFinset] at outside
  exact outside listed

/-- An unprotected key can always be dropped by requests for other keys. -/
theorem exists_flood [Fintype Key] (bounded : tiers.Bounded depth capacity)
    (many : 2 * depth + 1 ≤ Fintype.card Key) (loose : key ∉ tiers.pinned) :
    ∃ flood, key ∉ flood ∧ ¬(tiers.requests depth flood).Holds key := by
  have size := bounded.size_le
  obtain ⟨flood, nodup, length, fresh⟩ :=
    exists_fresh (key :: (tiers.recent ++ tiers.pinned)) depth
      (by rw [List.length_cons, List.length_append]; omega)
  have other : key ∉ flood := fun member =>
    fresh key member List.mem_cons_self
  refine ⟨flood, other, not_holds_requests bounded nodup ?_ length.ge other
    loose⟩
  intro new member held
  exact fresh new member (List.mem_cons_of_mem _ (List.mem_append.mpr held))

end Tiers

end B3Chain.Linked
