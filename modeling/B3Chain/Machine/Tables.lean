import Mathlib

/-!
# Maps that keep the order of insertion

A map is a list of keys and values, oldest key first.  A key that is set again
keeps its place.
-/

namespace B3Chain.Machine

variable {Key Value : Type}

theorem mem_of_lookup [BEq Key] [LawfulBEq Key] {table : List (Key × Value)}
    {key : Key} {value : Value} (found : table.lookup key = some value) :
    (key, value) ∈ table := by
  obtain ⟨before, after, rfl, -⟩ := List.lookup_eq_some_iff.mp found
  exact List.mem_append_right before List.mem_cons_self

variable [DecidableEq Key]

/-- The map with a value under a key. -/
def setEntry (table : List (Key × Value)) (key : Key) (value : Value) :
    List (Key × Value) :=
  if table.any fun entry => entry.1 = key then
    table.map fun entry => if entry.1 = key then (key, value) else entry
  else table ++ [(key, value)]

/-- A new key is the youngest. -/
theorem setEntry_of_absent {table : List (Key × Value)} {key : Key}
    (absent : ∀ entry ∈ table, entry.1 ≠ key) (value : Value) :
    setEntry table key value = table ++ [(key, value)] := by
  rw [setEntry, if_neg]
  rw [List.any_eq_true]
  rintro ⟨entry, member, found⟩
  exact absent entry member (of_decide_eq_true found)

/-- The entries after a key is set. -/
theorem mem_setEntry {table : List (Key × Value)} {key : Key} {value : Value}
    {entry : Key × Value} (member : entry ∈ setEntry table key value) :
    entry = (key, value) ∨ entry ∈ table := by
  rw [setEntry] at member
  split at member
  · obtain ⟨old, listed, rfl⟩ := List.mem_map.mp member
    split
    · exact .inl rfl
    · exact .inr listed
  · obtain listed | added := List.mem_append.mp member
    · exact .inr listed
    · exact .inl (List.mem_singleton.mp added)

/-- An entry of a table changes. -/
theorem lookup_map_update (table : List (Key × Value)) (key : Key)
    (change : Value → Value) (other : Key) :
    (table.map fun entry =>
      if entry.1 = key then (entry.1, change entry.2) else entry).lookup
        other =
      if other = key then (table.lookup other).map change
      else table.lookup other := by
  induction table with
  | nil => simp
  | cons entry rest induction =>
    obtain ⟨first, value⟩ := entry
    by_cases same : other = first
    · subst same
      by_cases mine : other = key
      · simp [mine]
      · simp [mine]
    · have apart : (other == first) = false := beq_false_of_ne same
      rw [List.map_cons, List.lookup_cons]
      by_cases mine : first = key
      · rw [if_pos mine, List.lookup_cons, apart]
        exact induction
      · rw [if_neg mine, List.lookup_cons, apart]
        exact induction

theorem lookup_setEntry (table : List (Key × Value)) (key : Key)
    (value : Value) (other : Key) :
    (setEntry table key value).lookup other =
      if other = key then some value else table.lookup other := by
  rw [setEntry]
  split
  · next present =>
      have constant : (table.map fun entry =>
          if entry.1 = key then (key, value) else entry) =
          table.map fun entry =>
            if entry.1 = key then (entry.1, (fun _ => value) entry.2)
            else entry := by
        refine List.map_congr_left fun entry _ => ?_
        split
        · next same => rw [same]
        · rfl
      rw [constant, lookup_map_update table key fun _ => value]
      by_cases same : other = key
      · obtain ⟨entry, member, here⟩ := List.any_eq_true.mp present
        have held : (table.lookup key).isSome :=
          List.lookup_isSome_iff.mpr
            ⟨entry, member, beq_iff_eq.mpr (of_decide_eq_true here).symm⟩
        obtain ⟨old, found⟩ := Option.isSome_iff_exists.mp held
        rw [if_pos same, if_pos same, same, found]
        rfl
      · rw [if_neg same, if_neg same]
  · next absent =>
      rw [List.lookup_append]
      by_cases same : other = key
      · have unheld : table.lookup key = none := by
          rw [List.lookup_eq_none_iff]
          intro entry member
          rw [bne_iff_ne]
          rintro rfl
          exact absent (List.any_eq_true.mpr
            ⟨entry, member, decide_eq_true rfl⟩)
        rw [if_pos same, same, unheld]
        simp
      · rw [if_neg same, List.lookup_cons, beq_false_of_ne same]
        simp

/-- A key is deleted. -/
theorem lookup_filter_ne (table : List (Key × Value)) (key other : Key) :
    (table.filter fun entry => entry.1 ≠ key).lookup other =
      if other = key then none else table.lookup other := by
  induction table with
  | nil => simp
  | cons entry rest induction =>
    obtain ⟨first, value⟩ := entry
    by_cases mine : first = key
    · subst mine
      rw [List.filter_cons_of_neg (by simp), induction]
      by_cases same : other = first
      · simp [same]
      · simp [same, List.lookup_cons, beq_false_of_ne same]
    · rw [List.filter_cons_of_pos (by simpa using mine), List.lookup_cons,
        List.lookup_cons, induction]
      by_cases same : other = first
      · subst same
        simp [mine]
      · simp [beq_false_of_ne same]

end B3Chain.Machine
