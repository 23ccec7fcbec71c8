import B3Chain.Node.Checkpoints

/-!
# Loading the emergency checkpoints

`EmergencyCheckpoints::LoadFromFile`.  Each check that fails empties the map
before it returns, so a refused file leaves nothing behind.  The conversion of a
height is not such a check: `getInt` throws for a JSON number that is no `int`,
and the exception leaves the call with the entries read so far in the map.

`UniValue::read` is the vendored JSON reader; it may be any function here.
-/

namespace B3Chain.Node

open B3Chain.Crypto
open B3Chain.Words

/-! ## Values -/

/-- `UniValue`; a number is the text of its token. -/
inductive UniValue where
  | null
  | bool (value : Bool)
  | num (text : String)
  | str (text : String)
  | arr (values : List UniValue)
  | obj (members : List (String × UniValue))

/-- `operator[]` with a key. -/
def UniValue.get : UniValue → String → UniValue
  | .obj members, key => (members.lookup key).getD .null
  | _, _ => .null

/-- The digits `std::from_chars` accepts up to the end of the text. -/
def readDigits (digits : List Char) : Option Nat :=
  if digits.isEmpty || !digits.all Char.isDigit then none
  else some (digits.foldl (fun value digit =>
    10 * value + (digit.toNat - '0'.toNat)) 0)

/-- `std::from_chars` on a whole text. -/
def fromChars : List Char → Option Int
  | '-' :: digits => (readDigits digits).map fun value => -(value : Int)
  | digits => (readDigits digits).map fun value => (value : Int)

/-- `getInt<int>`; `none` is the exception. -/
def getInt (text : String) : Option Int :=
  match fromChars text.toList with
  | some value =>
    if -2 ^ 31 ≤ value ∧ value < 2 ^ 31 then some value else none
  | none => none

/-- `HexDigit`. -/
def hexDigit (digit : Char) : Option Nat :=
  if digit.isDigit then some (digit.toNat - '0'.toNat)
  else if 'a' ≤ digit ∧ digit ≤ 'f' then some (digit.toNat - 'a'.toNat + 10)
  else if 'A' ≤ digit ∧ digit ≤ 'F' then some (digit.toNat - 'A'.toNat + 10)
  else none

/-- `IsHex`. -/
def isHex (text : List Char) : Bool :=
  text.all (fun digit => (hexDigit digit).isSome) &&
    decide (0 < text.length) && decide (text.length % 2 = 0)

/-- `uint256::FromHex`: the last two digits are the first byte. -/
def fromHex (text : List Char) : Option Lane :=
  if text.length ≠ 64 || !isHex text then none
  else
    let digit (place : Nat) : Nat :=
      ((text.reverse[place]?).bind hexDigit).getD 0
    some fun byte =>
      BitVec.ofNat 8 (16 * digit (2 * byte + 1) + digit (2 * byte))

/-! ## The loop over the entries -/

/-- How a load ends early: with `false` and a diagnostic, or with an
exception. -/
inductive LoadFailure where
  | failed (err : String)
  | threw (what : String)
deriving DecidableEq, Repr

/-- `m_by_height`. -/
abbrev HeightMap := AList fun _ : Int => Lane

/-- The checks on entry `i`: its height and its hash. -/
def readEntry (i : Nat) (entry : UniValue) :
    Except LoadFailure (Int × Lane) :=
  let refuse (reason : String) : Except LoadFailure (Int × Lane) :=
    .error (.failed ("checkpoint entry " ++ toString i ++ reason))
  match entry with
  | .obj _ =>
    match entry.get "height", entry.get "hash" with
    | .num text, .str hashHex =>
      match getInt text with
      | none => .error (.threw "JSON integer out of range")
      | some height =>
        if height < 0 then refuse " has negative height"
        else if hashHex.toList.length ≠ 64 || !isHex hashHex.toList then
          refuse " hash is not a 64-char lowercase hex string"
        else
          match fromHex hashHex.toList with
          | none => refuse " hash is not a valid 64-char hex uint256"
          | some parsed => .ok (height, parsed)
    | _, _ => refuse " missing integer \"height\" or string \"hash\""
  | _ => refuse " is not an object"

/-- `emplace`, with the check for a conflict. -/
def emplace (map : HeightMap) (height : Int) (parsed : Lane) :
    Except LoadFailure HeightMap :=
  match map.lookup height with
  | none => .ok (map.insert height parsed)
  | some present =>
    if present = parsed then .ok map
    else .error (.failed ("duplicate height " ++ toString height ++
      " with conflicting hash"))

/-- The body of the loop for entry `i`. -/
def loadEntry (map : HeightMap) (i : Nat) (entry : UniValue) :
    Except LoadFailure HeightMap :=
  match readEntry i entry with
  | .ok (height, parsed) => emplace map height parsed
  | .error failure => .error failure

/-- The loop from entry `i` on, with the map it leaves. -/
def loadEntries (map : HeightMap) (i : Nat) :
    List UniValue → HeightMap × Except LoadFailure Unit
  | [] => (map, .ok ())
  | entry :: rest =>
    match loadEntry map i entry with
    | .ok next => loadEntries next (i + 1) rest
    | .error (.failed err) => (∅, .error (.failed err))
    | .error (.threw what) => (map, .error (.threw what))

/-- `LoadFromFile`; `none` is a file that cannot be opened. -/
def loadFromFile (read : List Byte → Option UniValue)
    (file : Option (List Byte)) : HeightMap × Except LoadFailure Unit :=
  match file with
  | none => (∅, .error (.failed "cannot open file"))
  | some body =>
    match read body with
    | none => (∅, .error (.failed "JSON parse failure"))
    | some (.obj members) =>
      match (UniValue.obj members).get "checkpoints" with
      | .arr list => loadEntries ∅ 0 list
      | _ => (∅, .error (.failed "missing \"checkpoints\" array"))
    | some _ => (∅, .error (.failed "top-level JSON must be an object"))

/-! ## What an entry lists -/

/-- The entry lists the pair. -/
def Lists (entry : UniValue) (height : Int) (parsed : Lane) : Prop :=
  ∃ text hashHex, entry.get "height" = .num text ∧
    entry.get "hash" = .str hashHex ∧ getInt text = some height ∧
      0 ≤ height ∧ fromHex hashHex.toList = some parsed

/-- The height is a number that `getInt` cannot convert. -/
def Unconvertible (entry : UniValue) : Prop :=
  ∃ text hashHex, entry.get "height" = .num text ∧
    entry.get "hash" = .str hashHex ∧ getInt text = none

/-- What the checks on one entry find. -/
theorem readEntry_cases (i : Nat) (entry : UniValue) :
    (∃ height parsed, Lists entry height parsed ∧
        readEntry i entry = .ok (height, parsed)) ∨
      (Unconvertible entry ∧
        ∃ what, readEntry i entry = .error (.threw what)) ∨
      ((∀ height parsed, ¬ Lists entry height parsed) ∧
        ¬ Unconvertible entry ∧
          ∃ err, readEntry i entry = .error (.failed err)) := by
  cases entry with
  | obj members =>
    rw [readEntry]
    split
    · next text hashHex heightEq hashEq =>
      split
      · next failed =>
        exact Or.inr (Or.inl ⟨⟨text, hashHex, heightEq, hashEq, failed⟩,
          _, rfl⟩)
      · next height converted =>
        have plain (refused : ∀ parsed, 0 ≤ height →
            fromHex hashHex.toList ≠ some parsed) :
            (∀ other parsed, ¬ Lists (.obj members) other parsed) ∧
              ¬ Unconvertible (.obj members) := by
          constructor
          · rintro other parsed ⟨text', hex', h1, h2, h3, h4, h5⟩
            rw [heightEq, UniValue.num.injEq] at h1
            rw [hashEq, UniValue.str.injEq] at h2
            rw [← h1, converted, Option.some_inj] at h3
            rw [← h2] at h5
            exact refused parsed (h3 ▸ h4) h5
          · rintro ⟨text', hex', h1, _, h3⟩
            rw [heightEq, UniValue.num.injEq] at h1
            rw [← h1, converted] at h3
            cases h3
        split_ifs with negative malformed
        · obtain ⟨unlisted, convertible⟩ :=
            plain fun parsed nonnegative => absurd negative (by omega)
          exact Or.inr (Or.inr ⟨unlisted, convertible, _, rfl⟩)
        · obtain ⟨unlisted, convertible⟩ := plain fun parsed _ found => by
            rw [fromHex, if_pos malformed] at found
            cases found
          exact Or.inr (Or.inr ⟨unlisted, convertible, _, rfl⟩)
        · split
          · next absent =>
            obtain ⟨unlisted, convertible⟩ := plain fun parsed _ found => by
              rw [absent] at found
              cases found
            exact Or.inr (Or.inr ⟨unlisted, convertible, _, rfl⟩)
          · next parsed found =>
            exact Or.inl ⟨height, parsed, ⟨text, hashHex, heightEq, hashEq,
              converted, by omega, found⟩, rfl⟩
    · next other =>
      refine Or.inr (Or.inr ⟨?_, ?_, _, rfl⟩)
      · rintro height parsed ⟨text, hashHex, heightEq, hashEq, _⟩
        exact other text hashHex heightEq hashEq
      · rintro ⟨text, hashHex, heightEq, hashEq, _⟩
        exact other text hashHex heightEq hashEq
  | _ =>
    refine Or.inr (Or.inr ⟨?_, ?_, _, rfl⟩)
    · rintro height parsed ⟨text, hashHex, heightEq, _⟩
      cases heightEq
    · rintro ⟨text, hashHex, heightEq, _⟩
      cases heightEq

theorem Lists.unique {entry : UniValue} {height other : Int}
    {parsed found : Lane} (lists : Lists entry height parsed)
    (again : Lists entry other found) : height = other ∧ parsed = found := by
  obtain ⟨text, hashHex, heightEq, hashEq, converted, _, parsedEq⟩ := lists
  obtain ⟨text', hashHex', heightEq', hashEq', converted', _, parsedEq'⟩ :=
    again
  rw [heightEq, UniValue.num.injEq] at heightEq'
  rw [hashEq, UniValue.str.injEq] at hashEq'
  rw [← heightEq', converted, Option.some_inj] at converted'
  rw [← hashEq', parsedEq, Option.some_inj] at parsedEq'
  exact ⟨converted', parsedEq'⟩

theorem Lists.convertible {entry : UniValue} {height : Int} {parsed : Lane}
    (lists : Lists entry height parsed) : ¬ Unconvertible entry := by
  obtain ⟨text, hashHex, heightEq, _, converted, _⟩ := lists
  rintro ⟨text', hashHex', heightEq', _, failed⟩
  rw [heightEq, UniValue.num.injEq] at heightEq'
  rw [← heightEq', converted] at failed
  cases failed

/-! ## The map after some entries -/

/-- The map holds exactly the pairs of the entries. -/
structure Loads (map : HeightMap) (entries : List UniValue) : Prop where
  listed : ∀ entry ∈ entries, ∃ height parsed, Lists entry height parsed
  lookup : ∀ height parsed, map.lookup height = some parsed ↔
    ∃ entry ∈ entries, Lists entry height parsed

/-- Each entry lists a pair, and no two list different hashes for a height. -/
structure Consistent (entries : List UniValue) : Prop where
  listed : ∀ entry ∈ entries, ∃ height parsed, Lists entry height parsed
  agree : ∀ first ∈ entries, ∀ second ∈ entries, ∀ height parsed other,
    Lists first height parsed → Lists second height other → parsed = other

theorem Loads.consistent {map : HeightMap} {entries : List UniValue}
    (loads : Loads map entries) : Consistent entries where
  listed := loads.listed
  agree := by
    intro first inFirst second inSecond height parsed other lists again
    have one := (loads.lookup height parsed).mpr ⟨first, inFirst, lists⟩
    have two := (loads.lookup height other).mpr ⟨second, inSecond, again⟩
    rw [one, Option.some_inj] at two
    exact two

theorem loads_nil : Loads ∅ [] where
  listed := nofun
  lookup := by simp

theorem emplace_cases (map : HeightMap) (height : Int) (parsed : Lane) :
    (∃ next, emplace map height parsed = .ok next ∧
        (∀ present, map.lookup height = some present → present = parsed) ∧
        ∀ other, next.lookup other =
          if other = height then some parsed else map.lookup other) ∨
      (∃ present err, map.lookup height = some present ∧ present ≠ parsed ∧
        emplace map height parsed = .error (.failed err)) := by
  rw [emplace]
  split
  · next absent =>
    refine Or.inl ⟨_, rfl, by simp [absent], fun other => ?_⟩
    rcases eq_or_ne other height with rfl | different
    · rw [if_pos rfl, AList.lookup_insert]
    · rw [if_neg different, AList.lookup_insert_ne different]
  · next present found =>
    split_ifs with same
    · refine Or.inl ⟨_, rfl, ?_, fun other => ?_⟩
      · intro another foundAgain
        rw [found, Option.some_inj] at foundAgain
        rw [← foundAgain, same]
      · rcases eq_or_ne other height with rfl | different
        · rw [if_pos rfl, found, same]
        · rw [if_neg different]
    · exact Or.inr ⟨present, _, found, same, rfl⟩

/-- One more entry: it is loaded, it throws, or the load fails; and it fails
only on an entry that cannot be added to the ones before. -/
theorem loadEntry_cases
    {map : HeightMap} {before : List UniValue} (loads : Loads map before)
    (i : Nat) (entry : UniValue) :
    (∃ next, loadEntry map i entry = .ok next ∧
        Loads next (before ++ [entry]) ∧ ¬ Unconvertible entry) ∨
      (Unconvertible entry ∧
        ∃ what, loadEntry map i entry = .error (.threw what)) ∨
      (¬ Unconvertible entry ∧
        (∀ after, ¬ Consistent (before ++ entry :: after)) ∧
        ∃ err, loadEntry map i entry = .error (.failed err)) := by
  rw [loadEntry]
  rcases readEntry_cases i entry with
    ⟨height, parsed, lists, read⟩ | ⟨unconvertible, what, read⟩ |
      ⟨unlisted, convertible, err, read⟩
  · rw [read]
    dsimp only
    rcases emplace_cases map height parsed with
      ⟨next, placed, compatible, lookup⟩ |
        ⟨present, err, found, different, placed⟩
    · refine Or.inl ⟨next, placed, ⟨?_, ?_⟩, lists.convertible⟩
      · intro other member
        rcases List.mem_append.mp member with old | new
        · exact loads.listed other old
        · rw [List.mem_singleton.mp new]
          exact ⟨height, parsed, lists⟩
      · intro other value
        rw [lookup]
        constructor
        · intro found
          split_ifs at found with same
          · refine ⟨entry, by simp, ?_⟩
            rw [same, ← Option.some_inj.mp found]
            exact lists
          · obtain ⟨older, member, listed⟩ :=
              (loads.lookup other value).mp found
            exact ⟨older, List.mem_append_left _ member, listed⟩
        · rintro ⟨older, member, listed⟩
          rcases List.mem_append.mp member with old | new
          · have found := (loads.lookup other value).mpr ⟨older, old, listed⟩
            split_ifs with same
            · rw [same] at found
              rw [compatible value found]
            · exact found
          · rw [List.mem_singleton.mp new] at listed
            obtain ⟨rfl, rfl⟩ := lists.unique listed
            rw [if_pos rfl]
    · refine Or.inr (Or.inr ⟨lists.convertible, fun after consistent => ?_,
        err, placed⟩)
      obtain ⟨older, member, listed⟩ :=
        (loads.lookup height present).mp found
      exact different (consistent.agree older (by simp [member]) entry
        (by simp) height present parsed listed lists)
  · rw [read]
    exact Or.inr (Or.inl ⟨unconvertible, what, rfl⟩)
  · rw [read]
    refine Or.inr (Or.inr ⟨convertible, fun after consistent => ?_,
      err, rfl⟩)
    obtain ⟨height, parsed, lists⟩ := consistent.listed entry (by simp)
    exact unlisted height parsed lists

/-! ## The whole file -/

/-- After entries that load comes one whose height cannot be converted. -/
def ThrowsAmong (before entries : List UniValue) : Prop :=
  ∃ good entry rest, entries = good ++ entry :: rest ∧
    Consistent (before ++ good) ∧ Unconvertible entry

theorem throwsAmong_cons
    {before : List UniValue} {entry : UniValue} {rest : List UniValue}
    (convertible : ¬ Unconvertible entry) :
    ThrowsAmong before (entry :: rest) ↔
      ThrowsAmong (before ++ [entry]) rest := by
  constructor
  · rintro ⟨good, thrower, after, shape, consistent, unconvertible⟩
    cases good with
    | nil =>
      obtain ⟨rfl, rfl⟩ := List.cons.inj shape
      exact absurd unconvertible convertible
    | cons first good =>
      obtain ⟨rfl, rfl⟩ := List.cons.inj shape
      exact ⟨good, thrower, after, rfl, by simpa using consistent,
        unconvertible⟩
  · rintro ⟨good, thrower, after, rfl, consistent, unconvertible⟩
    exact ⟨entry :: good, thrower, after, rfl, by simpa using consistent,
      unconvertible⟩

/-- The loop loads everything, or fails and empties the map, or throws; and it
throws exactly if an entry it reaches has a height it cannot convert. -/
theorem loadEntries_cases
    (entries : List UniValue) {map : HeightMap} {before : List UniValue}
    (loads : Loads map before) (i : Nat) :
    (¬ ThrowsAmong before entries ∧
        ∃ final, loadEntries map i entries = (final, .ok ()) ∧
          Loads final (before ++ entries)) ∨
      (¬ ThrowsAmong before entries ∧
        ∃ err, loadEntries map i entries = (∅, .error (.failed err))) ∨
      (ThrowsAmong before entries ∧
        ∃ final what,
          loadEntries map i entries = (final, .error (.threw what))) := by
  induction entries generalizing map before i with
  | nil =>
    refine Or.inl ⟨?_, map, rfl, by simpa using loads⟩
    rintro ⟨good, entry, rest, shape, _⟩
    cases good <;> cases shape
  | cons entry rest induction =>
    rw [loadEntries]
    rcases loadEntry_cases loads i entry with
      ⟨next, loaded, more, convertible⟩ | ⟨unconvertible, what, loaded⟩ |
        ⟨convertible, stuck, err, loaded⟩
    · rw [loaded, throwsAmong_cons convertible]
      have step := induction more (i + 1)
      rw [List.append_assoc, List.singleton_append] at step
      exact step
    · rw [loaded]
      exact Or.inr (Or.inr ⟨⟨[], entry, rest, rfl,
        by simpa using loads.consistent, unconvertible⟩, map, what, rfl⟩)
    · rw [loaded]
      refine Or.inr (Or.inl ⟨?_, err, rfl⟩)
      rw [throwsAmong_cons convertible]
      rintro ⟨good, thrower, after, _, consistent, _⟩
      exact stuck good (by simpa using consistent)

/-- The file is a JSON document whose object has these checkpoints. -/
def HasCheckpoints (read : List Byte → Option UniValue)
    (file : Option (List Byte)) (entries : List UniValue) : Prop :=
  ∃ body root, file = some body ∧ read body = some root ∧
    root.get "checkpoints" = .arr entries

/-- The load returns `true` with exactly the pairs of the file, or `false` with
an empty map. -/
def AllOrNothing (read : List Byte → Option UniValue)
    (file : Option (List Byte)) : Prop :=
  ((loadFromFile read file).2 = .ok () ∧
      ∃ entries, HasCheckpoints read file entries ∧
        Loads (loadFromFile read file).1 entries) ∨
    (∃ err, (loadFromFile read file).2 = .error (.failed err)) ∧
      (loadFromFile read file).1 = ∅

theorem HasCheckpoints.unique
    {read : List Byte → Option UniValue} {file : Option (List Byte)}
    {entries others : List UniValue} (has : HasCheckpoints read file entries)
    (again : HasCheckpoints read file others) : entries = others := by
  obtain ⟨body, root, rfl, parsed, checkpoints⟩ := has
  obtain ⟨body', root', same, parsed', checkpoints'⟩ := again
  rw [← Option.some_inj.mp same, parsed, Option.some_inj] at parsed'
  rw [← parsed', checkpoints, UniValue.arr.injEq] at checkpoints'
  exact checkpoints'

theorem loadFromFile_cases
    (read : List Byte → Option UniValue) (file : Option (List Byte)) :
    (∃ entries, HasCheckpoints read file entries ∧
        loadFromFile read file = loadEntries ∅ 0 entries) ∨
      ((∀ entries, ¬ HasCheckpoints read file entries) ∧
        ∃ err, loadFromFile read file = (∅, .error (.failed err))) := by
  cases file with
  | none =>
    refine Or.inr ⟨?_, _, rfl⟩
    rintro entries ⟨body, root, missing, _⟩
    cases missing
  | some body =>
    rw [loadFromFile]
    have other (root : UniValue) (parsed : read body = some root)
        (plain : ∀ entries, root.get "checkpoints" ≠ .arr entries) :
        ∀ entries, ¬ HasCheckpoints read (some body) entries := by
      rintro entries ⟨body', root', same, parsed', checkpoints⟩
      rw [← Option.some_inj.mp same, parsed, Option.some_inj] at parsed'
      rw [← parsed'] at checkpoints
      exact plain entries checkpoints
    split
    · next unread =>
      refine Or.inr ⟨?_, _, rfl⟩
      rintro entries ⟨body', root, same, parsed, _⟩
      rw [← Option.some_inj.mp same, unread] at parsed
      cases parsed
    · next members parsed =>
      split
      · next entries checkpoints =>
        exact Or.inl ⟨entries, ⟨body, _, rfl, parsed, checkpoints⟩, rfl⟩
      · next plain => exact Or.inr ⟨other _ parsed plain, _, rfl⟩
    · next root notObject parsed =>
      refine Or.inr ⟨other root parsed fun entries found => ?_, _, rfl⟩
      cases root with
      | obj members => exact notObject members rfl
      | _ => cases found

/-- Loading is all or nothing exactly if the file has no entry that follows
loadable ones and whose height is a number but no `int`. -/
theorem load_all_or_nothing_iff
    (read : List Byte → Option UniValue) (file : Option (List Byte)) :
    AllOrNothing read file ↔
      ¬ ∃ entries, HasCheckpoints read file entries ∧
        ThrowsAmong [] entries := by
  rw [AllOrNothing]
  rcases loadFromFile_cases read file with
    ⟨entries, has, runs⟩ | ⟨none, err, failed⟩
  · have only : (∃ others, HasCheckpoints read file others ∧
        ThrowsAmong [] others) ↔ ThrowsAmong [] entries := by
      constructor
      · rintro ⟨others, again, throws⟩
        rw [has.unique again]
        exact throws
      · exact fun throws => ⟨entries, has, throws⟩
    rw [only, runs]
    rcases loadEntries_cases entries loads_nil 0 with
      ⟨quiet, final, loaded, loads⟩ | ⟨quiet, err, failed⟩ |
        ⟨throws, final, what, threw⟩
    · rw [loaded]
      exact iff_of_true (Or.inl ⟨rfl, entries, has, loads⟩) quiet
    · rw [failed]
      exact iff_of_true (Or.inr ⟨⟨err, rfl⟩, rfl⟩) quiet
    · rw [threw]
      refine iff_of_false ?_ (not_not.mpr throws)
      rintro (⟨loaded, _⟩ | ⟨⟨err, failed⟩, _⟩)
      · cases loaded
      · cases failed
  · rw [failed]
    refine iff_of_true (Or.inr ⟨⟨err, rfl⟩, rfl⟩) ?_
    rintro ⟨entries, has, _⟩
    exact none entries has

/-- Sixty-four zeros. -/
def zeroHex : String :=
  "0000000000000000000000000000000000000000000000000000000000000000"

/-- A checkpoint at the given height. -/
def checkpointAt (height : String) : UniValue :=
  .obj [("height", .num height), ("hash", .str zeroHex)]

/-- A file with a second entry of the height `1.5`. -/
def fractionalFile : UniValue :=
  .obj [("checkpoints", .arr [checkpointAt "7", checkpointAt "1.5"])]

/-- Its text. -/
def fractionalText : List Byte :=
  ("\x7b\"checkpoints\":[\x7b\"height\":7,\"hash\":\"" ++ zeroHex ++
    "\"\x7d,\x7b\"height\":1.5,\"hash\":\"" ++ zeroHex ++
      "\"\x7d]\x7d").toList.map fun letter => BitVec.ofNat 8 letter.toNat

/-- A reader that accepts this text only. -/
def readFractional (body : List Byte) : Option UniValue :=
  if body = fractionalText then some fractionalFile else none

/-- The exception leaves the call, and the first checkpoint is loaded. -/
theorem fractional_height_leaves_part_loaded :
    (loadFromFile readFractional (some fractionalText)).2 =
        .error (.threw "JSON integer out of range") ∧
      (loadFromFile readFractional (some fractionalText)).1.lookup 7 =
        some (fun _ => 0) := by
  have runs : loadFromFile readFractional (some fractionalText) =
      loadEntries ∅ 0 [checkpointAt "7", checkpointAt "1.5"] := by
    rw [loadFromFile, readFractional, if_pos rfl]
    rfl
  rw [runs]
  exact ⟨by decide, by decide⟩

end B3Chain.Node
