import B3Chain.Machine.Run

/-!
# Writing shares

`accept` looks up the user of a share and upserts the worker, then pushes the
share to a buffer; a flush takes the whole buffer and inserts it in one
transaction, and puts it back if the transaction reports an error.  Nobody
handles the promise of `accept`: a lookup that fails ends the process, and what
is resolved or buffered then is lost.  A share of a known user is in exactly
one place as long as no event loses it and no transaction that took effect
reports an error.
-/

namespace B3Chain.Pool

open Machine

universe u

/-- What a statement or a transaction comes back with: an error is reported in
the last two cases, and `lost` took effect all the same. -/
inductive Written
  | done
  | failed
  | lost
  deriving DecidableEq, Repr

/-- Where `accept` waits. -/
inductive ResolveStage
  | user
  | worker
  deriving DecidableEq, Repr

/-- The writer and the table `shares`; `accepted` records what was given. -/
structure ShareWriter (Share : Type u) where
  running : Bool
  accepted : List Share
  resolving : List (Share × ResolveStage)
  buf : List Share
  inFlight : List (List Share)
  rows : List Share

/-- What happens to the writer.  `died` is an end of the process for another
reason, such as a failed lookup in `acceptReject` or `acceptSig`. -/
inductive WriterEvent (Share : Type u)
  | accept (share : Share)
  | resolved (index : Nat) (reply : Written)
  | flush
  | committed (index : Nat) (reply : Written)
  | died

namespace ShareWriter

variable {Share : Type u}

/-- A writer that has just started. -/
def start : ShareWriter Share where
  running := true
  accepted := []
  resolving := []
  buf := []
  inFlight := []
  rows := []

/-- The number of buffered shares above which `accept` flushes. -/
def flushLimit : Nat := 500

/-- `this.buf.splice(0)`, and the transaction begins. -/
def flush (writer : ShareWriter Share) : ShareWriter Share :=
  { writer with
    buf := []
    inFlight := writer.inFlight ++ [writer.buf] }

/-- `this.buf.push(share)`. -/
def buffer (writer : ShareWriter Share) (share : Share) : ShareWriter Share :=
  { writer with buf := writer.buf ++ [share] }

/-- The end of `accept`. -/
def push (writer : ShareWriter Share) (share : Share) : ShareWriter Share :=
  if flushLimit < (writer.buffer share).buf.length then
    (writer.buffer share).flush
  else writer.buffer share

/-- One call of `accept` no longer resolves its share. -/
def drop (writer : ShareWriter Share) (index : Nat) : ShareWriter Share :=
  { writer with resolving := writer.resolving.eraseIdx index }

/-- The process has ended; a transaction that was begun may still take
effect. -/
def ended (writer : ShareWriter Share) : ShareWriter Share :=
  { writer with running := false, resolving := [], buf := [] }

theorem push_accepted (writer : ShareWriter Share) (pushed : Share) :
    (writer.push pushed).accepted = writer.accepted := by
  unfold push
  split
  · rfl
  · rfl

variable {writer next : ShareWriter Share} {index : Nat} {share : Share}
  {event : WriterEvent Share}

/-- The next stage of `accept` leaves the share where it is. -/
theorem map_set_resolving {stage next : ResolveStage}
    (found : writer.resolving[index]? = some (share, stage)) :
    (writer.resolving.set index (share, next)).map Prod.fst =
      writer.resolving.map Prod.fst := by
  rw [List.map_set]
  apply List.ext_getElem?
  intro other
  rw [List.getElem?_set]
  split
  · next same =>
      obtain ⟨inside, -⟩ := List.getElem?_eq_some_iff.mp found
      rw [List.length_map, if_pos inside, ← same, List.getElem?_map, found]
      rfl
  · rfl

variable [DecidableEq Share] (known : Share → Bool)

/-- A transaction has ended.  The rows of a batch are those of known users; a
running process puts the batch back if an error is reported. -/
def settle (writer : ShareWriter Share) (index : Nat) (batch : List Share)
    (reply : Written) : ShareWriter Share :=
  { writer with
    inFlight := writer.inFlight.eraseIdx index
    rows := if reply = .failed then writer.rows
      else writer.rows ++ batch.filter known
    buf := if writer.running = true ∧ reply ≠ .done then batch ++ writer.buf
      else writer.buf }

/--
One event.  A share of an unknown user is buffered without an identifier and
makes no row.
-/
def step (writer : ShareWriter Share) :
    WriterEvent Share → Option (ShareWriter Share)
  | .accept share =>
    if writer.running = false ∨ share ∈ writer.accepted then none
    else
      some { writer with
        accepted := writer.accepted ++ [share]
        resolving := writer.resolving ++ [(share, .user)] }
  | .resolved index reply =>
    (writer.resolving[index]?).map fun (share, stage) =>
      -- The promise of `accept` is rejected and nobody handles it.
      if reply ≠ .done then writer.ended
      else if stage = .user ∧ known share then
        { writer with
          resolving := writer.resolving.set index (share, .worker) }
      else (writer.drop index).push share
  | .flush => if writer.running then some writer.flush else none
  | .committed index reply =>
    (writer.inFlight[index]?).map fun batch =>
      writer.settle known index batch reply
  | .died => if writer.running then some writer.ended else none

/-! ## The places of a share -/

/-- In how many places a share is. -/
def copies (writer : ShareWriter Share) (share : Share) : Nat :=
  (writer.resolving.map Prod.fst).count share + writer.buf.count share +
    writer.inFlight.flatten.count share + writer.rows.count share

/-- Every share of a known user that was given is in exactly one place. -/
def ExactlyOnce (writer : ShareWriter Share) : Prop :=
  ∀ share ∈ writer.accepted, known share → writer.copies share = 1

/-- The share that an event gives to the writer. -/
def given : WriterEvent Share → List Share
  | .accept share => [share]
  | _ => []

/-- What an event loses: all that is resolved or buffered when the process
ends, and a batch that is rolled back when there is no process to put it
back. -/
def lost (writer : ShareWriter Share) : WriterEvent Share → List Share
  | .resolved _ reply =>
    if reply = .done then [] else writer.resolving.map Prod.fst ++ writer.buf
  | .committed index .failed =>
    if writer.running then [] else (writer.inFlight[index]?).getD []
  | .died => writer.resolving.map Prod.fst ++ writer.buf
  | _ => []

/-- What an event doubles: a batch that is stored and put back. -/
def doubled (writer : ShareWriter Share) : WriterEvent Share → List Share
  | .committed index .lost =>
    if writer.running then (writer.inFlight[index]?).getD [] else []
  | _ => []

/-- The event neither loses nor doubles a share of a known user. -/
def Reported (writer : ShareWriter Share) (event : WriterEvent Share) : Prop :=
  ∀ share ∈ writer.lost event ++ writer.doubled event, known share = false

instance (writer : ShareWriter Share) (event : WriterEvent Share) :
    Decidable (Reported known writer event) :=
  inferInstanceAs (Decidable (∀ share ∈ _, _))

/-! ## What an event does to the copies -/

theorem copies_flush (writer : ShareWriter Share) (share : Share) :
    writer.flush.copies share = writer.copies share := by
  simp only [copies, flush, List.flatten_append, List.flatten_singleton,
    List.count_append, List.count_nil]
  omega

theorem copies_push (writer : ShareWriter Share) (pushed share : Share) :
    (writer.push pushed).copies share =
      writer.copies share + [pushed].count share := by
  have buffered : (writer.buffer pushed).copies share =
      writer.copies share + [pushed].count share := by
    simp only [copies, buffer, List.count_append]
    omega
  unfold push
  split
  · rw [copies_flush, buffered]
  · exact buffered

theorem copies_ended (writer : ShareWriter Share) (share : Share) :
    writer.ended.copies share +
        (writer.resolving.map Prod.fst ++ writer.buf).count share =
      writer.copies share := by
  simp only [copies, ended, List.count_append, List.map_nil, List.count_nil]
  omega

/-- An entry and the rest are the whole list in some order. -/
theorem perm_of_getElem? {α : Type u} {list : List α} {entry : α}
    (found : list[index]? = some entry) :
    (entry :: list.eraseIdx index).Perm list := by
  obtain ⟨inside, rfl⟩ := List.getElem?_eq_some_iff.mp found
  exact List.getElem_cons_eraseIdx_perm inside

theorem copies_drop {entry : Share × ResolveStage}
    (found : writer.resolving[index]? = some entry) (share : Share) :
    (writer.drop index).copies share + [entry.1].count share =
      writer.copies share := by
  have counted := ((perm_of_getElem? found).map Prod.fst).count_eq share
  rw [List.map_cons, ← List.singleton_append, List.count_append] at counted
  simp only [copies, drop]
  omega

theorem copies_push_drop {entry : Share × ResolveStage}
    (found : writer.resolving[index]? = some entry) (share : Share) :
    ((writer.drop index).push entry.1).copies share = writer.copies share :=
  (copies_push _ _ share).trans (copies_drop found share)

theorem count_eraseIdx_inFlight {inFlight : List (List Share)}
    {batch : List Share} (found : inFlight[index]? = some batch)
    (share : Share) :
    batch.count share + (inFlight.eraseIdx index).flatten.count share =
      inFlight.flatten.count share := by
  have counted := (perm_of_getElem? found).flatten.count_eq share
  rw [List.flatten_cons, List.count_append] at counted
  exact counted

theorem copies_settle {batch : List Share}
    (found : writer.inFlight[index]? = some batch) (reply : Written)
    (isKnown : known share) :
    (writer.settle known index batch reply).copies share +
        (writer.lost (.committed index reply)).count share =
      writer.copies share +
        (writer.doubled (.committed index reply)).count share := by
  have counted := count_eraseIdx_inFlight found share
  have stored : (batch.filter known).count share = batch.count share :=
    List.count_filter isKnown
  cases reply <;> cases alive : writer.running <;>
    simp [copies, settle, lost, doubled, found, alive, stored] <;> omega

/-- What an event loses and doubles was there before. -/
theorem count_lost_le (writer : ShareWriter Share)
    (event : WriterEvent Share) (share : Share) :
    (writer.lost event ++ writer.doubled event).count share ≤
      writer.copies share := by
  have pending := copies_ended writer share
  have batches (index : Nat) :
      ((writer.inFlight[index]?).getD []).count share ≤
        writer.copies share := by
    cases found : writer.inFlight[index]? with
    | none => exact Nat.zero_le _
    | some batch =>
      have counted := count_eraseIdx_inFlight found share
      rw [Option.getD_some, copies]
      omega
  cases event with
  | accept new => exact Nat.zero_le _
  | flush => exact Nat.zero_le _
  | died =>
    simp only [lost, doubled, List.append_nil]
    omega
  | resolved index reply =>
    simp only [lost, doubled, List.append_nil]
    split
    · exact Nat.zero_le _
    · omega
  | committed index reply =>
    have batch := batches index
    cases reply <;> cases alive : writer.running <;>
      simp [lost, doubled, alive, batch]

/-- The copies of a share of a known user after an event. -/
theorem copies_step (taken : step known writer event = some next)
    (isKnown : known share) :
    next.copies share + (writer.lost event).count share =
      writer.copies share + (writer.doubled event).count share +
        (given event).count share := by
  cases event with
  | accept new =>
    rw [step] at taken
    split at taken
    · cases taken
    · cases taken
      simp only [copies, lost, doubled, given, List.map_append, List.map_cons,
        List.map_nil, List.count_append, List.count_nil]
      omega
  | flush =>
    rw [step] at taken
    split at taken
    · cases taken
      exact copies_flush writer share
    · cases taken
  | died =>
    rw [step] at taken
    split at taken
    · cases taken
      exact copies_ended writer share
    · cases taken
  | resolved index reply =>
    obtain ⟨entry, found, rfl⟩ := Option.map_eq_some_iff.mp taken
    dsimp only [lost]
    by_cases finished : reply = .done
    · rw [if_neg (not_not.mpr finished), if_pos finished]
      split
      · simp only [copies, map_set_resolving found]
        rfl
      · exact copies_push_drop found share
    · rw [if_pos finished, if_neg finished]
      exact copies_ended writer share
  | committed index reply =>
    obtain ⟨batch, found, rfl⟩ := Option.map_eq_some_iff.mp taken
    exact copies_settle known found reply isKnown

/-- What has been given after an event. -/
theorem accepted_step (taken : step known writer event = some next) :
    next.accepted = writer.accepted ++ given event ∧
      ∀ share ∈ given event, share ∉ writer.accepted := by
  have same (settled : next.accepted = writer.accepted)
      (none : given event = []) : next.accepted =
        writer.accepted ++ given event ∧
          ∀ share ∈ given event, share ∉ writer.accepted := by
    rw [none, List.append_nil]
    exact ⟨settled, fun share member => absurd member List.not_mem_nil⟩
  cases event with
  | accept new =>
    rw [step] at taken
    split at taken
    · cases taken
    · next free =>
        cases taken
        refine ⟨rfl, fun share member => ?_⟩
        rw [List.mem_singleton.mp member]
        exact fun old => free (.inr old)
  | flush | died =>
    rw [step] at taken
    split at taken <;> cases taken
    exact same rfl rfl
  | resolved index reply =>
    obtain ⟨entry, -, rfl⟩ := Option.map_eq_some_iff.mp taken
    refine same ?_ rfl
    dsimp only
    split
    · rfl
    · split
      · rfl
      · exact push_accepted ..
  | committed index reply =>
    obtain ⟨batch, -, rfl⟩ := Option.map_eq_some_iff.mp taken
    exact same rfl rfl

/-! ## Runs -/

/-- A share of a known user is in one place if it was given, and in none
else. -/
def Placed (writer : ShareWriter Share) : Prop :=
  ∀ share, known share →
    writer.copies share = if share ∈ writer.accepted then 1 else 0

theorem Placed.exactlyOnce (placed : writer.Placed known) :
    writer.ExactlyOnce known := by
  intro share member isKnown
  rw [placed share isKnown, if_pos member]

/-- A reported event leaves every share in its one place. -/
theorem Placed.step (placed : writer.Placed known)
    (reported : Reported known writer event)
    (taken : step known writer event = some next) : next.Placed known := by
  intro share isKnown
  have clear : share ∉ writer.lost event ++ writer.doubled event := by
    intro inside
    rw [reported share inside] at isKnown
    cases isKnown
  rw [List.mem_append, not_or] at clear
  obtain ⟨accepted, fresh⟩ := accepted_step known taken
  have counted := copies_step known taken isKnown
  rw [List.count_eq_zero_of_not_mem clear.1,
    List.count_eq_zero_of_not_mem clear.2, placed share isKnown] at counted
  simp only [accepted, List.mem_append]
  by_cases new : share ∈ given event
  · have once : (given event).count share = 1 := by
      cases event <;> first | exact absurd new List.not_mem_nil | skip
      rw [List.mem_singleton.mp new, given, List.count_singleton_self]
    rw [if_neg (fresh share new), once] at counted
    rw [if_pos (.inr new)]
    omega
  · rw [List.count_eq_zero_of_not_mem new] at counted
    simp only [new, or_false]
    omega

/-- An event that is not reported leaves a share nowhere or in two places. -/
theorem Placed.reported (placed : writer.Placed known)
    (taken : ShareWriter.step known writer event = some next)
    (once : next.ExactlyOnce known) : Reported known writer event := by
  intro share inside
  by_contra isKnown
  rw [Bool.not_eq_false] at isKnown
  have present := List.count_pos_iff.mpr inside
  have bounded := count_lost_le writer event share
  have before := placed share isKnown
  obtain ⟨accepted, fresh⟩ := accepted_step known taken
  have counted := copies_step known taken isKnown
  rw [List.count_append] at present bounded
  split at before
  · next member =>
      have old : share ∉ given event := fun new => fresh share new member
      have after := once share
        (accepted ▸ List.mem_append_left _ member) isKnown
      rw [List.count_eq_zero_of_not_mem old] at counted
      omega
  · omega

/-- A share up to the transaction that inserts it. -/
def untilCommitted : List (WriterEvent Nat) :=
  [.accept 7, .resolved 0 .done, .resolved 0 .done, .flush]

end ShareWriter

end B3Chain.Pool
