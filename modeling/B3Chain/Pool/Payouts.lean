import B3Chain.Machine.Tasks
import B3Chain.Pool.Ledger

/-!
# Payouts

A payout run reads the balances, asks the wallet for its balance, sends, and
debits the ledger in a transaction after the send.  A run of the daemon is
kept from overlapping another one of the daemon by a flag in its process; the
command `pay-now` is a process of its own.  The wallet may send while the
reply is lost, and the debit may fail after the send: nothing is recorded
then, and the next run reads the old balances.
-/

namespace B3Chain.Pool

open Words Machine

/-- A row of `users` as far as payouts read it. -/
structure UserRow where
  id : Nat
  emailVerified : Bool
  payoutAddress : Option JsString
  minimumPayoutB3c : Int
  deriving DecidableEq

/-- A line of `debitPlan`. -/
structure Debit where
  userId : Nat
  amount : Int
  address : JsString
  deriving DecidableEq

/-- The ledger, what the wallet has sent, and the daemon's flag `running`. -/
structure Books where
  users : List UserRow
  entries : List BalanceEntry
  nextPayoutId : Nat
  sent : List Debit
  running : Bool
  deriving DecidableEq

/-- Users, an empty ledger and a wallet that has sent nothing. -/
def Books.opened (users : List UserRow) : Books where
  users := users
  entries := []
  nextPayoutId := 1
  sent := []
  running := false

/-! ## Sums over the ledger -/

/-- The sum of a user's entries of some kinds. -/
def entrySum (entries : List BalanceEntry) (user : Nat)
    (kinds : EntryKind → Bool) : Int :=
  ((entries.filter fun entry =>
    entry.userId = user && kinds entry.kind).map BalanceEntry.deltaB3c).sum

/-- The total a list of debits has for a user. -/
def debitTotal (debits : List Debit) (user : Nat) : Int :=
  ((debits.filter fun debit => debit.userId = user).map Debit.amount).sum

namespace Books

variable (books : Books)

/-- `SUM(delta_b3c)` of a user. -/
def balance (user : Nat) : Int :=
  entrySum books.entries user fun _ => true

/-- A user's credits and adjustments. -/
def granted (user : Nat) : Int :=
  entrySum books.entries user fun kind =>
    kind = .credit || kind = .adjustment

/-- What the ledger shows as paid out to a user. -/
def debited (user : Nat) : Int :=
  -entrySum books.entries user fun kind => kind = .debit

/-- What the wallet has sent on behalf of a user. -/
def sentTo (user : Nat) : Int :=
  debitTotal books.sent user

end Books

/-! ## A payout run -/

/-- `isValidB3AddressForNetwork` for the configured network. -/
abbrev AddressCheck := JsString → Bool

/-- The debits of the users whose balance is due. -/
def debitPlan (isValid : AddressCheck) (books : Books) : List Debit :=
  (books.users.mergeSort fun left right => left.id ≤ right.id).filterMap
    fun user =>
      match user.emailVerified, user.payoutAddress with
      | true, some address =>
        let balance := books.balance user.id
        if balance < user.minimumPayoutB3c ∨ balance ≤ 0 then none
        else if isValid address then
          some { userId := user.id, amount := balance, address }
        else none
      | _, _ => none

/-- `total`. -/
def planTotal (plan : List Debit) : Int :=
  (plan.map Debit.amount).sum

/-- The process a run belongs to. -/
inductive Owner
  | daemon
  | payNow
  deriving DecidableEq, Repr

/-- Where a run waits. -/
inductive PayoutStage
  | begin
  | candidates
  | walletBalance (plan : List Debit)
  | send (plan : List Debit)
  | debit (plan : List Debit)
  deriving DecidableEq

/-- A run of `tick`. -/
structure PayoutRun where
  owner : Owner
  stage : PayoutStage
  deriving DecidableEq

/-- What a statement or a call of the wallet comes back with. -/
inductive PayoutReply
  | done
  | failed
  | lost
  | balance (amount : Int)
  deriving DecidableEq

/-- What is written to the ledger from outside the payout runs. -/
inductive LedgerChange
  | credit (user : Nat) (amount : Int)
  | adjust (user : Nat) (amount : Int)
  | restart
  deriving DecidableEq

namespace Books

/-- The wallet sends. -/
def send (books : Books) (plan : List Debit) : Books :=
  { books with sent := books.sent ++ plan }

/-- The entry of a debit. -/
def debitEntry (payoutId : Nat) (debit : Debit) : BalanceEntry where
  userId := debit.userId
  blockId := none
  payoutId := some payoutId
  deltaB3c := -debit.amount
  kind := .debit

/-- The transaction after the send. -/
def debit (books : Books) (plan : List Debit) : Books :=
  { books with
    entries := books.entries ++ plan.map (debitEntry books.nextPayoutId)
    nextPayoutId := books.nextPayoutId + 1 }

/-- The end of `tick`: the daemon's flag is cleared. -/
def finish (books : Books) : Owner → Books
  | .daemon => { books with running := false }
  | .payNow => books

/-- What other parts of the pool write, and a new daemon process. -/
def change (books : Books) : LedgerChange → Option Books
  | .credit user amount =>
    some { books with
      entries := books.entries ++ [⟨user, none, none, amount, .credit⟩] }
  | .adjust user amount =>
    some { books with
      entries := books.entries ++
        [⟨user, none, none, amount, .adjustment⟩] }
  | .restart => some { books with running := false }

end Books

namespace PayoutRun

/-- The run waits again. -/
def waits (payout : PayoutRun) (books : Books) (stage : PayoutStage) :
    Option (Books × Option PayoutRun) :=
  some (books, some { payout with stage })

/-- The run ends. -/
def ends (payout : PayoutRun) (books : Books) :
    Option (Books × Option PayoutRun) :=
  some (books.finish payout.owner, none)

/-- `tick` and `doPayouts` from one wait to the next. -/
def resume (isValid : AddressCheck) (books : Books) (payout : PayoutRun)
    (reply : PayoutReply) : Option (Books × Option PayoutRun) :=
  match payout.stage, reply with
  | .begin, .done =>
    match payout.owner, books.running with
    | .daemon, true => some (books, none)
    | .daemon, false =>
      payout.waits { books with running := true } .candidates
    | .payNow, _ => payout.waits books .candidates
  | .candidates, .done =>
    match debitPlan isValid books with
    | [] => payout.ends books
    | line :: rest => payout.waits books (.walletBalance (line :: rest))
  | .walletBalance plan, .balance amount =>
    if amount < planTotal plan then payout.ends books
    else payout.waits books (.send plan)
  | .send plan, .done => payout.waits (books.send plan) (.debit plan)
  | .send plan, .lost => payout.ends (books.send plan)
  | .debit plan, .done => payout.ends (books.debit plan)
  | .debit plan, .lost => payout.ends (books.debit plan)
  | .candidates, .failed => payout.ends books
  | .walletBalance _, .failed => payout.ends books
  | .send _, .failed => payout.ends books
  | .debit _, .failed => payout.ends books
  | _, _ => none

end PayoutRun

/-- The payout runs of all processes. -/
def payouts (isValid : AddressCheck) :
    Program Books PayoutRun PayoutReply LedgerChange where
  start := fun _ payout => payout.stage = .begin
  resume := PayoutRun.resume isValid
  change := Books.change

/-! ## Sends that the ledger covers -/

/--
Before a send, all that was sent to the recipients is debited and their
balances still cover the amounts.
-/
def PayoutRun.covered (books : Books) (payout : PayoutRun)
    (reply : PayoutReply) : Bool :=
  match payout.stage with
  | .send plan =>
    reply = .failed || plan.all fun line =>
      books.sentTo line.userId = books.debited line.userId &&
        debitTotal plan line.userId ≤ books.balance line.userId
  | _ => true

/-- The entry takes nothing away. -/
def LedgerChange.adds : LedgerChange → Bool
  | .credit _ amount => 0 ≤ amount
  | .adjust _ amount => 0 ≤ amount
  | .restart => true

/-- Every send is covered, and no entry from outside takes anything away. -/
def sendsCovered :
    Program.Condition Books PayoutRun PayoutReply LedgerChange where
  resume := fun books payout reply => payout.covered books reply
  kill := fun _ => True
  change := fun _ change => change.adds

instance (books : Books) (payout : PayoutRun) (reply : PayoutReply) :
    Decidable (sendsCovered.resume books payout reply) :=
  inferInstanceAs (Decidable (payout.covered books reply = true))

instance (books : Books) (change : LedgerChange) :
    Decidable (sendsCovered.change books change) :=
  inferInstanceAs (Decidable (change.adds = true))

/-- The ledger while the wallet has sent no more than was granted. -/
structure Covered (books : Books) : Prop where
  within : ∀ user, books.sentTo user ≤ books.granted user
  kinds : ∀ entry ∈ books.entries, entry.kind ≠ .fee

theorem entrySum_cons (entry : BalanceEntry) (rest : List BalanceEntry)
    (user : Nat) (kinds : EntryKind → Bool) :
    entrySum (entry :: rest) user kinds =
      (if entry.userId = user ∧ kinds entry.kind then entry.deltaB3c else 0) +
        entrySum rest user kinds := by
  unfold entrySum
  rw [List.filter_cons]
  by_cases counted : entry.userId = user ∧ kinds entry.kind
  · rw [if_pos counted, if_pos (by simpa using counted), List.map_cons,
      List.sum_cons]
  · rw [if_neg counted, if_neg (by simpa using counted), zero_add]

theorem entrySum_append (left right : List BalanceEntry) (user : Nat)
    (kinds : EntryKind → Bool) :
    entrySum (left ++ right) user kinds =
      entrySum left user kinds + entrySum right user kinds := by
  simp only [entrySum, List.filter_append, List.map_append, List.sum_append]

theorem debitTotal_append (left right : List Debit) (user : Nat) :
    debitTotal (left ++ right) user =
      debitTotal left user + debitTotal right user := by
  simp only [debitTotal, List.filter_append, List.map_append, List.sum_append]

/-- A user without a line is sent nothing. -/
theorem debitTotal_of_absent {plan : List Debit} {user : Nat}
    (absent : ∀ line ∈ plan, line.userId ≠ user) :
    debitTotal plan user = 0 := by
  rw [debitTotal, List.filter_eq_nil_iff.mpr, List.map_nil, List.sum_nil]
  intro line member
  simpa using absent line member

/-- Entries are granted or debited. -/
theorem entrySum_split {entries : List BalanceEntry}
    (kinds : ∀ entry ∈ entries, entry.kind ≠ .fee) (user : Nat) :
    entrySum entries user (fun _ => true) =
      entrySum entries user
          (fun kind => kind = .credit || kind = .adjustment) +
        entrySum entries user (fun kind => kind = .debit) := by
  induction entries with
  | nil => rfl
  | cons entry rest induction =>
    rw [entrySum_cons, entrySum_cons, entrySum_cons,
      induction fun later member => kinds later (.tail _ member)]
    have known := kinds entry (.head _)
    cases kind : entry.kind with
    | credit | debit | adjustment =>
      simp
      omega
    | fee => exact absurd kind known

/-- A balance is what was granted less what was debited. -/
theorem Covered.balance_eq {books : Books} (covered : Covered books)
    (user : Nat) :
    books.balance user = books.granted user - books.debited user := by
  rw [Books.balance, entrySum_split covered.kinds, Books.granted,
    Books.debited, sub_neg_eq_add]

theorem finish_entries (books : Books) (owner : Owner) :
    (books.finish owner).entries = books.entries := by
  cases owner <;> rfl

theorem finish_sent (books : Books) (owner : Owner) :
    (books.finish owner).sent = books.sent := by
  cases owner <;> rfl

/-- What a run writes when it is resumed. -/
theorem PayoutRun.resume_writes {isValid : AddressCheck}
    {books next : Books} {payout : PayoutRun} {reply : PayoutReply}
    {after : Option PayoutRun}
    (ran : payout.resume isValid books reply = some (next, after)) :
    (next.entries = books.entries ∧ next.sent = books.sent) ∨
      (∃ plan, payout.stage = .send plan ∧ reply ≠ .failed ∧
        next.entries = books.entries ∧ next.sent = books.sent ++ plan) ∨
      ∃ plan, payout.stage = .debit plan ∧
        next.entries = books.entries ++
          plan.map (Books.debitEntry books.nextPayoutId) ∧
        next.sent = books.sent := by
  have same {ended : Option PayoutRun}
      (unchanged : payout.ends books = some (next, ended)) :
      next.entries = books.entries ∧ next.sent = books.sent := by
    cases unchanged
    exact ⟨finish_entries .., finish_sent ..⟩
  unfold resume at ran
  split at ran
  · split at ran
    · cases ran
      exact .inl ⟨rfl, rfl⟩
    · cases ran
      exact .inl ⟨rfl, rfl⟩
    · cases ran
      exact .inl ⟨rfl, rfl⟩
  · split at ran
    · exact .inl (same ran)
    · cases ran
      exact .inl ⟨rfl, rfl⟩
  · split at ran
    · exact .inl (same ran)
    · cases ran
      exact .inl ⟨rfl, rfl⟩
  · next plan stage =>
      cases ran
      exact .inr (.inl ⟨plan, stage, nofun, rfl, rfl⟩)
  · next plan stage =>
      cases ran
      exact .inr (.inl ⟨plan, stage, nofun, finish_entries ..,
        finish_sent ..⟩)
  · next plan stage =>
      cases ran
      exact .inr (.inr ⟨plan, stage, finish_entries .., finish_sent ..⟩)
  · next plan stage =>
      cases ran
      exact .inr (.inr ⟨plan, stage, finish_entries .., finish_sent ..⟩)
  · exact .inl (same ran)
  · exact .inl (same ran)
  · exact .inl (same ran)
  · exact .inl (same ran)
  · cases ran

section

variable {isValid : AddressCheck} {books next : Books}

theorem Covered.of_eq (covered : Covered books)
    (entries : next.entries = books.entries)
    (sent : next.sent = books.sent) : Covered next := by
  constructor
  · intro user
    rw [Books.sentTo, sent, Books.granted, entries]
    exact covered.within user
  · rw [entries]
    exact covered.kinds

/-- A send that the ledger covers. -/
theorem Covered.of_send {plan : List Debit} (covered : Covered books)
    (still : ∀ line ∈ plan,
      books.sentTo line.userId = books.debited line.userId ∧
        debitTotal plan line.userId ≤ books.balance line.userId)
    (entries : next.entries = books.entries)
    (sent : next.sent = books.sent ++ plan) : Covered next := by
  constructor
  · intro user
    rw [Books.sentTo, sent, debitTotal_append, Books.granted, entries]
    by_cases due : ∃ line ∈ plan, line.userId = user
    · obtain ⟨line, member, rfl⟩ := due
      obtain ⟨settled, enough⟩ := still line member
      rw [covered.balance_eq] at enough
      change books.sentTo line.userId + debitTotal plan line.userId ≤
        books.granted line.userId
      omega
    · rw [debitTotal_of_absent fun line member same => due ⟨line, member, same⟩,
        add_zero]
      exact covered.within user
  · rw [entries]
    exact covered.kinds

/-- A debit changes nothing that was granted. -/
theorem granted_debitEntries (payoutId : Nat) (plan : List Debit)
    (user : Nat) :
    entrySum (plan.map (Books.debitEntry payoutId)) user
      (fun kind => kind = .credit || kind = .adjustment) = 0 := by
  rw [entrySum, List.filter_eq_nil_iff.mpr, List.map_nil, List.sum_nil]
  intro entry member
  obtain ⟨line, -, rfl⟩ := List.mem_map.mp member
  simp [Books.debitEntry]

theorem Covered.of_debit {plan : List Debit} {payoutId : Nat}
    (covered : Covered books)
    (entries : next.entries = books.entries ++
      plan.map (Books.debitEntry payoutId))
    (sent : next.sent = books.sent) : Covered next := by
  constructor
  · intro user
    rw [Books.sentTo, sent, Books.granted, entries, entrySum_append,
      granted_debitEntries, add_zero]
    exact covered.within user
  · intro entry member
    rw [entries] at member
    obtain old | new := List.mem_append.mp member
    · exact covered.kinds entry old
    · obtain ⟨line, -, rfl⟩ := List.mem_map.mp new
      exact nofun

/-- An entry that grants a non-negative amount. -/
theorem Covered.of_grant {entry : BalanceEntry} (covered : Covered books)
    (entries : next.entries = books.entries ++ [entry])
    (sent : next.sent = books.sent) (kind : entry.kind ≠ .fee)
    (amount : 0 ≤ entry.deltaB3c) : Covered next := by
  constructor
  · intro user
    rw [Books.sentTo, sent, Books.granted, entries, entrySum_append,
      entrySum_cons]
    have before := covered.within user
    change books.sentTo user ≤ books.granted user + (_ + 0)
    split
    · omega
    · omega
  · intro other member
    rw [entries] at member
    obtain old | new := List.mem_append.mp member
    · exact covered.kinds other old
    · rw [List.mem_singleton.mp new]
      exact kind

/-- Payout runs whose sends are covered keep the ledger covered. -/
theorem keeps_covered (isValid : AddressCheck) :
    Program.Keeps (payouts isValid) sendsCovered Covered
      (fun _ _ => True) where
  start := fun _ _ _ _ => trivial
  resume := by
    intro books payout reply next after covered _ still ran
    refine ⟨?_, fun _ _ => trivial⟩
    obtain ⟨entries, sent⟩ | ⟨plan, stage, answered, entries, sent⟩ |
      ⟨plan, -, entries, sent⟩ := PayoutRun.resume_writes ran
    · exact covered.of_eq entries sent
    · refine covered.of_send (fun line member => ?_) entries sent
      change payout.covered books reply at still
      unfold PayoutRun.covered at still
      rw [stage] at still
      simp only [answered, decide_false, Bool.false_or] at still
      have checked := List.all_eq_true.mp still line member
      rw [Bool.and_eq_true, decide_eq_true_eq, decide_eq_true_eq] at checked
      exact checked
    · exact covered.of_debit entries sent
  others := fun _ _ _ _ _ _ _ _ _ _ => trivial
  change := by
    intro books change next covered adds changed
    refine ⟨?_, fun _ _ => trivial⟩
    cases change with
    | credit user amount | adjust user amount =>
      cases changed
      have nonneg : 0 ≤ amount :=
        of_decide_eq_true (show decide (0 ≤ amount) = true from adds)
      exact covered.of_grant rfl rfl nofun nonneg
    | restart =>
      cases changed
      exact covered.of_eq rfl rfl

/--
In every run in which the sends are covered, the wallet has sent no more on
behalf of a user than the user's credits and adjustments.
-/
theorem payouts_within_ledger {users : List UserRow}
    {events : List (TaskEvent PayoutRun PayoutReply LedgerChange)}
    {final : System Books PayoutRun}
    (covered : Along (payouts isValid).step (Program.Meets sendsCovered)
      (System.idle (Books.opened users)) events)
    (taken : run (payouts isValid).step (System.idle (Books.opened users))
      events = some final) :
    ∀ user, final.store.sentTo user ≤ final.store.granted user := by
  have start : Covered (Books.opened users) :=
    ⟨fun _ => le_rfl, fun _ member => absurd member List.not_mem_nil⟩
  exact (Program.run_holds (keeps_covered isValid)
    (Program.holds_idle start) covered taken).1.within

end

/-! ### One user -/

/-- A user with an address and a small minimum. -/
def payee : UserRow where
  id := 7
  emailVerified := true
  payoutAddress := some []
  minimumPayoutB3c := 1

/-- A run of the daemon up to its send. -/
def untilSend (index : Nat) :
    List (TaskEvent PayoutRun PayoutReply LedgerChange) :=
  [.spawn index ⟨.daemon, .begin⟩, .resume index .done, .resume index .done,
    .resume index (.balance 1000)]

/-- What the wallet sent and what was granted, after some events. -/
def paidAfter
    (events : List (TaskEvent PayoutRun PayoutReply LedgerChange)) :
    Option (Int × Int) :=
  (run (payouts fun _ => true).step (System.idle (Books.opened [payee]))
    events).map fun final => (final.store.sentTo 7, final.store.granted 7)

/-- A send whose reply is lost is repeated by the next run. -/
theorem lost_reply_pays_twice :
    ∃ final,
      run (payouts fun _ => true).step (System.idle (Books.opened [payee]))
          ([.change (.credit 7 100)] ++ untilSend 0 ++ [.resume 0 .lost] ++
            untilSend 1 ++ [.resume 1 .done]) = some final ∧
        final.store.granted 7 < final.store.sentTo 7 := by
  have after : paidAfter ([.change (.credit 7 100)] ++ untilSend 0 ++
      [.resume 0 .lost] ++ untilSend 1 ++ [.resume 1 .done]) =
        some (200, 100) := by
    decide +kernel
  rw [paidAfter, Option.map_eq_some_iff] at after
  obtain ⟨final, taken, found⟩ := after
  rw [Prod.mk.injEq] at found
  refine ⟨final, taken, ?_⟩
  rw [found.1, found.2]
  decide

/-- A run that is answered pays what was granted. -/
theorem answered_run_pays_once :
    ∃ final,
      run (payouts fun _ => true).step (System.idle (Books.opened [payee]))
          ([.change (.credit 7 100)] ++ untilSend 0 ++
            [.resume 0 .done, .resume 0 .done]) = some final ∧
        final.store.sentTo 7 = 100 ∧
          ∀ user, final.store.sentTo user ≤ final.store.granted user := by
  have after : paidAfter ([.change (.credit 7 100)] ++ untilSend 0 ++
      [.resume 0 .done, .resume 0 .done]) = some (100, 100) := by
    decide +kernel
  rw [paidAfter, Option.map_eq_some_iff] at after
  obtain ⟨final, taken, found⟩ := after
  rw [Prod.mk.injEq] at found
  refine ⟨final, taken, found.1, payouts_within_ledger ?_ taken⟩
  apply Program.along_of_checks
  decide +kernel

end B3Chain.Pool
