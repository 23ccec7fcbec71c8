import B3Chain.Stratum.StaleJobs
import B3Chain.Sv2.CreditedHeaders

/-!
# One share in two protocols

The servers of both protocols check a share with `validateShare` and report it
to the pool.  The first one splits the user name at its last dot and waits for
the answer to `submitblock`; the second one reports the whole name, takes what
follows the first dot as the worker, and reports a block whatever the node
says.  For the same job and header the reports are compared field by field.
-/

namespace B3Chain.Sv2

open Words Machine
open Stratum (Json JsError ShareInput ShareCheckOk StratumJob Hashes
  letterSetup)

/-! ## The first protocol -/

/-- What follows a submission, with the answer of the node to a block. -/
def finishShare (later : Stratum.Moment)
    (answer : Except JsError (Option JsString)) :
    Option Stratum.Await → Stratum.Handler Unit
  | some (.submitBlock pending) => do
    let _ ← Stratum.blockSubmitted later pending answer
  | _ => return ()

/-- The server, where every answer can be written. -/
def writing (setup : Stratum.Setup) : Stratum.Setup :=
  { setup with stringifies := fun _ => true }

/-- `onSubmit` to its end. -/
def accountShare (setup : Stratum.Setup) (moment later : Stratum.Moment)
    (msg : Json) (answer : Except JsError (Option JsString)) :
    Stratum.Handler Unit :=
  Stratum.submitted (writing setup) moment msg >>= finishShare later answer

/-- `submitblock` has accepted the block. -/
def blockTaken : Except JsError (Option JsString) → Bool
  | .ok none => true
  | .ok (some []) => true
  | _ => false

/-- The event of a credited share. -/
def creditedEvent (moment later : Stratum.Moment) (username : JsString)
    (input : ShareInput) (check : ShareCheckOk)
    (attest : Stratum.ShareAttest)
    (answer : Except JsError (Option JsString)) : Stratum.ShareEvent :=
  let event := Stratum.shareEvent moment username input check attest
  if check.isBlock then
    { event with
      isBlock := blockTaken answer
      blockHash :=
        if blockTaken answer then some check.blockHashHexBE else none
      blockHeight := if blockTaken answer then some input.job.height else none
      timestampMs := later.now }
  else event

/-- An action has run to its end and has sent the event. -/
def Sends (action : Stratum.Handler Unit) (desk : Stratum.Desk)
    (event : Stratum.ShareEvent) : Prop :=
  (action.perform desk).1 = .ok () ∧
    (action.perform desk).2.shared.ipc = desk.shared.ipc ++ [.share event]

theorem username_write (c : Stratum.Client) (message : Stratum.Sent) :
    (c.write message).username = c.username := by
  rw [Stratum.Client.write]
  split
  · rfl
  · rfl

variable {setup : Stratum.Setup} {check : ShareCheckOk}
  {share : Stratum.Submitted} {desk : Stratum.Desk}
  {moment : Stratum.Moment} {msg p : Json} {hashes : Hashes}

theorem sends_answerShare {later : Stratum.Moment} {id : Option Json}
    (named : msg.property "id" = .ok id) (input : ShareInput)
    (block : check.serializedBlockHex.isSome = check.isBlock)
    (attest : Stratum.ShareAttest) (answer : Except JsError (Option JsString))
    (desk : Stratum.Desk) :
    Sends (Stratum.answerShare (writing setup) moment msg input check attest >>=
        finishShare later answer) desk
      (creditedEvent moment later desk.client.username input check attest
        answer) := by
  have reply : Stratum.idOf msg = pure (Json.orElse id .null) := by
    rw [Stratum.idOf, named]
    rfl
  have told : creditedEvent moment later desk.client.username input check
      attest answer = creditedEvent moment later
        ({ desk.client with lastShareAt := moment.now }.write
          (.result (Json.orElse id .null) (.bool true))).username input check
            attest answer := by
    rw [username_write]
  rw [told, Stratum.answerShare, Stratum.sendResult, Stratum.answer, reply]
  obtain ⟨isBlock, meetsShare, hash, header, text⟩ := check
  cases isBlock with
  | false =>
    cases text with
    | none => exact ⟨rfl, rfl⟩
    | some text => cases block
  | true =>
    cases text with
    | none => cases block
    | some text => exact ⟨rfl, rfl⟩

/-- The action returns a value and leaves the desk as it is. -/
def Reads {α : Type} (action : Stratum.Handler α) (desk : Stratum.Desk)
    (value : α) : Prop :=
  action.perform desk = (.ok value, desk)

theorem sends_of_reads {α : Type} {action : Stratum.Handler α}
    {next : α → Stratum.Handler Unit} {value : α} {event : Stratum.ShareEvent}
    (reads : Reads action desk value) (sends : Sends (next value) desk event) :
    Sends (action >>= next) desk event := by
  rw [Sends, Action.perform_bind, reads]
  exact sends

theorem reads_of_reads {α β : Type} {action : Stratum.Handler α}
    {next : α → Stratum.Handler β} {value : α} {result : β}
    (reads : Reads action desk value) (later : Reads (next value) desk result) :
    Reads (action >>= next) desk result := by
  rw [Reads, Action.perform_bind, reads]
  exact later

theorem sends_changeClient {change : Stratum.Client → Stratum.Client}
    {next : Unit → Stratum.Handler Unit} {event : Stratum.ShareEvent}
    (sends : Sends (next ()) { desk with client := change desk.client } event) :
    Sends (Stratum.changeClient change >>= next) desk event := by
  rw [Sends, Action.perform_bind]
  exact sends

/-- A signature that is given is read if it can be made a text. -/
theorem reads_signatureOf_given {value : Json} {text : JsString}
    (found : p.element 5 = some value) (notNull : value ≠ .null)
    (notEmpty : value ≠ .str [])
    (read : value.toText setup.runtime = .ok text) (desk : Stratum.Desk) :
    ∃ signature, Reads (Stratum.signatureOf setup p) desk signature := by
  unfold Stratum.signatureOf
  split
  · next absent => rw [absent] at found; cases found
  · next isNull =>
    rw [isNull] at found
    exact absurd (Option.some_inj.mp found).symm notNull
  · next isEmpty =>
    rw [isEmpty] at found
    exact absurd (Option.some_inj.mp found).symm notEmpty
  · next other _ _ present =>
    cases present.symm.trans found
    rw [read]
    exact ⟨_, rfl⟩

/-- A valid signature has been read. -/
theorem reads_signatureOf {verify : JsString → JsString → JsString → Bool}
    {pubkey : Option JsString}
    (valid : Stratum.shareAttest setup.runtime verify pubkey share
      (p.element 5) = .ok .valid) (desk : Stratum.Desk) :
    ∃ signature, Reads (Stratum.signatureOf setup p) desk signature := by
  unfold Stratum.shareAttest at valid
  split at valid
  · cases valid
  · cases valid
  · cases valid
  · next value notNull notEmpty found =>
    obtain ⟨text, read, -⟩ := Machine.bind_eq_ok_iff.mp valid
    exact reads_signatureOf_given found notNull notEmpty read desk

/-- A share that is credited carries a valid signature. -/
theorem signed_of_credited {runtime : Stratum.Runtime}
    {verify : JsString → JsString → JsString → Bool}
    {extranonce1Hex : JsString} {seen : List JsString}
    {view : Stratum.SubmitView} {input : ShareInput}
    (credited : (Stratum.onSubmit runtime hashes verify extranonce1Hex seen
      view p).2 = .ok (.credited share input check)) :
    Stratum.shareAttest runtime verify view.pubkey share (p.element 5) =
      .ok .valid := by
  obtain ⟨read, job, found, -⟩ := Stratum.onSubmit_credited _ _ _ _ credited
  rw [Stratum.onSubmit] at credited
  split_ifs at credited
  · cases credited
  rw [read] at credited
  dsimp only at credited
  rw [found] at credited
  dsimp only at credited
  split at credited
  · cases credited
  · cases credited
  · cases credited
  · next valid => exact valid

theorem reads_attestOf {verify : JsString → JsString → JsString → Bool}
    {pubkey : Option JsString}
    (read : Stratum.readSubmitted setup.runtime p = .ok (some share))
    (valid : Stratum.shareAttest setup.runtime verify pubkey share
      (p.element 5) = .ok .valid) (desk : Stratum.Desk) :
    ∃ attest, Reads (Stratum.attestOf setup p .valid) desk attest := by
  obtain ⟨signature, signed⟩ := reads_signatureOf valid desk
  have known : Reads Stratum.client desk desk.client := rfl
  rw [Stratum.attestOf, read]
  exact ⟨_, reads_of_reads known (reads_of_reads signed rfl)⟩

theorem sends_credit {later : Stratum.Moment} {id : Option Json}
    (named : msg.property "id" = .ok id) (input : ShareInput)
    (block : check.serializedBlockHex.isSome = check.isBlock)
    (answer : Except JsError (Option JsString)) {attest : Stratum.ShareAttest}
    (attested : Reads (Stratum.attestOf (writing setup) p .valid) desk
      attest) :
    Sends (Stratum.credit (writing setup) moment msg p input check >>=
        finishShare later answer) desk
      (creditedEvent moment later desk.client.username input check attest
        answer) := by
  rw [Stratum.credit, bind_assoc]
  refine sends_of_reads attested ?_
  dsimp only
  split
  · rw [bind_assoc]
    exact sends_changeClient
      (sends_answerShare named input block attest answer _)
  · exact sends_answerShare named input block attest answer desk

/-- A message with parameters has an id, if only an absent one. -/
theorem reads_of_submission (submits : Stratum.submissionOf msg = some p)
    (desk : Stratum.Desk) :
    Reads (Stratum.paramsOf msg) desk p ∧
      ∃ id, msg.property "id" = .ok id := by
  rw [Stratum.submissionOf] at submits
  split at submits
  · rw [Stratum.paramsOf]
    cases msg with
    | null => cases submits
    | obj members =>
      cases submits
      exact ⟨rfl, _, rfl⟩
    | _ =>
      cases submits
      exact ⟨rfl, _, rfl⟩
  · cases submits

/-- A credited share is reported. -/
theorem sends_accountShare (later : Stratum.Moment) {input : ShareInput}
    (credited : Stratum.creditedShare setup moment desk.client msg =
      some (share, input, check))
    (block : check.serializedBlockHex.isSome = check.isBlock)
    (answer : Except JsError (Option JsString)) :
    ∃ attest, Sends (accountShare setup moment later msg answer) desk
      (creditedEvent moment later desk.client.username input check attest
        answer) := by
  change Stratum.creditedShare (writing setup) moment desk.client msg = _
    at credited
  obtain ⟨p, submits, judged⟩ := Option.bind_eq_some_iff.mp credited
  obtain ⟨params, id, named⟩ := reads_of_submission submits desk
  have known : Reads Stratum.client desk desk.client := rfl
  split at judged
  · next verdict =>
    cases judged
    have read := (Stratum.onSubmit_credited _ _ _ _ verdict).1
    obtain ⟨attest, attested⟩ := reads_attestOf read
      (signed_of_credited verdict) { desk with client := { desk.client with
        seenShares := (Stratum.onSubmit (writing setup).runtime setup.hashes
          (fun key canon signature =>
            setup.verifyP256Digest key (setup.sha256 canon) signature)
          desk.client.extranonce1Hex desk.client.seenShares
          (Stratum.submitView moment desk.client) p).1 } }
    refine ⟨attest, ?_⟩
    rw [accountShare, Stratum.submitted, bind_assoc]
    refine sends_of_reads params ?_
    rw [bind_assoc]
    refine sends_of_reads known ?_
    dsimp only
    rw [bind_assoc]
    refine sends_changeClient ?_
    rw [verdict]
    exact sends_credit named input block answer attested
  · cases judged

/-! ## The checks -/

theorem prevHashLE_of_buildHeader {s : ShareInput}
    {built : Stratum.BuiltHeader}
    (done : Stratum.buildHeader hashes s = .ok built) :
    ∃ prev, JsString.hexToBytes s.job.prevHashHexBE = .ok prev ∧
      built.prevHashLE = prev.reverse := by
  rw [Stratum.buildHeader] at done
  obtain ⟨coinb1, -, done⟩ := Machine.bind_eq_ok_iff.mp done
  obtain ⟨en1, -, done⟩ := Machine.bind_eq_ok_iff.mp done
  obtain ⟨en2, -, done⟩ := Machine.bind_eq_ok_iff.mp done
  obtain ⟨coinb2, -, done⟩ := Machine.bind_eq_ok_iff.mp done
  obtain ⟨root, -, done⟩ := Machine.bind_eq_ok_iff.mp done
  obtain ⟨prev, read, done⟩ := Machine.bind_eq_ok_iff.mp done
  obtain ⟨header, -, done⟩ := Machine.bind_eq_ok_iff.mp done
  cases done
  exact ⟨prev, read, rfl⟩

/-- What the check of a share with a header comes to. -/
structure Judged (hashes : Hashes) (s : ShareInput) (check : ShareCheckOk)
    (prevBE targetBE : List Byte) (shareTarget : Nat) : Prop where
  prev : JsString.hexToBytes s.job.prevHashHexBE = .ok prevBE
  target : JsString.hexToBytes s.job.networkTargetHexBE = .ok targetBE
  share : Stratum.targetFromShareDifficulty s.shareDifficulty =
    .ok shareTarget
  classified : Stratum.classifyCandidate
    (hashes.pow check.serializedHeader prevBE.reverse) shareTarget
      (leValue targetBE.reverse) = some (check.isBlock, check.meetsShare)
  hash : check.blockHashHexBE =
    JsString.bytesToHex (hashes.sha256d check.serializedHeader).reverse
  block : check.serializedBlockHex.isSome = check.isBlock

theorem judged_of_validateShare {s : ShareInput}
    (accepted : Stratum.validateShare hashes s = .ok (.ok check)) :
    ∃ prev target shareTarget,
      Judged hashes s check prev target shareTarget := by
  rw [Stratum.validateShare] at accepted
  cases made : Stratum.buildHeader hashes s with
  | error thrown =>
    rw [made] at accepted
    cases accepted
  | ok built =>
    rw [made] at accepted
    obtain ⟨prev, read, order⟩ := prevHashLE_of_buildHeader made
    change Stratum.judgeHeader hashes s built = _ at accepted
    rw [Stratum.judgeHeader] at accepted
    obtain ⟨target, targetRead, accepted⟩ :=
      Machine.bind_eq_ok_iff.mp accepted
    obtain ⟨shareTarget, share, accepted⟩ :=
      Machine.bind_eq_ok_iff.mp accepted
    split at accepted
    · cases accepted
    · next isBlock meetsShare classified =>
      obtain ⟨text, block, accepted⟩ := Machine.bind_eq_ok_iff.mp accepted
      cases accepted
      refine ⟨prev, target, shareTarget, read, targetRead, share, ?_, rfl, ?_⟩
      · rw [← order]
        exact classified
      · cases isBlock with
        | false =>
          cases block
          rfl
        | true =>
          obtain ⟨txns, -, block⟩ := Machine.bind_eq_ok_iff.mp block
          cases block
          rfl

/-- The job, the difficulty and the header decide about a share. -/
theorem check_of_header {s t : ShareInput} {left right : ShareCheckOk}
    (first : Stratum.validateShare hashes s = .ok (.ok left))
    (second : Stratum.validateShare hashes t = .ok (.ok right))
    (job : s.job = t.job) (difficulty : s.shareDifficulty = t.shareDifficulty)
    (header : left.serializedHeader = right.serializedHeader) :
    left.isBlock = right.isBlock ∧ left.meetsShare = right.meetsShare ∧
      left.blockHashHexBE = right.blockHashHexBE := by
  obtain ⟨prev, target, shareTarget, one⟩ := judged_of_validateShare first
  obtain ⟨prev', target', shareTarget', other⟩ :=
    judged_of_validateShare second
  obtain ⟨prevRead, targetRead, share, classified, hash, -⟩ := one
  rw [job, other.prev] at prevRead
  rw [job, other.target] at targetRead
  rw [difficulty, other.share] at share
  cases prevRead
  cases targetRead
  cases share
  rw [header, other.classified, Option.some_inj, Prod.mk.injEq] at classified
  rw [hash, header, other.hash]
  exact ⟨classified.1.symm, classified.2.symm, rfl⟩

/-! ## User names -/

/-- The worker of a name without one. -/
def defaultWorker : JsString := JsString.ofString "default"

theorem splitUserName_of_not_mem {name : JsString} (plain : 46 ∉ name) :
    Stratum.splitUserName name = (name, defaultWorker) := by
  have whole : (name.reverse.takeWhile (· ≠ 46)).reverse = name := by
    rw [List.takeWhile_eq_self_iff.mpr, List.reverse_reverse]
    intro unit member
    rw [List.mem_reverse] at member
    exact decide_eq_true fun dot => plain (dot ▸ member)
  rw [Stratum.splitUserName, whole]
  exact if_pos (.inl rfl)

theorem splitUserName_append {front worker : JsString}
    (last : 46 ∉ worker) :
    Stratum.splitUserName (front ++ 46 :: worker) =
      if front = [] ∨ worker = [] then (front ++ 46 :: worker, defaultWorker)
      else (front, worker) := by
  have behind : ((front ++ 46 :: worker).reverse.takeWhile
      (· ≠ 46)).reverse = worker := by
    rw [List.reverse_append, List.reverse_cons, List.append_assoc,
      List.takeWhile_append_of_pos, List.singleton_append,
      List.takeWhile_cons_of_neg (by decide), List.append_nil,
      List.reverse_reverse]
    intro unit member
    rw [List.mem_reverse] at member
    exact decide_eq_true fun dot => last (dot ▸ member)
  have size : (front ++ 46 :: worker).length =
      front.length + worker.length + 1 := by
    rw [List.length_append, List.length_cons]
    omega
  have dot : (front ++ 46 :: worker).length - worker.length - 1 =
      front.length := by
    omega
  rw [Stratum.splitUserName, behind, dot, List.take_left]
  refine if_congr ?_ rfl rfl
  rw [List.length_eq_zero_iff, or_iff_right (by omega)]

/-- A name with a dot, cut at its last one. -/
theorem exists_last_dot {name : JsString} (dotted : 46 ∈ name) :
    ∃ front worker, name = front ++ 46 :: worker ∧ 46 ∉ worker := by
  obtain ⟨before, behind, split, first⟩ :=
    List.eq_append_cons_of_mem (List.mem_reverse.mpr dotted)
  refine ⟨behind.reverse, before.reverse, ?_, ?_⟩
  · rw [← List.reverse_inj, split, List.reverse_append, List.reverse_cons,
      List.reverse_reverse, List.reverse_reverse, List.append_assoc,
      List.singleton_append]
  · rw [List.mem_reverse]
    exact first

theorem not_mem_defaultWorker : 46 ∉ defaultWorker := by
  decide +kernel

theorem workerNameFromIdentity_append {before behind : JsString}
    (first : 46 ∉ before) :
    workerNameFromIdentity (before ++ 46 :: behind) = behind := by
  have dotted : 46 ∈ before ++ 46 :: behind :=
    List.mem_append_right _ List.mem_cons_self
  rw [workerNameFromIdentity, if_pos dotted, List.dropWhile_append_of_pos,
    List.dropWhile_cons_of_neg (by decide), List.tail_cons]
  exact fun unit member => decide_eq_true fun dot => first (dot ▸ member)

/-- A name that ends with a dot has no worker `default`. -/
theorem workerNameFromIdentity_ne_default (front : JsString) :
    workerNameFromIdentity (front ++ [46]) ≠ defaultWorker := by
  intro same
  obtain ⟨before, behind, split, first⟩ := List.eq_append_cons_of_mem
    (List.mem_append_right front (List.mem_singleton_self 46))
  rw [split, workerNameFromIdentity_append first] at same
  have letters : defaultWorker = JsString.ofString "defaul" ++ [116] := by
    decide +kernel
  rw [same, letters, ← List.cons_append, ← List.append_assoc] at split
  have ends := congrArg List.getLast? split
  rw [List.getLast?_concat, List.getLast?_concat] at ends
  exact absurd ends (by decide)

/-- When both protocols report one user and one worker. -/
theorem names_agree_iff (name : JsString) :
    (Stratum.splitUserName name).1 = name ∧
        (Stratum.splitUserName name).2 = workerNameFromIdentity name ↔
      46 ∉ name ∨ name = 46 :: defaultWorker := by
  by_cases dotted : 46 ∈ name
  · obtain ⟨front, worker, rfl, last⟩ := exists_last_dot dotted
    rw [splitUserName_append last]
    split
    · next alone =>
      rcases alone with rfl | rfl
      · rw [workerNameFromIdentity_append List.not_mem_nil, List.nil_append]
        constructor
        · rintro ⟨-, same⟩
          exact .inr (congrArg _ same.symm)
        · rintro (plain | same)
          · exact absurd dotted plain
          · exact ⟨rfl, (List.cons.inj same).2.symm⟩
      · constructor
        · rintro ⟨-, same⟩
          exact absurd same.symm (workerNameFromIdentity_ne_default front)
        · rintro (plain | same)
          · exact absurd dotted plain
          · refine absurd ?_ (workerNameFromIdentity_ne_default front)
            rw [same]
            exact workerNameFromIdentity_append List.not_mem_nil
    · next apart =>
      constructor
      · rintro ⟨same, -⟩
        change front = _ at same
        have sizes := congrArg List.length same
        rw [List.length_append, List.length_cons] at sizes
        omega
      · rintro (plain | same)
        · exact absurd dotted plain
        · cases front with
          | nil => exact absurd (.inl rfl) apart
          | cons unit rest =>
            refine absurd ?_ not_mem_defaultWorker
            rw [← (List.cons.inj same).2]
            exact List.mem_append_right _ List.mem_cons_self
  · rw [splitUserName_of_not_mem dotted]
    exact ⟨fun _ => .inl dotted, fun _ => ⟨rfl, (if_neg dotted).symm⟩⟩

/-! ## The reports -/

theorem validateShare_of_credited {c : Stratum.Client} {input : ShareInput}
    (credited : Stratum.creditedShare setup moment c msg =
      some (share, input, check)) :
    Stratum.validateShare setup.hashes input = .ok (.ok check) := by
  obtain ⟨p, -, judged⟩ := Option.bind_eq_some_iff.mp credited
  split at judged
  · next verdict =>
    cases judged
    obtain ⟨-, job, -, -, valid⟩ := Stratum.onSubmit_credited _ _ _ _ verdict
    exact valid
  · cases judged

theorem diffs_agree_iff {meetsShare : Bool} {assigned network : ℚ} :
    (if meetsShare then assigned else network) = assigned ↔
      meetsShare = true ∨ network = assigned := by
  cases meetsShare with
  | false => simp
  | true => simp

/--
The reports of one share in both protocols: the same user and worker exactly
if the name has no dot or is `.default`; the same difficulty exactly if the
share target is met or both difficulties are equal; the same block exactly if
the node accepts it; and the same height exactly for an accepted block.
-/
theorem accounts_agree_iff {setup : Stratum.Setup}
    {moment : Stratum.Moment} (later : Stratum.Moment) (now : Int)
    {msg : Json} {desk : Stratum.Desk} {share : Stratum.Submitted}
    {input : ShareInput} {check : ShareCheckOk}
    (answer : Except JsError (Option JsString)) {ch : ChannelState}
    {job : StratumJob} {m : SubmitSharesExtended} {other : ShareInput}
    {otherCheck : ShareCheckOk}
    (credited : Stratum.creditedShare setup moment desk.client msg =
      some (share, input, check))
    (accepted : processSubmit setup.hashes (submitArgs ch job m) =
      .ok (.accepted other otherCheck))
    (user : ch.userIdentity = desk.client.username)
    (sameJob : input.job = job.toJobContext)
    (difficulty : input.shareDifficulty = ch.shareDifficulty)
    (header : check.serializedHeader = otherCheck.serializedHeader) :
    ∃ first, Sends (accountShare setup moment later msg answer) desk first ∧
      let second := (submitArgs ch job m).event otherCheck now
      (first.user = second.user ∧ first.workerName = second.workerName ↔
        46 ∉ ch.userIdentity ∨ ch.userIdentity = 46 :: defaultWorker) ∧
      (first.diff = second.diff ↔ check.meetsShare = true ∨
        Stratum.networkDifficultyFromBits job.bits = ch.shareDifficulty) ∧
      (first.isBlock = second.isBlock ∧ first.blockHash = second.blockHash ↔
        (check.isBlock = true → blockTaken answer = true)) ∧
      (first.blockHeight = second.blockHeight ↔
        check.isBlock = true ∧ blockTaken answer = true) := by
  have valid := validateShare_of_credited credited
  obtain ⟨whole, otherValid⟩ := processSubmit_accepted accepted
  obtain ⟨en, -, rfl⟩ := Option.map_eq_some_iff.mp whole
  obtain ⟨sameBlock, -, sameHash⟩ :=
    check_of_header valid otherValid sameJob difficulty header
  obtain ⟨prev, target, shareTarget, judged⟩ := judged_of_validateShare valid
  obtain ⟨attest, sends⟩ :=
    sends_accountShare later credited judged.block answer
  refine ⟨_, sends, ?_⟩
  have names := names_agree_iff ch.userIdentity
  rw [creditedEvent, Stratum.shareEvent, SubmitArgs.event, ← sameBlock,
    ← sameHash, ← user, sameJob, difficulty]
  cases check.isBlock with
  | false => exact ⟨names, diffs_agree_iff, by simp, by simp⟩
  | true =>
    cases blockTaken answer with
    | false => exact ⟨names, diffs_agree_iff, by simp, by simp⟩
    | true =>
      exact ⟨names, diffs_agree_iff, by simp, by simp [submitArgs]⟩

/-! ### A documented name -/

/-- `mining.submit` for the job. -/
def sharedMessage : Json :=
  Stratum.submitCall Stratum.emptyJob.jobId

/-- The job is known. -/
def sharedMoment : Stratum.Moment where
  now := 0
  current := some plainJob
  getById := fun id =>
    if id = Stratum.emptyJob.jobId then some plainJob else none

/-- An authorized miner of the first protocol. -/
def namedDesk (name : JsString) : Stratum.Desk where
  client :=
    { Stratum.Client.new letterSetup.vardiff 0 1
        (JsString.ofString "00000001") with
      state := .authorized, username := name, pubkey := some [] }
  shared := { heldSlots := [], drawn := 0, ipc := [] }

/-- The channel of the same miner in the second protocol. -/
def namedChannel (name : JsString) : ChannelState where
  id := 1
  kind := .extended
  requestId := 0
  userIdentity := name
  extranoncePrefix := [0, 0, 0, 1]
  extranonceSize := 4
  groupChannelId := 0
  targetBE := []
  shareDifficulty := 1
  lastAcceptedSequence := 0
  lastJobId := 0
  cleanJobs := true
  filled := rfl

/-- The same share in the second protocol. -/
def shareSubmitted : SubmitSharesExtended where
  channelId := 1
  sequenceNumber := 0
  jobId := 1
  nonce := 0
  ntime := 0
  version := 0
  extranonce := [0, 0, 0, 0]

/-- What the first protocol finds of the share. -/
def firstFound (name : JsString) :
    Option (Stratum.JobContext × ℚ × List Byte) :=
  (Stratum.creditedShare letterSetup sharedMoment (namedDesk name).client
    sharedMessage).map fun credited =>
      (credited.2.1.job, credited.2.1.shareDifficulty,
        credited.2.2.serializedHeader)

/-- What the second protocol finds of the share. -/
def secondFound (name : JsString) : Option (List Byte) :=
  match processSubmit letterSetup.hashes
      (submitArgs (namedChannel name) plainJob shareSubmitted) with
  | .ok (.accepted _ check) => some check.serializedHeader
  | _ => none

/-- The header of the share. -/
def sharedHeader : List Byte :=
  [0, 0, 0, 0x20] ++ (List.replicate 68 0 ++
    ([0xff, 0xff, 0, 0x1d] ++ List.replicate 4 0))

/-- A share that both protocols find. -/
theorem both_accept {name : JsString}
    (first : firstFound name = some (Stratum.emptyJob, 1, sharedHeader))
    (second : secondFound name = some sharedHeader) :
    ∃ share input check other otherCheck,
      Stratum.creditedShare letterSetup sharedMoment (namedDesk name).client
          sharedMessage = some (share, input, check) ∧
        processSubmit letterSetup.hashes (submitArgs (namedChannel name)
          plainJob shareSubmitted) = .ok (.accepted other otherCheck) ∧
        input.job = plainJob.toJobContext ∧ input.shareDifficulty = 1 ∧
        check.serializedHeader = otherCheck.serializedHeader := by
  obtain ⟨⟨share, input, check⟩, credited, found⟩ :=
    Option.map_eq_some_iff.mp first
  rw [secondFound] at second
  split at second
  · next other otherCheck accepted =>
    refine ⟨share, input, check, other, otherCheck, credited, accepted, ?_⟩
    rw [Prod.mk.injEq, Prod.mk.injEq] at found
    exact ⟨found.1, found.2.1,
      found.2.2.trans (Option.some_inj.mp second).symm⟩
  · cases second

theorem plain_name_accounts_agree :
    ∃ first, Sends (accountShare letterSetup sharedMoment sharedMoment
        sharedMessage (.ok none)) (namedDesk (JsString.ofString "u")) first ∧
      first.user = JsString.ofString "u" ∧
      first.workerName =
        workerNameFromIdentity (JsString.ofString "u") := by
  obtain ⟨share, input, check, other, otherCheck, credited, accepted, job,
    difficulty, header⟩ := both_accept
      (by decide +kernel : firstFound (JsString.ofString "u") = _)
      (by decide +kernel)
  obtain ⟨first, sends, names, -⟩ := accounts_agree_iff sharedMoment 0
    (.ok none) credited accepted rfl job difficulty header
  have same := names.mpr (.inl (by decide +kernel))
  exact ⟨first, sends, same⟩

/-- The user of a documented name is the e-mail address in the first protocol
and the whole name in the second one. -/
theorem documented_name_split_differently :
    firstFound (JsString.ofString "a@b.c.rig") =
        some (Stratum.emptyJob, 1, sharedHeader) ∧
      secondFound (JsString.ofString "a@b.c.rig") = some sharedHeader ∧
      ∃ first otherCheck other,
      Sends (accountShare letterSetup sharedMoment sharedMoment sharedMessage
        (.ok none)) (namedDesk (JsString.ofString "a@b.c.rig")) first ∧
      processSubmit letterSetup.hashes (submitArgs (namedChannel
        (JsString.ofString "a@b.c.rig")) plainJob shareSubmitted) =
          .ok (.accepted other otherCheck) ∧
      first.user = JsString.ofString "a@b.c" ∧
      first.workerName = JsString.ofString "rig" ∧
      ((submitArgs (namedChannel (JsString.ofString "a@b.c.rig")) plainJob
        shareSubmitted).event otherCheck 0).user =
          JsString.ofString "a@b.c.rig" ∧
      ((submitArgs (namedChannel (JsString.ofString "a@b.c.rig")) plainJob
        shareSubmitted).event otherCheck 0).workerName =
          JsString.ofString "c.rig" := by
  have found : firstFound (JsString.ofString "a@b.c.rig") =
      some (Stratum.emptyJob, 1, sharedHeader) := by
    decide +kernel
  have again : secondFound (JsString.ofString "a@b.c.rig") =
      some sharedHeader := by
    decide +kernel
  obtain ⟨share, input, check, other, otherCheck, credited, accepted, -⟩ :=
    both_accept found again
  obtain ⟨prev, target, shareTarget, judged⟩ :=
    judged_of_validateShare (validateShare_of_credited credited)
  obtain ⟨attest, sends⟩ :=
    sends_accountShare sharedMoment credited judged.block (.ok none)
  refine ⟨found, again, _, otherCheck, other, sends, accepted, ?_⟩
  have split : Stratum.splitUserName (JsString.ofString "a@b.c.rig") =
      (JsString.ofString "a@b.c", JsString.ofString "rig") := by
    decide +kernel
  have behind : workerNameFromIdentity (JsString.ofString "a@b.c.rig") =
      JsString.ofString "c.rig" := by
    decide +kernel
  rw [creditedEvent]
  cases check.isBlock with
  | false | true =>
    exact ⟨congrArg Prod.fst split, congrArg Prod.snd split, rfl, behind⟩

end B3Chain.Sv2
