import B3Chain.Machine.Run
import B3Chain.Stratum.Json
import B3Chain.Stratum.ShareValidator

/-!
# Credited submissions of a Stratum V1 connection

`mining.submit` names a job and carries an extranonce, a time and a nonce as
text.  A submission is credited if its signature is valid, its key is not in
the connection's set of seen shares and its header meets a target.  The key
holds the job id, the text of the extranonce and the numbers as `parseInt`
gives them; the header holds the bytes of the extranonce and the numbers
modulo `2 ^ 32`.
-/

namespace B3Chain.Stratum

open Words

/-- `ClientState`. -/
inductive ClientState
  | new
  | subscribed
  | authorized
  deriving DecidableEq, Repr

/-- The texts and numbers of a submission. -/
structure Submitted where
  jobId : JsString
  en2 : JsString
  ntime : Int
  nonce : Int
  deriving DecidableEq

/-- What `onSubmit` reads of the connection and the server. -/
structure SubmitView where
  state : ClientState
  pubkey : Option JsString
  jobShareDiff : JsString → Option ℚ
  diff : ℚ
  getById : JsString → Option JobContext

/-- `extranonce2Size`. -/
def extranonce2Size : Nat := 4

/-- `String(value ?? "")`. -/
def textOrEmpty (runtime : Runtime) (value : Option Json) :
    Except JsError JsString :=
  (Json.orElse value (.str [])).toText runtime

/-- The parameters of a submission as `onSubmit` reads them. -/
def readSubmitted (runtime : Runtime) (p : Json) :
    Except JsError (Option Submitted) := do
  let items ← p.iterate
  let jobId ← textOrEmpty runtime items[1]?
  let en2 := runtime.toLowerCase (← textOrEmpty runtime items[2]?)
  let ntime := JsString.parseInt (← textOrEmpty runtime items[3]?)
  let nonce := JsString.parseInt (← textOrEmpty runtime items[4]?)
  match ntime, nonce with
  | some ntime, some nonce =>
    if jobId = [] ∨ en2.length ≠ extranonce2Size * 2 then return none
    else return some { jobId, en2, ntime, nonce }
  | _, _ => return none

/-! ## The signature -/

/-- `ShareAttest["result"]`. -/
inductive AttestResult
  | valid
  | invalid
  | missing
  deriving DecidableEq, Repr

/-- Eight lower-case hexadecimal digits of the number modulo `2 ^ 32`. -/
def hexWord (n : Int) : JsString :=
  JsString.bytesToHex (uint32LE n).reverse

/-- The text a share's signature is over. -/
def shareCanon (runtime : Runtime) (share : Submitted) : JsString :=
  share.jobId ++ JsString.ofString "|" ++ runtime.toLowerCase share.en2 ++
    JsString.ofString "|" ++ hexWord share.ntime ++ JsString.ofString "|" ++
      hexWord share.nonce

/-- `shareAttest`; `verify` checks a signature over a text. -/
def shareAttest (runtime : Runtime)
    (verify : JsString → JsString → JsString → Bool)
    (pubkey : Option JsString) (share : Submitted) (sigAny : Option Json) :
    Except JsError AttestResult :=
  match sigAny with
  | none => .ok .missing
  | some .null => .ok .missing
  | some (.str []) => .ok .missing
  | some value => do
      let signature := runtime.toLowerCase (← value.toText runtime)
      match pubkey with
      | none => return .invalid
      | some key =>
        if verify key (shareCanon runtime share) signature then
          return .valid
        else return .invalid

/-! ## Duplicates -/

/-- `dedupKey`. -/
def dedupKey (runtime : Runtime) (share : Submitted) : JsString :=
  share.jobId ++ JsString.ofString ":" ++ share.en2 ++ JsString.ofString ":" ++
    runtime.numberText (.finite share.ntime) ++ JsString.ofString ":" ++
      runtime.numberText (.finite share.nonce)

/-- The number of keys at which the oldest ones are dropped. -/
def seenLimit : Nat := 50000

/-- The number of keys dropped at a time. -/
def seenDropped : Nat := 10000

/-- The keys after a new one, oldest first. -/
def remember (seen : List JsString) (key : JsString) : List JsString :=
  if seenLimit < (seen ++ [key]).length then
    (seen ++ [key]).drop seenDropped
  else seen ++ [key]

/-! ## The decision -/

/-- What becomes of a submission. -/
inductive Verdict
  | unauthorized
  | invalidParams
  | unknownJob
  | badSignature (result : AttestResult)
  | duplicate
  | rejected (reason : RejectReason)
  | credited (share : Submitted) (input : ShareInput) (check : ShareCheckOk)

/-- The share that is checked. -/
def shareInput (extranonce1Hex : JsString) (view : SubmitView)
    (share : Submitted) (job : JobContext) : ShareInput where
  job := job
  extranonce1Hex := extranonce1Hex
  extranonce2Hex := share.en2
  ntime := share.ntime
  nonce := share.nonce
  shareDifficulty := (view.jobShareDiff share.jobId).getD view.diff

/-- The verdict on a share that is signed and new. -/
def judged (share : Submitted) (input : ShareInput) :
    Except String ShareCheck → Except JsError Verdict
  | .error message => .error (.error (JsString.ofString message))
  | .ok (.fail reason) => .ok (.rejected reason)
  | .ok (.ok check) => .ok (.credited share input check)

section

variable (runtime : Runtime) (hashes : Hashes)
  (verify : JsString → JsString → JsString → Bool)
  (extranonce1Hex : JsString)

/--
`onSubmit` up to the reply: the seen shares afterwards, and the verdict or
what was thrown.  A share for which the verdict `credited` is reached is sent
as a `ShareEvent`, after `submitBlock` if it is a block.
-/
def onSubmit (seen : List JsString) (view : SubmitView) (p : Json) :
    List JsString × Except JsError Verdict :=
  if view.state ≠ .authorized then (seen, .ok .unauthorized)
  else
    match readSubmitted runtime p with
    | .error thrown => (seen, .error thrown)
    | .ok none => (seen, .ok .invalidParams)
    | .ok (some share) =>
      match view.getById share.jobId with
      | none => (seen, .ok .unknownJob)
      | some job =>
        match shareAttest runtime verify view.pubkey share
            (p.element 5) with
        | .error thrown => (seen, .error thrown)
        | .ok .invalid => (seen, .ok (.badSignature .invalid))
        | .ok .missing => (seen, .ok (.badSignature .missing))
        | .ok .valid =>
          if dedupKey runtime share ∈ seen then (seen, .ok .duplicate)
          else
            (remember seen (dedupKey runtime share),
              judged share (shareInput extranonce1Hex view share job)
                (validateShare hashes
                  (shareInput extranonce1Hex view share job)))

/-- A share that is credited names a job and is judged against it. -/
theorem onSubmit_credited {seen : List JsString} {view : SubmitView}
    {p : Json} {share : Submitted} {input : ShareInput}
    {check : ShareCheckOk}
    (credited : (onSubmit runtime hashes verify extranonce1Hex seen view p).2 =
      .ok (.credited share input check)) :
    readSubmitted runtime p = .ok (some share) ∧
      ∃ job, view.getById share.jobId = some job ∧
        input = shareInput extranonce1Hex view share job ∧
          validateShare hashes input = .ok (.ok check) := by
  unfold onSubmit at credited
  split at credited
  · cases credited
  · split at credited
    · cases credited
    · cases credited
    · next named read =>
        split at credited
        · cases credited
        · next job found =>
            split at credited
            · cases credited
            · cases credited
            · cases credited
            · split at credited
              · cases credited
              · dsimp only at credited
                cases checked : validateShare hashes
                    (shareInput extranonce1Hex view named job) with
                | error message =>
                  rw [checked] at credited
                  cases credited
                | ok result =>
                  rw [checked] at credited
                  cases result with
                  | fail reason => cases credited
                  | ok passed =>
                    cases credited
                    exact ⟨read, job, found, rfl, checked⟩

/-! ## A connection's submissions -/

/-- A share that was credited. -/
structure Credited where
  share : Submitted
  input : ShareInput
  check : ShareCheckOk

/-- The header a credited share was judged by. -/
def Credited.header (credited : Credited) : List Byte :=
  credited.check.serializedHeader

/-- The duplicate keys of a connection and what it was credited. -/
structure Submissions where
  seen : List JsString
  credited : List Credited

/-- A connection on which nothing was submitted. -/
def Submissions.none : Submissions where
  seen := []
  credited := []

/-- The record of credited shares after a verdict. -/
def recordVerdict (credited : List Credited) :
    Except JsError Verdict → List Credited
  | .ok (.credited share input check) =>
    credited ++ [{ share, input, check }]
  | _ => credited

/--
A submission: what the handler reads of the connection and the job table is
arbitrary each time.
-/
def submitStep (state : Submissions) (event : SubmitView × Json) :
    Option Submissions :=
  let result := onSubmit runtime hashes verify extranonce1Hex state.seen
    event.1 event.2
  some
    { seen := result.1
      credited := recordVerdict state.credited result.2 }

/-- What a submission does to the connection. -/
theorem submitStep_cases {state next : Submissions}
    {event : SubmitView × Json}
    (taken : submitStep runtime hashes verify extranonce1Hex state event =
      some next) :
    next = state ∨
      ∃ share job, readSubmitted runtime event.2 = .ok (some share) ∧
        event.1.getById share.jobId = some job ∧
          dedupKey runtime share ∉ state.seen ∧
            next.seen = remember state.seen (dedupKey runtime share) ∧
              next.credited = recordVerdict state.credited
                (judged share (shareInput extranonce1Hex event.1 share job)
                  (validateShare hashes
                    (shareInput extranonce1Hex event.1 share job))) := by
  rw [submitStep, Option.some_inj] at taken
  subst taken
  unfold onSubmit
  split
  · exact .inl rfl
  · split
    · exact .inl rfl
    · exact .inl rfl
    · next share read =>
        split
        · exact .inl rfl
        · next job found =>
            split
            · exact .inl rfl
            · exact .inl rfl
            · exact .inl rfl
            · split
              · exact .inl rfl
              · next fresh =>
                  exact .inr ⟨share, job, read, found, fresh, rfl, rfl⟩

theorem recordVerdict_judged (credited : List Credited) (share : Submitted)
    (input : ShareInput) (outcome : Except String ShareCheck) :
    recordVerdict credited (judged share input outcome) = credited ∨
      ∃ check, outcome = .ok (.ok check) ∧
        recordVerdict credited (judged share input outcome) =
          credited ++ [⟨share, input, check⟩] := by
  match outcome with
  | .error message => exact .inl rfl
  | .ok (.fail reason) => exact .inl rfl
  | .ok (.ok check) => exact .inr ⟨check, rfl, rfl⟩

/-! ## Keys that tell headers apart -/

/-- The texts are those the pool itself would write for the values. -/
def Submitted.Canonical (share : Submitted) : Prop :=
  (∃ bytes, share.en2 = JsString.bytesToHex bytes) ∧
    (0 ≤ share.ntime ∧ share.ntime < 2 ^ 32) ∧
      0 ≤ share.nonce ∧ share.nonce < 2 ^ 32

/--
What makes a submission tell: its texts are canonical, the set of seen shares
is not full, and no earlier credited share of another job has the same work or
collides with it in the merkle root.
-/
def Telling (state : Submissions) (event : SubmitView × Json) : Prop :=
  ∀ share job, readSubmitted runtime event.2 = .ok (some share) →
    event.1.getById share.jobId = some job →
      share.Canonical ∧ state.seen.length < seenLimit ∧
        ∀ earlier ∈ state.credited,
          Uncollided hashes earlier.input
              (shareInput extranonce1Hex event.1 share job) ∧
            (earlier.input.work =
                (shareInput extranonce1Hex event.1 share job).work →
              earlier.share.jobId = share.jobId ∧ earlier.input.job = job)

/-- What is known of a credited share. -/
structure Credited.Sound (credited : Credited) : Prop where
  input : ∃ view job,
    credited.input = shareInput extranonce1Hex view credited.share job
  accepted : validateShare hashes credited.input = .ok (.ok credited.check)
  canonical : credited.share.Canonical

/-- The invariant of a connection. -/
structure Submissions.Sound (state : Submissions) : Prop where
  each : ∀ credited ∈ state.credited, credited.Sound hashes extranonce1Hex
  remembered : ∀ credited ∈ state.credited,
    dedupKey runtime credited.share ∈ state.seen
  distinct : (state.credited.map Credited.header).Nodup

end

theorem bits_injective {x y : Int} (xLow : 0 ≤ x) (xHigh : x < 2 ^ 32)
    (yLow : 0 ≤ y) (yHigh : y < 2 ^ 32)
    (same : JsNumber.bits x = JsNumber.bits y) : x = y := by
  have values := congrArg BitVec.toNat same
  rw [JsNumber.bits, JsNumber.bits, BitVec.toNat_ofInt, BitVec.toNat_ofInt]
    at values
  omega

theorem remember_of_room {seen : List JsString} (key : JsString)
    (room : seen.length < seenLimit) :
    remember seen key = seen ++ [key] := by
  rw [remember, if_neg]
  rw [List.length_append, List.length_singleton]
  omega

section

variable {runtime : Runtime} {hashes : Hashes}
  {verify : JsString → JsString → JsString → Bool}
  {extranonce1Hex : JsString}

/-- The work of one job with two canonical extranonces differs. -/
theorem en2_of_work {view later : SubmitView} {share next : Submitted}
    {job : JobContext} {bytes others : List Byte} {work : Work}
    (first : share.en2 = JsString.bytesToHex bytes)
    (second : next.en2 = JsString.bytesToHex others)
    (read : (shareInput extranonce1Hex view share job).work = .ok work)
    (readNext : (shareInput extranonce1Hex later next job).work = .ok work) :
    share.en2 = next.en2 := by
  simp only [ShareInput.work, shareInput, first, second,
    JsString.hexToBytes_bytesToHex, Machine.bind_eq_ok_iff] at read readNext
  obtain ⟨coinb1, one, en1, two, en2, three, coinb2, four, branches, five,
    prev, six, same⟩ := read
  obtain ⟨coinb1', one', en1', two', en2', three', coinb2', four', branches',
    five', prev', six', same'⟩ := readNext
  cases one.symm.trans one'
  cases two.symm.trans two'
  cases three
  cases three'
  cases four.symm.trans four'
  cases same
  rw [Except.ok.injEq, Work.mk.injEq] at same'
  have coinbase := same'.2.2.2.1
  rw [first, second]
  exact congrArg _ (List.append_cancel_right (List.append_cancel_left
    (List.append_cancel_left coinbase))).symm

/-- A header that was credited before belongs to a key that was seen. -/
theorem dedupKey_of_header {earlier : Credited} {view : SubmitView}
    {share : Submitted} {job : JobContext} {check : ShareCheckOk}
    (sound : earlier.Sound hashes extranonce1Hex)
    (canonical : share.Canonical)
    (accepted : validateShare hashes
      (shareInput extranonce1Hex view share job) = .ok (.ok check))
    (uncollided : Uncollided hashes earlier.input
      (shareInput extranonce1Hex view share job))
    (sameJob : earlier.input.work =
        (shareInput extranonce1Hex view share job).work →
      earlier.share.jobId = share.jobId ∧ earlier.input.job = job)
    (same : earlier.header = check.serializedHeader) :
    dedupKey runtime earlier.share = dedupKey runtime share := by
  obtain ⟨works, times, nonces⟩ :=
    validateShare_determines sound.accepted accepted uncollided same
  obtain ⟨ids, jobs⟩ := sameJob works
  obtain ⟨built, made, -⟩ := buildHeader_of_validateShare accepted
  obtain ⟨work, root, read, -⟩ := buildHeader_ok made
  obtain ⟨before, job', input⟩ := sound.input
  obtain ⟨⟨bytes, text⟩, ⟨timeLow, timeHigh⟩, nonceLow, nonceHigh⟩ :=
    sound.canonical
  obtain ⟨⟨bytes', text'⟩, ⟨timeLow', timeHigh'⟩, nonceLow', nonceHigh'⟩ :=
    canonical
  rw [input] at works times nonces jobs
  change job' = job at jobs
  subst jobs
  have en2 := en2_of_work text text' (works.trans read) read
  have time : earlier.share.ntime = share.ntime :=
    bits_injective timeLow timeHigh timeLow' timeHigh' times
  have nonce : earlier.share.nonce = share.nonce :=
    bits_injective nonceLow nonceHigh nonceLow' nonceHigh' nonces
  rw [dedupKey, dedupKey, ids, en2, time, nonce]

/-- A telling submission keeps the invariant. -/
theorem submitStep_sound (state : Submissions) (event : SubmitView × Json)
    (next : Submissions)
    (sound : state.Sound runtime hashes extranonce1Hex)
    (telling : Telling runtime hashes extranonce1Hex state event)
    (taken : submitStep runtime hashes verify extranonce1Hex state event =
      some next) :
    next.Sound runtime hashes extranonce1Hex := by
  obtain unchanged | ⟨share, job, read, found, fresh, seen, credited⟩ :=
    submitStep_cases runtime hashes verify extranonce1Hex taken
  · exact unchanged ▸ sound
  · obtain ⟨canonical, room, earlier⟩ := telling share job read found
    rw [remember_of_room _ room] at seen
    obtain same | ⟨check, accepted, added⟩ := recordVerdict_judged
      state.credited share (shareInput extranonce1Hex event.1 share job)
      (validateShare hashes (shareInput extranonce1Hex event.1 share job))
    · rw [same] at credited
      constructor
      · exact credited ▸ sound.each
      · intro entry member
        rw [credited] at member
        rw [seen]
        exact List.mem_append_left _ (sound.remembered entry member)
      · exact credited ▸ sound.distinct
    · rw [added] at credited
      constructor
      · intro entry member
        rw [credited, List.mem_append, List.mem_singleton] at member
        obtain old | rfl := member
        · exact sound.each entry old
        · exact ⟨⟨event.1, job, rfl⟩, accepted, canonical⟩
      · intro entry member
        rw [credited, List.mem_append, List.mem_singleton] at member
        rw [seen, List.mem_append, List.mem_singleton]
        obtain old | rfl := member
        · exact .inl (sound.remembered entry old)
        · exact .inr rfl
      · rw [credited, List.map_append, List.map_singleton,
          List.nodup_append_comm, List.singleton_append, List.nodup_cons]
        refine ⟨fun repeated => ?_, sound.distinct⟩
        obtain ⟨entry, member, same⟩ := List.mem_map.mp repeated
        obtain ⟨uncollided, sameJob⟩ := earlier entry member
        refine fresh ?_
        rw [← dedupKey_of_header (sound.each entry member) canonical accepted
          uncollided sameJob same]
        exact sound.remembered entry member

/--
A connection on which every submission is telling is never credited for one
header twice.
-/
theorem credited_headers_nodup {events : List (SubmitView × Json)}
    {final : Submissions}
    (telling : Machine.Along
      (submitStep runtime hashes verify extranonce1Hex)
      (Telling runtime hashes extranonce1Hex) Submissions.none events)
    (taken : Machine.run (submitStep runtime hashes verify extranonce1Hex)
      Submissions.none events = some final) :
    (final.credited.map Credited.header).Nodup := by
  have start :
      Submissions.none.Sound runtime hashes extranonce1Hex := by
    constructor
    · exact fun entry member => absurd member List.not_mem_nil
    · exact fun entry member => absurd member List.not_mem_nil
    · exact List.nodup_nil
  exact (Machine.run_invariant submitStep_sound start telling taken).distinct

end

/-! ### One connection -/

/-- A runtime for short decimal numbers and unaccented letters. -/
def plainRuntime : Runtime where
  parse := fun _ => none
  numberText := fun value =>
    match value with
    | .finite number => JsString.ofString (toString number.num)
    | _ => []
  textNumber := fun _ => .nan
  toLowerCase := fun text => text.map fun unit =>
    if 65 ≤ unit ∧ unit ≤ 90 then unit + 32 else unit

/-- Hashes that are the same for all headers. -/
def constantHashes : Hashes where
  sha256d := fun _ => List.replicate 32 0
  pow := fun _ _ => 1
  length_sha256d := fun _ => List.length_replicate

/-- A job without transactions. -/
def emptyJob : JobContext where
  jobId := JsString.ofString "0000001"
  coinb1Hex := []
  coinb2Hex := []
  merkleBranchesHexBE := []
  version := 0x20000000
  bits := 0x1d00ffff
  prevHashHexBE := JsString.bytesToHex (List.replicate 32 0)
  networkTargetHexBE := []
  txnsHex := []
  height := 1

/-- An authorized connection with a key, at difficulty 1. -/
def minerView : SubmitView where
  state := .authorized
  pubkey := some []
  jobShareDiff := fun _ => none
  diff := 1
  getById := fun id => if id = emptyJob.jobId then some emptyJob else none

/-- `mining.submit` for the job, with texts for the time and the nonce. -/
def submission (ntime nonce : String) : SubmitView × Json :=
  (minerView, .arr
    [.str [], .str emptyJob.jobId, .str (JsString.ofString "00000000"),
      .str (JsString.ofString ntime), .str (JsString.ofString nonce),
      .str (JsString.ofString "ff")])

/-- The headers credited for a list of submissions. -/
def creditedHeaders (events : List (SubmitView × Json)) :
    Option (List (List Byte)) :=
  (Machine.run (submitStep plainRuntime constantHashes (fun _ _ _ => true)
    (JsString.ofString "00000001")) Submissions.none events).map
      fun final => final.credited.map Credited.header

/-- A time and the same time plus `2 ^ 32` are both credited. -/
theorem time_beyond_word_credited_twice :
    ∃ headers, creditedHeaders
      [submission "65000000" "00000007", submission "165000000" "00000007"] =
        some headers ∧ ¬ headers.Nodup := by
  refine ⟨List.replicate 2 (uint32LE 0x20000000 ++ (List.replicate 64 0 ++
    (uint32LE 0x65000000 ++ (uint32LE 0x1d00ffff ++ uint32LE 7)))), ?_, ?_⟩
  · decide +kernel
  · decide +kernel

/-- The share a submission of the job reads as. -/
def shareOf (ntime nonce : Int) : Submitted where
  jobId := emptyJob.jobId
  en2 := JsString.bytesToHex (List.replicate 4 0)
  ntime := ntime
  nonce := nonce

theorem shareOf_canonical {ntime nonce : Int}
    (time : 0 ≤ ntime ∧ ntime < 2 ^ 32) (word : 0 ≤ nonce ∧ nonce < 2 ^ 32) :
    (shareOf ntime nonce).Canonical :=
  ⟨⟨_, rfl⟩, time, word⟩

/-- Shares of the job differ in the time and the nonce only. -/
theorem shareOf_uncollided (hashes : Hashes) (en1 : JsString)
    (time nonce time' nonce' : Int) :
    Uncollided hashes (shareInput en1 minerView (shareOf time nonce) emptyJob)
      (shareInput en1 minerView (shareOf time' nonce') emptyJob) := by
  intro first second read readNext _
  cases (read.symm.trans readNext)
  exact ⟨rfl, rfl⟩

theorem minerView_job {id : JsString} {job : JobContext}
    (found : minerView.getById id = some job) : job = emptyJob := by
  change (if id = emptyJob.jobId then some emptyJob else none) = _ at found
  split at found
  · exact (Option.some_inj.mp found).symm
  · cases found

theorem two_nonces_telling :
    Machine.Along (submitStep plainRuntime constantHashes (fun _ _ _ => true)
        (JsString.ofString "00000001"))
      (Telling plainRuntime constantHashes (JsString.ofString "00000001"))
      Submissions.none
      [submission "65000000" "00000007",
        submission "65000000" "00000008"] := by
  have first : readSubmitted plainRuntime
      (submission "65000000" "00000007").2 =
        .ok (some (shareOf 0x65000000 7)) := by
    decide +kernel
  have second : readSubmitted plainRuntime
      (submission "65000000" "00000008").2 =
        .ok (some (shareOf 0x65000000 8)) := by
    decide +kernel
  refine ⟨?_, fun next taken => ⟨?_, fun _ _ => trivial⟩⟩
  · intro share job read found
    cases first.symm.trans read
    refine ⟨shareOf_canonical (by decide) (by decide), by decide, ?_⟩
    exact fun earlier member => absurd member List.not_mem_nil
  · intro share job read found
    cases second.symm.trans read
    cases minerView_job found
    refine ⟨shareOf_canonical (by decide) (by decide), ?_⟩
    obtain rfl | ⟨share, job, read, found, -, seen, credited⟩ :=
      submitStep_cases _ _ _ _ taken
    · exact ⟨by decide, fun earlier member => absurd member List.not_mem_nil⟩
    · cases first.symm.trans read
      cases minerView_job found
      refine ⟨by rw [seen]; decide, fun earlier member => ?_⟩
      rw [credited] at member
      obtain none | ⟨check, -, one⟩ := recordVerdict_judged
        Submissions.none.credited (shareOf 0x65000000 7)
        (shareInput (JsString.ofString "00000001") minerView
          (shareOf 0x65000000 7) emptyJob)
        (validateShare constantHashes (shareInput
          (JsString.ofString "00000001") minerView (shareOf 0x65000000 7)
            emptyJob))
      · exact absurd (none ▸ member) List.not_mem_nil
      · cases List.mem_singleton.mp (one ▸ member)
        exact ⟨shareOf_uncollided _ _ _ _ _ _, fun _ => ⟨rfl, rfl⟩⟩

/-- Two nonces at one time are both credited, with different headers. -/
theorem two_nonces_credited_once :
    ∃ final, Machine.run (submitStep plainRuntime constantHashes
        (fun _ _ _ => true) (JsString.ofString "00000001")) Submissions.none
        [submission "65000000" "00000007",
          submission "65000000" "00000008"] = some final ∧
      final.credited.length = 2 ∧
        (final.credited.map Credited.header).Nodup := by
  have both : (creditedHeaders [submission "65000000" "00000007",
      submission "65000000" "00000008"]).map List.length = some 2 := by
    decide +kernel
  obtain ⟨headers, found, size⟩ := Option.map_eq_some_iff.mp both
  obtain ⟨final, taken, rfl⟩ := Option.map_eq_some_iff.mp found
  rw [List.length_map] at size
  exact ⟨final, taken, size, credited_headers_nodup two_nonces_telling taken⟩

end B3Chain.Stratum
