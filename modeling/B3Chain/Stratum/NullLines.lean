import B3Chain.Stratum.ServerRuns

/-!
# A message that ends the process

Every exception of a handler is caught once, and the catch block reads the
message again and answers it.  That fails for the JSON value `null`, and for a
message whose id is nested so deep that `JSON.stringify` runs out of stack.  So
the server goes on serving exactly as long as each message whose handler throws
can be answered.
-/

namespace B3Chain.Stratum

open Words Machine

/-! ## What the catch block does -/

/-- The catch block can answer the message: it is not `null`, and the answer
with its id can be written unless the socket is destroyed. -/
def answerable (setup : Setup) (msg : Json) (c : Client) : Bool :=
  match msg.property "id" with
  | .error _ => false
  | .ok id =>
    setup.stringifies (.error (Json.orElse id .null) (-32603)
      (JsString.ofString "internal error")) || c.destroyed

/-- If this part of the handler throws, the catch block answers. -/
def contained (setup : Setup) (msg : Json) (part : Handler (Option Await))
    (desk : Desk) : Bool :=
  match part.perform desk with
  | (.ok _, _) => true
  | (.error _, thrown) => answerable setup msg thrown.client

variable {setup : Setup} {msg : Json} {server : Server} {connId : Nat}

theorem perform_answer {id : Option Json}
    (named : msg.property "id" = .ok id) (setup : Setup)
    (message : Json → Sent) (desk : Desk) :
    (answer setup msg message).perform desk =
      if setup.stringifies (message (Json.orElse id .null)) ||
          desk.client.destroyed then
        (.ok (), { desk with
          client := desk.client.write (message (Json.orElse id .null)) })
      else (.error .rangeError, desk) := by
  have reply : idOf msg = pure (Json.orElse id .null) := by
    rw [idOf, named]
    rfl
  rw [answer, reply, pure_bind]
  change (ite _ _ _ : Handler Unit).perform desk = _
  split
  · rfl
  · rfl

theorem internalError_returns_iff (setup : Setup) (msg : Json)
    (desk : Desk) :
    (∃ after, ((internalError setup msg).perform desk).1 = .ok after) ↔
      answerable setup msg desk.client = true := by
  have read (id method : Option Json)
      (isId : msg.property "id" = .ok id)
      (isMethod : msg.property "method" = .ok method) :
      (∃ after, ((internalError setup msg).perform desk).1 = .ok after) ↔
        answerable setup msg desk.client = true := by
    rw [internalError, isMethod, Action.ofExcept_ok, pure_bind, sendError,
      Action.perform_bind, perform_answer isId, answerable, isId]
    by_cases writable : (setup.stringifies (.error (Json.orElse id .null)
        (-32603) (JsString.ofString "internal error")) ||
          desk.client.destroyed) = true
    · rw [if_pos writable]
      exact iff_of_true ⟨none, rfl⟩ writable
    · rw [if_neg writable]
      refine iff_of_false ?_ writable
      rintro ⟨after, returned⟩
      cases returned
  cases msg with
  | null =>
    refine iff_of_false ?_ Bool.false_ne_true
    rintro ⟨after, returned⟩
    cases returned
  | bool | num | str | arr | obj => exact read _ _ rfl rfl

/-- The promise of a handler is not rejected exactly if the part is
contained. -/
theorem guarded_returns_iff (setup : Setup) (msg : Json)
    (part : Handler (Option Await)) (desk : Desk) :
    (∃ after, ((guarded setup msg part).perform desk).1 = .ok after) ↔
      contained setup msg part desk = true := by
  rw [guarded, Action.perform_tryCatch, contained]
  rcases part.perform desk with ⟨thrown | after, left⟩
  · exact internalError_returns_iff setup msg left
  · exact iff_of_true ⟨after, rfl⟩ rfl

/-! ## Parts of handlers -/

/-- The part is contained at the connection it is run for. -/
def Server.contained (setup : Setup) (server : Server) (connId : Nat)
    (msg : Json) (part : Handler (Option Await)) : Bool :=
  (server.find connId).all fun c =>
    Stratum.contained setup msg part ⟨c, server.shared⟩

theorem Server.serve_escaped_iff (sound : server.escaped = [])
    (setup : Setup) (connId : Nat) (msg : Json)
    (part : Handler (Option Await)) :
    (server.serve connId msg (guarded setup msg part)).escaped = [] ↔
      server.contained setup connId msg part = true := by
  rw [serve, contained]
  cases server.find connId with
  | none => exact iff_of_true sound rfl
  | some c =>
    rw [Option.all_some, ← guarded_returns_iff]
    dsimp only
    rcases ((guarded setup msg part).perform ⟨c, server.shared⟩).1 with
      thrown | _ | await
    · refine iff_of_false ?_ ?_
      · exact List.append_ne_nil_of_right_ne_nil _ (List.cons_ne_nil _ _)
      · rintro ⟨after, returned⟩
        cases returned
    · exact iff_of_true sound ⟨none, rfl⟩
    · exact iff_of_true sound ⟨some await, rfl⟩

/-- Something that has escaped stays so. -/
theorem Server.serve_escaped (escaped : server.escaped ≠ []) (connId : Nat)
    (msg : Json) (part : Handler (Option Await)) :
    (server.serve connId msg part).escaped ≠ [] := by
  rw [serve]
  cases server.find connId with
  | none => exact escaped
  | some c =>
    dsimp only
    rcases (part.perform ⟨c, server.shared⟩).1 with thrown | _ | await
    · exact List.append_ne_nil_of_left_ne_nil escaped _
    · exact escaped
    · exact escaped

/-! ## Lines -/

/-- The handler that the line starts is contained. -/
def lineContained (setup : Setup) (moment : Moment) (connId : Nat)
    (server : Server) (line : JsString) : Bool :=
  line.trim = [] || (setup.runtime.parse line.trim).all fun msg =>
    server.contained setup connId msg (callMethod setup moment msg)

theorem takeLine_escaped_iff (setup : Setup) (moment : Moment)
    (connId : Nat) (sound : server.escaped = []) (line : JsString) :
    (takeLine setup moment connId server line).escaped = [] ↔
      lineContained setup moment connId server line = true := by
  rw [takeLine, lineContained]
  split
  · next empty => simp [empty, sound]
  · next handled =>
    cases setup.runtime.parse line.trim with
    | none => simp [sound]
    | some msg =>
      refine (Server.serve_escaped_iff sound setup connId msg
        (callMethod setup moment msg)).trans ?_
      simp [handled]

theorem takeLines_escaped_iff (sound : server.escaped = []) (setup : Setup)
    (moment : Moment) (connId : Nat) (lines : List JsString) :
    (lines.foldl (takeLine setup moment connId) server).escaped = [] ↔
      Along (lineStep setup moment connId)
        (fun server line =>
          lineContained setup moment connId server line = true)
        server lines := by
  have after (server : Server) (escaped : server.escaped ≠ [])
      (lines : List JsString) :
      (lines.foldl (takeLine setup moment connId) server).escaped ≠ [] := by
    induction lines generalizing server with
    | nil => exact escaped
    | cons line rest induction =>
      refine induction _ ?_
      rw [takeLine]
      split
      · exact escaped
      · split
        · exact escaped
        · exact Server.serve_escaped escaped connId _ _
  induction lines generalizing server with
  | nil => exact iff_of_true sound trivial
  | cons line rest induction =>
    rw [List.foldl_cons, Along, lineStep,
      ← takeLine_escaped_iff setup moment connId sound line]
    simp only [Option.some_inj, forall_eq']
    by_cases kept : (takeLine setup moment connId server line).escaped = []
    · exact (induction kept).trans (and_iff_right kept).symm
    · exact iff_of_false (after _ kept rest) fun both => kept both.1

/-! ## Events -/

/-- Each part of a handler that the event runs is contained. -/
def eventContained (setup : Setup) (server : Server) :
    Moment × Event → Bool
  | (moment, .data connId chunk) =>
    (server.find connId).all fun c => ChunkMeets setup moment
      (fun server line =>
        lineContained setup moment connId server line = true)
      server connId c chunk
  | (moment, .resume index reply) =>
    (server.waiting[index]?).all fun suspended =>
      match suspended.task with
      | .rpc msg await => (goOn setup moment msg await reply).all
          (server.contained setup suspended.connId msg)
      | .slotAdded _ => true
  | _ => true

theorem onData_escaped_iff (sound : server.escaped = []) (c : Client)
    (setup : Setup) (moment : Moment) (chunk : JsString) :
    (Server.received ((onData setup moment connId c.buf chunk).perform
        server)).escaped = [] ↔
      ChunkMeets setup moment
        (fun server line =>
          lineContained setup moment connId server line = true)
        server connId c chunk := by
  rw [ChunkMeets]
  by_cases long : maxBuffer < (c.buf ++ chunk).length
  · rw [onData, if_pos long]
    exact iff_of_true sound fun short => absurd long short
  · rw [perform_onData setup moment connId long, imp_iff_right long]
    exact takeLines_escaped_iff
      (show (server.keep connId _).escaped = [] from sound) setup moment connId
      _

theorem resume_escaped_iff {next : Server} (sound : server.escaped = [])
    (setup : Setup) (moment : Moment) {index : Nat} {suspended : Suspended}
    (waits : server.waiting[index]? = some suspended) {reply : Reply}
    (taken : server.resume setup moment index suspended reply = some next) :
    next.escaped = [] ↔
      eventContained setup server (moment, .resume index reply) = true := by
  have rest : ({ server with waiting := server.waiting.eraseIdx index } :
      Server).escaped = [] := sound
  rw [eventContained, waits, Option.all_some]
  obtain ⟨connId, task⟩ := suspended
  cases task with
  | rpc msg await =>
    obtain ⟨part, goes, rfl⟩ := Option.map_eq_some_iff.mp taken
    dsimp only
    rw [goes, Option.all_some]
    exact Server.serve_escaped_iff rest setup connId msg part
  | slotAdded userId =>
    refine iff_of_true ?_ rfl
    cases reply with
    | rows found =>
      cases found with
      | error thrown =>
        cases taken
        exact sound
      | ok rows =>
        obtain ⟨c, -, rfl⟩ := Option.map_eq_some_iff.mp taken
        exact sound
    | _ => cases taken

/-- One event keeps the server going exactly if it is contained. -/
theorem serverStep_escaped_iff (setup : Setup) (server : Server)
    (event : Moment × Event) (next : Server) (sound : server.escaped = [])
    (taken : serverStep setup server event = some next) :
    next.escaped = [] ↔ eventContained setup server event = true := by
  obtain ⟨moment, event⟩ := event
  rw [serverStep, if_neg (not_not.mpr sound)] at taken
  cases event with
  | connect | job | retune =>
    cases taken
    exact iff_of_true sound rfl
  | data connId chunk =>
    obtain ⟨c, found, live⟩ := Option.bind_eq_some_iff.mp taken
    split at live
    · cases live
    · cases live
      rw [onData_escaped_iff sound, eventContained, found, Option.all_some,
        decide_eq_true_eq]
  | close connId =>
    obtain ⟨c, -, live⟩ := Option.bind_eq_some_iff.mp taken
    split at live
    · cases live
    · cases live
      exact iff_of_true sound rfl
  | subscribeTimeout connId =>
    obtain ⟨c, -, rfl⟩ := Option.map_eq_some_iff.mp taken
    refine iff_of_true ?_ rfl
    split
    · exact sound
    · exact sound
  | resume index reply =>
    obtain ⟨suspended, waits, resumed⟩ := Option.bind_eq_some_iff.mp taken
    exact resume_escaped_iff sound setup moment waits resumed
  | slotAdded userId =>
    cases taken
    refine iff_of_true ?_ rfl
    split
    · exact sound
    · exact sound

/--
Nothing escapes the server in a run exactly if each message whose handler throws
in it can be answered by the catch block.
-/
theorem nothing_escapes_iff_contained (setup : Setup)
    {events : List (Moment × Event)} {final : Server}
    (taken : run (serverStep setup) Server.started events = some final) :
    final.escaped = [] ↔
      Along (serverStep setup)
        (fun server event => eventContained setup server event = true)
        Server.started events := by
  have kept : ∀ server event next, True → server.escaped = [] →
      serverStep setup server event = some next →
        True ∧ (next.escaped = [] ↔
          eventContained setup server event = true) :=
    fun server event next _ sound stepped =>
      ⟨trivial, serverStep_escaped_iff setup server event next sound stepped⟩
  refine run_well_iff_along kept (fun server event ended => ?_) trivial rfl
    taken
  rw [serverStep, if_pos ended]

/-! ### Messages that end the process and messages that do not -/

/-- A runtime that parses `null`, a text that is no call and a call whose id is
nested. -/
def smallRuntime : Runtime :=
  { plainRuntime with
    parse := fun text =>
      if text = JsString.ofString "null" then some .null
      else if text = JsString.ofString "[]" then some (.arr [])
      else if text = JsString.ofString "nested" then
        some (.obj [(JsString.ofString "id", .arr [.arr []])])
      else none }

/-- A server that writes only ids that are not nested. -/
def smallSetup : Setup where
  runtime := smallRuntime
  hashes := constantHashes
  verifyP256Digest := fun _ _ _ => false
  sha256 := fun _ => []
  vardiff :=
    { targetSeconds := 600, retuneSeconds := 30, minDiff := 1, maxDiff := 2,
      initialDiff := 1, maxStep := 4 }
  workerDifficulty := fun _ => none
  vardiffEnabled := false
  randomBytes := fun _ => []
  stringifies := fun sent =>
    match sent with
    | .error (.arr _) _ _ => false
    | _ => true

/-- A time without jobs. -/
def quiet : Moment where
  now := 0
  current := none
  getById := fun _ => none

/-- One connection that sends two lines. -/
def twoLines (first second : String) : List (Moment × Event) :=
  [(quiet, .connect),
    (quiet, .data 1 (JsString.ofString first ++ [10] ++
      JsString.ofString second ++ [10]))]

/-- A value that is no call and a text that does not parse are taken, and the
server goes on. -/
theorem stray_lines_escape_nothing :
    ∃ final, run (serverStep smallSetup) Server.started
        (twoLines "[]" "text") = some final ∧ final.escaped = [] := by
  have clear : Along (serverStep smallSetup)
      (fun server event => eventContained smallSetup server event = true)
      Server.started (twoLines "[]" "text") := by
    decide +kernel
  obtain ⟨final, taken⟩ : ∃ final, run (serverStep smallSetup)
      Server.started (twoLines "[]" "text") = some final := ⟨_, rfl⟩
  exact ⟨final, taken,
    (nothing_escapes_iff_contained smallSetup taken).mpr clear⟩

/-- A line with `null` rejects a promise that nobody handles, and so does one
with an id that cannot be written. -/
theorem null_line_escapes :
    (run (serverStep smallSetup) Server.started (twoLines "[]" "null")).map
        Server.escaped = some [.rejection .typeError] ∧
      (run (serverStep smallSetup) Server.started
        (twoLines "[]" "nested")).map Server.escaped =
          some [.rejection .rangeError] := by
  decide +kernel

end B3Chain.Stratum
