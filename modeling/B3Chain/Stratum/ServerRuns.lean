import B3Chain.Machine.Tables
import B3Chain.Stratum.Connections

/-!
# Lines and connections of the server

The data handler throws nothing, so a chunk does what its lines do one after
the other.  A part of a handler changes one connection and what the connections
share, and may add one call that waits.
-/

namespace B3Chain.Stratum

open Words Machine

/-! ## One connection -/

theorem Server.settle_clients (server : Server) (connId : Nat) (msg : Json)
    (outcome : Except JsError (Option Await)) :
    (server.settle connId msg outcome).clients = server.clients := by
  match outcome with
  | .error thrown => rfl
  | .ok none => rfl
  | .ok (some await) => rfl

/-! ## Lines -/

/-- What a line does to the server. -/
def takeLine (setup : Setup) (moment : Moment) (connId : Nat)
    (server : Server) (line : JsString) : Server :=
  if line.trim = [] then server
  else
    match setup.runtime.parse line.trim with
    | none => server
    | some msg => server.serve connId msg (handleRpc setup moment msg)

theorem perform_onLine (setup : Setup) (moment : Moment) (connId : Nat)
    (line : JsString) (server : Server) :
    (onLine setup moment connId line).perform server =
      (.ok (), takeLine setup moment connId server line) := by
  rw [onLine, takeLine]
  split
  · rfl
  · rw [Action.perform_tryCatch, Action.perform_bind, parseLine]
    cases setup.runtime.parse line.trim with
    | none => rfl
    | some msg => rfl

/-- The data handler throws nothing. -/
theorem perform_onLines (setup : Setup) (moment : Moment) (connId : Nat)
    (lines : List JsString) (server : Server) :
    (onLines setup moment connId lines).perform server =
      (.ok (), lines.foldl (takeLine setup moment connId) server) := by
  induction lines generalizing server with
  | nil => rfl
  | cons line rest induction =>
    rw [onLines, Action.perform_bind, perform_onLine]
    exact induction _

theorem perform_onData (setup : Setup) (moment : Moment) (connId : Nat)
    {buf chunk : JsString} (short : ¬ maxBuffer < (buf ++ chunk).length)
    (server : Server) :
    (onData setup moment connId buf chunk).perform server =
      (.ok (), (bufferedLines (buf ++ chunk)).1.foldl
        (takeLine setup moment connId)
        (server.keep connId (bufferedLines (buf ++ chunk)).2)) := by
  rw [onData, if_neg short, Action.perform_bind, Action.perform_modify]
  exact perform_onLines setup moment connId _ _

theorem takeLine_eq (setup : Setup) (moment : Moment) (connId : Nat)
    (server : Server) (line : JsString) :
    takeLine setup moment connId server line =
      (lineMessage setup.runtime line).foldl (fun server msg =>
        server.serve connId msg (handleRpc setup moment msg)) server := by
  rw [takeLine, lineMessage]
  split
  · rfl
  · cases setup.runtime.parse line.trim with
    | none | some => rfl

/-- The data handler serves the messages that the client's buffer emits and
leaves the connection what that buffer keeps. -/
theorem perform_onData_eq_lineBuffer (setup : Setup) (moment : Moment)
    (connId : Nat) (buf chunk : JsString) (server : Server) :
    (onData setup moment connId buf chunk).perform server =
      let emitted := (LineBuffer.mk buf false).onData setup.runtime chunk
      (.ok (), emitted.1.foldl (fun server msg =>
        server.serve connId msg (handleRpc setup moment msg))
        (server.update connId fun c =>
          { c with
            buf := emitted.2.buf
            destroyed := c.destroyed || emitted.2.destroyed })) := by
  rw [LineBuffer.onData, if_neg Bool.false_ne_true]
  dsimp only
  by_cases long : maxBuffer < (buf ++ chunk).length
  · rw [onData, if_pos long, if_pos long]
    simp only [Bool.or_true]
    rfl
  · rw [perform_onData setup moment connId long, if_neg long,
      funext₂ (takeLine_eq setup moment connId), List.foldl_flatMap]
    simp only [Bool.or_false]
    rfl

/-! ## Invariants of the data handler -/

/-- The server takes the lines of a chunk as a machine takes events. -/
def lineStep (setup : Setup) (moment : Moment) (connId : Nat)
    (server : Server) (line : JsString) : Option Server :=
  some (takeLine setup moment connId server line)

theorem run_lineStep (setup : Setup) (moment : Moment) (connId : Nat)
    (lines : List JsString) (server : Server) :
    run (lineStep setup moment connId) server lines =
      some (lines.foldl (takeLine setup moment connId) server) := by
  induction lines generalizing server with
  | nil => rfl
  | cons line rest induction => exact induction _

/-- The connection has sent too much without a line feed. -/
def Server.flood (server : Server) (connId : Nat) (buf : JsString) : Server :=
  server.update connId fun c => { c with buf, destroyed := true }

/-- Each line of a chunk meets a condition in the state it is handled in. -/
def ChunkMeets (setup : Setup) (moment : Moment)
    (met : Server → JsString → Prop) (server : Server) (connId : Nat)
    (c : Client) (chunk : JsString) : Prop :=
  ¬ maxBuffer < (c.buf ++ chunk).length →
    Along (lineStep setup moment connId) met
      (server.keep connId (bufferedLines (c.buf ++ chunk)).2)
      (bufferedLines (c.buf ++ chunk)).1

instance decidableChunkMeets (setup : Setup) (moment : Moment)
    (met : Server → JsString → Prop)
    [∀ server line, Decidable (met server line)] (server : Server)
    (connId : Nat) (c : Client) (chunk : JsString) :
    Decidable (ChunkMeets setup moment met server connId c chunk) :=
  inferInstanceAs (Decidable (¬ _ → _))

/-- What the server reaches with a chunk. -/
theorem onData_reaches {setup : Setup} {moment : Moment} {connId : Nat}
    {reached : Server → Prop} {met : Server → JsString → Prop}
    {server : Server} (invariant : Server → Prop)
    (flooded : ∀ buf, reached (server.flood connId buf))
    (start : ∀ buf, invariant (server.keep connId buf))
    (lines : ∀ server line, invariant server → met server line →
      invariant (takeLine setup moment connId server line))
    (ends : ∀ server, invariant server → reached server) (c : Client)
    {chunk : JsString}
    (meets : ChunkMeets setup moment met server connId c chunk) :
    reached (Server.received
      ((onData setup moment connId c.buf chunk).perform server)) := by
  by_cases long : maxBuffer < (c.buf ++ chunk).length
  · rw [onData, if_pos long]
    exact flooded _
  · rw [perform_onData setup moment connId long]
    refine ends _ (run_invariant (fun before line next holds now stepped => ?_)
      (start _) (meets long) (run_lineStep setup moment connId _ _))
    cases stepped
    exact lines before line holds now

/-- What each line keeps, a chunk keeps. -/
theorem onData_invariant {setup : Setup} {moment : Moment} {connId : Nat}
    {invariant : Server → Prop}
    (kept : ∀ server buf, invariant server →
      invariant (server.keep connId buf))
    (flooded : ∀ server buf, invariant server →
      invariant (server.flood connId buf))
    (lines : ∀ server line, invariant server →
      invariant (takeLine setup moment connId server line))
    {server : Server} (start : invariant server) (c : Client)
    (chunk : JsString) :
    invariant (Server.received
      ((onData setup moment connId c.buf chunk).perform server)) := by
  have anything : ChunkMeets setup moment (fun _ _ => True) server connId c
      chunk := fun _ => along_of_forall (fun _ _ _ => trivial) _
  exact onData_reaches invariant (fun buf => flooded server buf start)
    (fun buf => kept server buf start) (fun server line holds _ =>
      lines server line holds) (fun _ holds => holds) c anything

end B3Chain.Stratum
