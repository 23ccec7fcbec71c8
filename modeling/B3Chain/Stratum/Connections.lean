import B3Chain.Stratum.LineFraming
import B3Chain.Stratum.Server

/-!
# The connections of the Stratum V1 server

The server takes one event at a time: a chunk of text from a client, a reply
that a waiting handler goes on with, a new job, a timer, an operator's call.  A
chunk is cut into lines; each line that parses starts a handler, which runs up
to its first wait before the next line is looked at.  The process ends when a
promise is rejected that nobody handles, or an exception leaves the data
handler.
-/

namespace B3Chain.Stratum

open Words Machine

/-! ## The server -/

/-- What a suspended call belongs to. -/
inductive Task
  | rpc (msg : Json) (await : Await)
  | slotAdded (userId : Nat)

/-- A call that waits for a reply. -/
structure Suspended where
  connId : Nat
  task : Task

/-- What nobody handles. -/
inductive Escape
  | rejection (thrown : JsError)
  | exception (thrown : JsError)
  deriving DecidableEq

/-- `StratumServer`, with the connections that were ever opened. -/
structure Server where
  clients : List (Nat × Client)
  shared : Shared
  nextConnId : Nat
  nextExtranonce1 : Int
  waiting : List Suspended
  escaped : List Escape

/-- The server at its start. -/
def Server.started : Server where
  clients := []
  shared := { heldSlots := [], drawn := 0, ipc := [] }
  nextConnId := 1
  nextExtranonce1 := 0
  waiting := []
  escaped := []

namespace Server

/-- The connection with the given id. -/
def find (server : Server) (connId : Nat) : Option Client :=
  server.clients.lookup connId

/-- One connection changes. -/
def update (server : Server) (connId : Nat) (change : Client → Client) :
    Server :=
  { server with
    clients := server.clients.map fun entry =>
      if entry.1 = connId then (entry.1, change entry.2) else entry }

/-- The text of a connection that no line has ended yet. -/
def keep (server : Server) (connId : Nat) (buf : JsString) : Server :=
  server.update connId fun c => { c with buf }

/-- What a handler's part leaves: it ends, waits, or its promise is rejected. -/
def settle (server : Server) (connId : Nat) (msg : Json) :
    Except JsError (Option Await) → Server
  | .error thrown =>
    { server with escaped := server.escaped ++ [.rejection thrown] }
  | .ok none => server
  | .ok (some await) =>
    { server with
      waiting := server.waiting ++ [⟨connId, .rpc msg await⟩] }

/-- The server after the part of a handler left the desk. -/
def put (server : Server) (connId : Nat) (desk : Desk) : Server :=
  { server.update connId fun _ => desk.client with shared := desk.shared }

/-- A part of a handler of one connection is run. -/
def serve (server : Server) (connId : Nat) (msg : Json)
    (part : Handler (Option Await)) : Server :=
  match server.find connId with
  | none => server
  | some c =>
    let result := part.perform ⟨c, server.shared⟩
    (server.put connId result.2).settle connId msg result.1

end Server

/-! ## Data from a client -/

/-- `this.emit("rpc", m)`: the promise of the handler is not waited for. -/
def emitRpc (setup : Setup) (moment : Moment) (connId : Nat) (msg : Json) :
    Action JsError Server Unit :=
  modify fun server =>
    server.serve connId msg (handleRpc setup moment msg)

/-- `JSON.parse`. -/
def parseLine (setup : Setup) (line : JsString) :
    Action JsError Server Json :=
  match setup.runtime.parse line with
  | none => throw (.error (JsString.ofString "parse error"))
  | some msg => pure msg

/-- One line of a client. -/
def onLine (setup : Setup) (moment : Moment) (connId : Nat)
    (line : JsString) : Action JsError Server Unit :=
  if line.trim = [] then pure ()
  else
    tryCatch
      (parseLine setup line.trim >>= emitRpc setup moment connId)
      -- A line that does not parse is logged.
      fun _ => pure ()

/-- The lines of a chunk, one after the other. -/
def onLines (setup : Setup) (moment : Moment) (connId : Nat) :
    List JsString → Action JsError Server Unit
  | [] => pure ()
  | line :: rest => do
      onLine setup moment connId line
      onLines setup moment connId rest

/-- `StratumClient.onData`; `buf` is what the connection has kept. -/
def onData (setup : Setup) (moment : Moment) (connId : Nat)
    (buf chunk : JsString) : Action JsError Server Unit :=
  if maxBuffer < (buf ++ chunk).length then
    modify fun server => server.update connId fun c =>
      { c with buf := buf ++ chunk, destroyed := true }
  else do
    modify fun server => server.keep connId (bufferedLines (buf ++ chunk)).2
    onLines setup moment connId (bufferedLines (buf ++ chunk)).1

/-! ## Events -/

/-- `broadcastJob`; an exception ends the loop and is the caller's. -/
def broadcastJob (job : StratumJob) :
    List (Nat × Client) → List (Nat × Client)
  | [] => []
  | (connId, c) :: rest =>
    if c.closed ∨ c.state ≠ .authorized then
      (connId, c) :: broadcastJob job rest
    else
      match c.pushJob job with
      | (.error _, pushed) => (connId, pushed) :: rest
      | (.ok _, pushed) => (connId, pushed) :: broadcastJob job rest

/-- One connection in the loop of `startVardiffLoop`. -/
def retune (setup : Setup) (moment : Moment) (c : Client) : Client :=
  if c.closed ∨ setup.vardiffEnabled = false then c
  else
    match c.vardiff.maybeRetune setup.vardiff moment.now with
    | (none, vardiff) => { c with vardiff }
    | (some next, vardiff) =>
      let tuned := { c with vardiff }
      tuned.pushDifficulty (tuned.wireShareDifficulty next)

/-- The connection `slotAdded` serves: the first one that was authorized. -/
def firstPending (userId : Nat) (clients : List (Nat × Client)) :
    Option Nat :=
  (((clients.filter fun entry =>
      ¬ entry.2.closed ∧ entry.2.state = .authorized ∧
        entry.2.attest = .pending ∧ entry.2.pubkey.isSome ∧
          entry.2.userId = some userId).mergeSort
    fun a b => decide (a.2.authorizedAt ≤ b.2.authorizedAt)).head?).map
      Prod.fst

/-- `slotAdded` once the empty slots are read. -/
def slotGranted (setup : Setup) (rows : List PassportSlot) :
    Handler (Option Await) := do
  match ← holdFirst rows with
  | none => return none
  | some slot =>
    changeClient fun c =>
      { c with reservedSlotId := some slot.id, attest := .none }
    sendChallenge setup
    return none

/-- What can happen. -/
inductive Event
  | connect
  | data (connId : Nat) (chunk : JsString)
  | close (connId : Nat)
  | subscribeTimeout (connId : Nat)
  | resume (index : Nat) (reply : Reply)
  | job (job : StratumJob)
  | retune
  | slotAdded (userId : Nat)

namespace Server

/-- A new connection. -/
def connect (setup : Setup) (moment : Moment) (server : Server) : Server :=
  let extranonce1 := JsNumber.bitAnd (server.nextExtranonce1 + 1) 0xffffffff
  { server with
    clients := server.clients ++
      [(server.nextConnId,
        Client.new setup.vardiff moment.now server.nextConnId
          (Client.paddedHex extranonce1))]
    nextConnId := server.nextConnId + 1
    nextExtranonce1 := extranonce1 }

/-- The `close` event of a connection. -/
def closed (server : Server) (connId : Nat) (c : Client) : Server :=
  { server.update connId fun c =>
      { c with reservedSlotId := none, destroyed := true, closed := true } with
    shared := { server.shared with
      heldSlots := server.shared.heldSlots.filter fun slotId =>
        some slotId ≠ c.reservedSlotId } }

/-- A waiting call goes on. -/
def resume (setup : Setup) (moment : Moment) (server : Server) (index : Nat)
    (suspended : Suspended) (reply : Reply) : Option Server :=
  let rest := { server with waiting := server.waiting.eraseIdx index }
  match suspended.task, reply with
  | .rpc msg await, reply =>
    (goOn setup moment msg await reply).map fun part =>
      rest.serve suspended.connId msg (guarded setup msg part)
  | .slotAdded _, .rows (.ok rows) =>
    (rest.find suspended.connId).map fun c =>
      rest.put suspended.connId
        ((slotGranted setup rows).perform ⟨c, rest.shared⟩).2
  -- A rejection of `slotAdded` is answered by its caller.
  | .slotAdded _, .rows (.error _) => some rest
  | .slotAdded _, _ => none

/-- The data handler has run; an exception that leaves it is not handled. -/
def received (result : Except JsError Unit × Server) : Server :=
  match result.1 with
  | .ok _ => result.2
  | .error thrown =>
    { result.2 with escaped := result.2.escaped ++ [.exception thrown] }

end Server

/-- One event; the process has ended once something escaped. -/
def serverStep (setup : Setup) (server : Server) (event : Moment × Event) :
    Option Server :=
  if server.escaped ≠ [] then none
  else
    match event.2 with
    | .connect => some (server.connect setup event.1)
    | .data connId chunk =>
      (server.find connId).bind fun c =>
        if c.destroyed then none
        else
          some (Server.received
            ((onData setup event.1 connId c.buf chunk).perform server))
    | .close connId =>
      (server.find connId).bind fun c =>
        if c.closed then none else some (server.closed connId c)
    | .subscribeTimeout connId =>
      (server.find connId).map fun c =>
        if c.state = .new then
          server.update connId fun c => { c with destroyed := true }
        else server
    | .resume index reply =>
      (server.waiting[index]?).bind fun suspended =>
        server.resume setup event.1 index suspended reply
    | .job job =>
      some { server with clients := broadcastJob job server.clients }
    | .retune =>
      some { server with
        clients := server.clients.map fun entry =>
          (entry.1, retune setup event.1 entry.2) }
    | .slotAdded userId =>
      some (match firstPending userId server.clients with
        | none => server
        | some connId =>
          { server with
            waiting := server.waiting ++ [⟨connId, .slotAdded userId⟩] })

end B3Chain.Stratum
