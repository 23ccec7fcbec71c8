import B3Chain.Sv2.JdServer
import B3Chain.Sv2.NoiseTransport

/-!
# The Stratum V2 process

The mining server and the job-declaration server run in one process.  A handler
runs to its end or to its first wait before anything else happens; the loops
over the frames of a chunk and over the channels of a new job are taken one
round at a time, and while rounds are left nothing else happens.  What a
synchronous handler throws ends its loop and the connection; a promise that is
rejected and that nobody awaits ends the process.
-/

namespace B3Chain.Sv2

open Words Framing Machine
open Stratum (StratumJob)

variable {Key : Type}

/-! ## States -/

/-- A connection after the handshake, with the bytes it has not read as frames
yet; one that has closed is kept for what still waits on it. -/
structure Link (Key Conn : Type) where
  receiver : Receiver Key
  plain : List Byte
  conn : Conn
  closed : Bool

/-- A round of a loop that is still to come. -/
inductive Work
  | plain (connId : Nat) (bytes : List Byte)
  | frame (connId : Nat) (frame : Sv2Frame)
  | push (connId channelId : Nat) (job : StratumJob)
  | declarerPlain (connId : Nat) (bytes : List Byte)
  | declarerFrame (connId : Nat) (frame : Sv2Frame)

/-- The process.  Connections are named by the order they came in. -/
structure Process (Key : Type) where
  miners : List (Link Key MiningConn)
  declarers : List (Link Key JdConn)
  board : JobBoard
  tokens : TokenStore
  drawn : Nat
  work : List Work
  submits : List (Nat × PendingShare)
  declares : List (Nat × JdAwait)
  shares : List Accepted
  escaped : List String

/-- The process when it starts. -/
def Process.started : Process Key where
  miners := []
  declarers := []
  board := JobBoard.empty
  tokens := []
  drawn := 0
  work := []
  submits := []
  declares := []
  shares := []
  escaped := []

/-- What happens to the process. -/
inductive Event (Key : Type)
  | accept (recv : CipherState Key)
  | data (connId : Nat) (chunk : List Byte)
  | close (connId : Nat)
  | reply (index : Nat)
  | acceptDeclarer (recv : CipherState Key)
  | declarerData (connId : Nat) (chunk : List Byte)
  | declarerClose (connId : Nat)
  | resume (index : Nat)
  | job (job : StratumJob)
  | collect
  | next

/-- A connection whose handshake is done. -/
def Link.new {Conn : Type} (recv : CipherState Key) (conn : Conn) :
    Link Key Conn where
  receiver := { ct := [], recv }
  plain := []
  conn := conn
  closed := false

namespace Process

/-! ## Miners -/

/-- What the handlers of a miner work on. -/
def desk (process : Process Key) (conn : MiningConn) : Desk where
  conn := conn
  board := process.board
  drawn := process.drawn

/-- The connection of a miner changes. -/
def changeMiner (process : Process Key) (connId : Nat)
    (change : MiningConn → MiningConn) : Process Key :=
  { process with
    miners := process.miners.modify connId fun link =>
      { link with conn := change link.conn } }

/-- What a handler of a miner leaves. -/
def putDesk (process : Process Key) (connId : Nat) (desk : Desk) :
    Process Key :=
  { process.changeMiner connId fun _ => desk.conn with
    board := desk.board
    drawn := desk.drawn }

/-- What the data handler does with an exception. -/
def breakMiner (process : Process Key) (connId : Nat) : Process Key :=
  { process.changeMiner connId fun conn => { conn with destroyed := true } with
    work := [] }

/-- What a dispatch that returned has started. -/
def begin (process : Process Key) (connId : Nat) : Started → Process Key
  | .done => process
  | .waits pending =>
    { process with submits := process.submits ++ [(connId, pending)] }
  | .rejected thrown =>
    { process with escaped := process.escaped ++ [thrown] }

/-- A frame of a miner. -/
def takeFrame (setup : Setup) (moment : Moment) (process : Process Key)
    (connId : Nat) (conn : MiningConn) (frame : Sv2Frame) : Process Key :=
  match (dispatch setup moment frame).perform (process.desk conn) with
  | (.error _, left) => (process.putDesk connId left).breakMiner connId
  | (.ok started, left) => (process.putDesk connId left).begin connId started

/-- `handlePlainBytes` up to its loop. -/
def takePlain (process : Process Key) (connId : Nat)
    (link : Link Key MiningConn) (bytes : List Byte) : Process Key :=
  { process with
    miners := process.miners.modify connId fun link =>
      { link with plain := (splitFrames (link.plain ++ bytes)).2 }
    work := (splitFrames (link.plain ++ bytes)).1.map (.frame connId) ++
      process.work }

/-- A job for a channel; an exception ends the loop over the channels. -/
def takePush (setup : Setup) (process : Process Key) (connId : Nat)
    (conn : MiningConn) (channelId : Nat) (job : StratumJob) : Process Key :=
  match (pushJobToChannel setup channelId job).perform (process.desk conn) with
  | (.error _, left) => { process.putDesk connId left with work := [] }
  | (.ok _, left) => process.putDesk connId left

/-- The rest of a handler of shares. -/
def takeReply (moment : Moment) (process : Process Key) (connId : Nat)
    (conn : MiningConn) (pending : PendingShare) : Process Key :=
  match (replySubmit moment pending).perform (process.desk conn) with
  | (.error thrown, left) =>
    { process.putDesk connId left with escaped := process.escaped ++ [thrown] }
  | (.ok accepted, left) =>
    { process.putDesk connId left with
      shares := process.shares ++ accepted.toList }

/-! ## Declared jobs -/

/-- The connection and the channel `pushCustomJob` takes. -/
def customTarget (process : Process Key) (userIdentity : JsString) :
    Option (Nat × MiningConn × ChannelState) :=
  process.miners.zipIdx.findSome? fun entry =>
    if entry.1.closed then none
    else
      (entry.1.conn.channelOfUser userIdentity).map fun ch =>
        (entry.2, entry.1.conn, ch)

/-- `pushCustomJob`: the reason if the job is not delivered. -/
def pushCustomJob (moment : Moment) (process : Process Key)
    (declared : DeclareMiningJob) (userIdentity : JsString) :
    Except String (Option String) × Process Key :=
  match process.customTarget userIdentity, moment.current with
  | none, _ => (.ok (some "no-open-extended-channel-for-user"), process)
  | some _, none => (.ok (some "no-current-template"), process)
  | some (connId, conn, ch), some job =>
    match (sendCustomJob ch job declared).perform (process.desk conn) with
    | (.error thrown, left) => (.error thrown, process.putDesk connId left)
    | (.ok _, left) => (.ok none, process.putDesk connId left)

/-- What the handlers of a declarer work on. -/
def jdDesk (process : Process Key) (conn : JdConn) : JdDesk where
  conn := conn
  tokens := process.tokens
  drawn := process.drawn

/-- The connection of a declarer changes. -/
def changeDeclarer (process : Process Key) (connId : Nat)
    (change : JdConn → JdConn) : Process Key :=
  { process with
    declarers := process.declarers.modify connId fun link =>
      { link with conn := change link.conn } }

/-- What a handler of a declarer leaves. -/
def putJdDesk (process : Process Key) (connId : Nat) (desk : JdDesk) :
    Process Key :=
  { process.changeDeclarer connId fun _ => desk.conn with
    tokens := desk.tokens
    drawn := desk.drawn }

/-- A dispatch waits. -/
def await (process : Process Key) (connId : Nat) (jdAwait : JdAwait) :
    Process Key :=
  { process with declares := process.declares ++ [(connId, jdAwait)] }

/-- What a part of a dispatch has come to. -/
def settle (moment : Moment) (process : Process Key) (connId : Nat) :
    Except String JdOutcome → Process Key
  | .error thrown => { process with escaped := process.escaped ++ [thrown] }
  | .ok .done => process
  | .ok (.waits jdAwait) => process.await connId jdAwait
  | .ok (.deliver m userIdentity) =>
    let delivered := process.pushCustomJob moment m userIdentity
    delivered.2.await connId (.delivered m delivered.1)

/-- A part of a dispatch runs. -/
def takePart (moment : Moment) (process : Process Key) (connId : Nat)
    (conn : JdConn) (part : JdHandler JdOutcome) : Process Key :=
  let performed := part.perform (process.jdDesk conn)
  (process.putJdDesk connId performed.2).settle moment connId performed.1

/-- `handlePlainBytes` of a declarer up to its loop. -/
def takeDeclarerPlain (process : Process Key) (connId : Nat)
    (link : Link Key JdConn) (bytes : List Byte) : Process Key :=
  { process with
    declarers := process.declarers.modify connId fun link =>
      { link with plain := (splitFrames (link.plain ++ bytes)).2 }
    work := (splitFrames (link.plain ++ bytes)).1.map (.declarerFrame connId) ++
      process.work }

/-! ## Steps -/

/-- The connection of a miner. -/
def miner (process : Process Key) (connId : Nat) : Option MiningConn :=
  process.miners[connId]?.map Link.conn

/-- The connection of a declarer. -/
def declarer (process : Process Key) (connId : Nat) : Option JdConn :=
  process.declarers[connId]?.map Link.conn

/-- One round of a loop. -/
def takeRound (setup : Setup) (moment : Moment) (process : Process Key) :
    Work → Option (Process Key)
  | .plain connId bytes =>
    process.miners[connId]?.map fun link =>
      process.takePlain connId link bytes
  | .frame connId frame =>
    (process.miner connId).map fun conn =>
      process.takeFrame setup moment connId conn frame
  | .push connId channelId job =>
    (process.miner connId).map fun conn =>
      process.takePush setup connId conn channelId job
  | .declarerPlain connId bytes =>
    process.declarers[connId]?.map fun link =>
      process.takeDeclarerPlain connId link bytes
  | .declarerFrame connId frame =>
    (process.declarer connId).map fun conn =>
      process.takePart moment connId conn (jdDispatch setup moment frame)

/-- The rounds of `broadcastJob`. -/
def pushes (process : Process Key) (job : StratumJob) : List Work :=
  process.miners.zipIdx.flatMap fun entry =>
    if entry.1.closed ∨ entry.1.conn.phase ≠ .ready then []
    else
      entry.1.conn.channels.all.map fun ch => .push entry.2 ch.id job

/-- What a chunk gives: rounds, or the end of the connection. -/
def takeData (aead : Aead Key) (process : Process Key) (connId : Nat)
    (link : Link Key MiningConn) (chunk : List Byte) : Process Key :=
  match link.receiver.onData aead chunk with
  | .error _ => process.breakMiner connId
  | .ok (plains, receiver) =>
    { process with
      miners := process.miners.modify connId fun link =>
        { link with receiver }
      work := plains.map (.plain connId) }

/-- What a chunk of a declarer gives. -/
def takeDeclarerData (aead : Aead Key) (process : Process Key) (connId : Nat)
    (link : Link Key JdConn) (chunk : List Byte) : Process Key :=
  match link.receiver.onData aead chunk with
  | .error _ =>
    process.changeDeclarer connId fun conn => { conn with destroyed := true }
  | .ok (plains, receiver) =>
    { process with
      declarers := process.declarers.modify connId fun link =>
        { link with receiver }
      work := plains.map (.declarerPlain connId) }

/-- Something happens while no loop is running. -/
def takeEvent (aead : Aead Key) (setup : Setup) (moment : Moment)
    (process : Process Key) : Event Key → Option (Process Key)
  | .accept recv =>
    some { process with
      miners := process.miners ++ [Link.new recv MiningConn.new] }
  | .data connId chunk =>
    process.miners[connId]?.bind fun link =>
      if link.closed ∨ link.conn.destroyed then none
      else some (process.takeData aead connId link chunk)
  | .close connId =>
    some { process with
      miners := process.miners.modify connId fun link =>
        { link with closed := true } }
  | .reply index =>
    process.submits[index]?.bind fun entry =>
      (process.miner entry.1).map fun conn =>
        { process with submits := process.submits.eraseIdx index }.takeReply
          moment entry.1 conn entry.2
  | .acceptDeclarer recv =>
    some { process with
      declarers := process.declarers ++ [Link.new recv JdConn.new] }
  | .declarerData connId chunk =>
    process.declarers[connId]?.bind fun link =>
      if link.closed ∨ link.conn.destroyed then none
      else some (process.takeDeclarerData aead connId link chunk)
  | .declarerClose connId =>
    some { process with
      declarers := process.declarers.modify connId fun link =>
        { link with closed := true } }
  | .resume index =>
    process.declares[index]?.bind fun entry =>
      (process.declarer entry.1).map fun conn =>
        { process with declares := process.declares.eraseIdx index }.takePart
          moment entry.1 conn (jdGoOn setup entry.2)
  | .job job => some { process with work := process.pushes job }
  | .collect =>
    some { process with tokens := TokenStore.gc process.tokens moment.now }
  | .next => none

/-- The process ends with the first rejection that nobody handles. -/
def step (aead : Aead Key) (setup : Setup) (process : Process Key)
    (event : Moment × Event Key) : Option (Process Key) :=
  if process.escaped ≠ [] then none
  else
    match process.work, event.2 with
    | [], happened => process.takeEvent aead setup event.1 happened
    | round :: rest, .next =>
      { process with work := rest }.takeRound setup event.1 round
    | _ :: _, _ => none

theorem miner_eq_some {process : Process Key} {connId : Nat}
    {conn : MiningConn} (found : process.miner connId = some conn) :
    ∃ link, process.miners[connId]? = some link ∧ link.conn = conn := by
  rw [miner, Option.map_eq_some_iff] at found
  exact found

/-- The connection for a declared job is a connection of the process. -/
theorem miner_of_customTarget {process : Process Key} {userIdentity : JsString}
    {connId : Nat} {conn : MiningConn} {ch : ChannelState}
    (found : process.customTarget userIdentity = some (connId, conn, ch)) :
    process.miner connId = some conn := by
  obtain ⟨⟨link, index⟩, member, taken⟩ :=
    List.exists_of_findSome?_eq_some found
  dsimp only at taken
  split at taken
  · cases taken
  · obtain ⟨other, -, same⟩ := Option.map_eq_some_iff.mp taken
    cases same
    rw [miner, List.mk_mem_zipIdx_iff_getElem?.mp member]
    rfl

/-- A declared job is sent on one connection, or nothing changes. -/
theorem pushCustomJob_cases (moment : Moment) (process : Process Key)
    (declared : DeclareMiningJob) (userIdentity : JsString) :
    (process.pushCustomJob moment declared userIdentity).2 = process ∨
      ∃ connId conn ch, ∃ job ∈ moment.current,
        process.miner connId = some conn ∧
        process.pushCustomJob moment declared userIdentity =
          ((((sendCustomJob ch job declared).perform
              (process.desk conn)).1).map fun _ => none,
            process.putDesk connId ((sendCustomJob ch job declared).perform
              (process.desk conn)).2) := by
  rw [pushCustomJob]
  cases target : process.customTarget userIdentity with
  | none => exact .inl rfl
  | some found =>
    obtain ⟨connId, conn, ch⟩ := found
    cases moment.current with
    | none => exact .inl rfl
    | some job =>
      refine .inr ⟨connId, conn, ch, job, rfl,
        miner_of_customTarget target, ?_⟩
      dsimp only
      obtain ⟨outcome, left⟩ :=
        (sendCustomJob ch job declared).perform (process.desk conn)
      cases outcome with
      | error thrown => rfl
      | ok sent => rfl

/-- A frame of a connection that is set up, or of one that is not. -/
theorem perform_dispatch (setup : Setup) (moment : Moment) (frame : Sv2Frame)
    (desk : Desk) :
    (dispatch setup moment frame).perform desk =
      (match desk.conn.phase with
      | .setupPending => dispatchSetup frame
      | .ready => dispatchReady setup moment frame).perform desk := rfl

/-- A step is an event while no loop is running, or a round of the loop. -/
theorem step_cases {aead : Aead Key} {setup : Setup} {process next : Process Key}
    {event : Moment × Event Key}
    (taken : step aead setup process event = some next) :
    process.escaped = [] ∧
      ((process.work = [] ∧
          process.takeEvent aead setup event.1 event.2 = some next) ∨
        ∃ round rest, process.work = round :: rest ∧
          { process with work := rest }.takeRound setup event.1 round =
            some next) := by
  obtain ⟨moment, happened⟩ := event
  rw [step] at taken
  split at taken
  · cases taken
  · next alive =>
      refine ⟨not_not.mp alive, ?_⟩
      cases working : process.work with
      | nil =>
        rw [working] at taken
        exact .inl ⟨rfl, taken⟩
      | cons round rest =>
        rw [working] at taken
        cases happened with
        | next => exact .inr ⟨round, rest, rfl, taken⟩
        | accept | data | close | reply | acceptDeclarer | declarerData
        | declarerClose | resume | job | collect => cases taken

end Process

end B3Chain.Sv2
