import B3Chain.Sv2.Process

/-!
# The channels of the mining server

After a channel is opened only its last job and its last share change.  A frame
opens at most one channel, under the next number and with the next random
bytes; everything else leaves the channels as they are or closes some.
-/

namespace B3Chain.Sv2

open Words Framing Machine
open Stratum (StratumJob)

/-! ## One connection -/

/-- The channel as it was opened. -/
def ChannelState.opened (ch : ChannelState) : ChannelState :=
  { ch with lastJobId := 0, lastAcceptedSequence := 0 }

/-- The channels of a connection as they were opened. -/
def MiningConn.opened (conn : MiningConn) (id : Nat) : Option ChannelState :=
  (conn.channels.get id).map ChannelState.opened

/-- The channels, the number of the next one and the random draws. -/
def Desk.slate (desk : Desk) : (Nat → Option ChannelState) × Nat × Nat :=
  (desk.conn.opened, desk.conn.channels.nextId, desk.drawn)

theorem opened_update (table : ChannelTable) (channelId : Nat)
    {change : ChannelState → ChannelState}
    (same : ∀ ch, (change ch).opened = ch.opened) (id : Nat) :
    ((table.update channelId change).get id).map ChannelState.opened =
      (table.get id).map ChannelState.opened := by
  rw [ChannelTable.get, ChannelTable.update, lookup_map_update]
  split
  · rw [Option.map_map]
    exact congrArg (Option.map · _) (funext same)
  · rfl

theorem quiet_changeConn {change : MiningConn → MiningConn}
    (same : ∀ conn, (change conn).opened = conn.opened ∧
      (change conn).channels.nextId = conn.channels.nextId) :
    (changeConn change).Quiet Desk.slate := by
  refine Action.quiet_modify fun desk => ?_
  obtain ⟨opened, next⟩ := same desk.conn
  change ((change desk.conn).opened, (change desk.conn).channels.nextId,
    desk.drawn) = _
  rw [opened, next]
  rfl

theorem quiet_changeBoard (change : JobBoard → JobBoard) :
    (changeBoard change).Quiet Desk.slate :=
  Action.quiet_modify fun _ => rfl

theorem quiet_conn : conn.Quiet Desk.slate :=
  fun _ => rfl

theorem quiet_send (frame : Except String (List Byte)) :
    (send frame).Quiet Desk.slate := by
  refine Action.quiet_bind (Action.quiet_ofExcept _) fun plainFrame => ?_
  refine quiet_changeConn fun conn => ?_
  split
  · exact ⟨rfl, rfl⟩
  · exact ⟨rfl, rfl⟩

theorem quiet_destroy : destroy.Quiet Desk.slate :=
  quiet_changeConn fun _ => ⟨rfl, rfl⟩

theorem quiet_updateChannel (channelId : Nat)
    {change : ChannelState → ChannelState}
    (same : ∀ ch, (change ch).opened = ch.opened) :
    (changeConn fun conn =>
      { conn with channels := conn.channels.update channelId change }).Quiet
        Desk.slate :=
  quiet_changeConn fun conn =>
    ⟨funext (opened_update conn.channels channelId same), rfl⟩

theorem quiet_handleSetup (payload : List Byte) :
    (handleSetup payload).Quiet Desk.slate := by
  refine Action.quiet_bind (Action.quiet_ofExcept _) fun m => ?_
  dsimp only
  split
  · exact Action.quiet_bind (quiet_send _) fun _ => quiet_destroy
  · split
    · exact Action.quiet_bind (quiet_send _) fun _ => quiet_destroy
    · exact Action.quiet_bind (quiet_send _) fun _ =>
        quiet_changeConn fun _ => ⟨rfl, rfl⟩

theorem quiet_sendJob (setup : Setup) (ch : ChannelState) (job : StratumJob)
    (sv2JobId : Nat) : (sendJob setup ch job sv2JobId).Quiet Desk.slate := by
  rw [sendJob]
  cases ch.kind with
  | standard | extended =>
    exact Action.quiet_bind (quiet_send _) fun _ => quiet_send _

theorem quiet_pushJobToChannel (setup : Setup) (channelId : Nat)
    (job : StratumJob) :
    (pushJobToChannel setup channelId job).Quiet Desk.slate := by
  refine Action.quiet_bind quiet_conn fun conn => ?_
  split
  · exact Action.quiet_pure ()
  · refine Action.quiet_bind Action.quiet_get fun desk => ?_
    refine Action.quiet_bind (quiet_changeBoard _) fun _ => ?_
    refine Action.quiet_bind (quiet_sendJob setup _ job _) fun _ => ?_
    refine Action.quiet_bind (quiet_updateChannel channelId ?_) fun _ =>
      quiet_changeBoard _
    exact fun _ => rfl

theorem quiet_sendCustomJob (ch : ChannelState) (job : StratumJob)
    (declared : DeclareMiningJob) :
    (sendCustomJob ch job declared).Quiet Desk.slate := by
  refine Action.quiet_bind Action.quiet_get fun desk => ?_
  refine Action.quiet_bind (quiet_changeBoard _) fun _ => ?_
  refine Action.quiet_bind (Action.quiet_ofExcept _) fun prevHash => ?_
  refine Action.quiet_bind (quiet_send _) fun _ => quiet_updateChannel _ ?_
  exact fun _ => rfl

theorem quiet_startChannel (setup : Setup) (moment : Moment)
    (ch : ChannelState) : (startChannel setup moment ch).Quiet Desk.slate := by
  refine Action.quiet_bind (quiet_send _) fun _ => ?_
  cases moment.current with
  | none => exact Action.quiet_pure ()
  | some job => exact quiet_pushJobToChannel setup ch.id job

theorem quiet_handleUpdate (payload : List Byte) :
    (handleUpdate payload).Quiet Desk.slate :=
  Action.quiet_bind (Action.quiet_ofExcept _) fun _ => Action.quiet_pure ()

theorem quiet_handleSubmit (setup : Setup) (m : SubmitSharesExtended) :
    (handleSubmit setup m).Quiet Desk.slate := by
  refine Action.quiet_bind quiet_conn fun conn => ?_
  split
  · exact Action.quiet_bind (quiet_send _) fun _ => Action.quiet_pure none
  · refine Action.quiet_bind Action.quiet_get fun desk => ?_
    split
    · exact Action.quiet_bind (quiet_send _) fun _ => Action.quiet_pure none
    · exact Action.quiet_bind (Action.quiet_ofExcept _) fun checked =>
        Action.quiet_pure _

theorem quiet_asynchronous {part : Handler (Option PendingShare)}
    (quiet : part.Quiet Desk.slate) :
    (asynchronous part).Quiet Desk.slate := by
  refine Action.quiet_tryCatch (Action.quiet_bind quiet fun pending => ?_)
    fun thrown => Action.quiet_pure _
  cases pending with
  | none => exact Action.quiet_pure _
  | some pending => exact Action.quiet_pure _

theorem quiet_replySubmit (moment : Moment) (pending : PendingShare) :
    (replySubmit moment pending).Quiet Desk.slate := by
  rw [replySubmit]
  cases pending.checked with
  | rejected reason =>
    exact Action.quiet_bind (quiet_send _) fun _ => Action.quiet_pure none
  | accepted input check =>
    refine Action.quiet_bind quiet_conn fun conn => ?_
    refine Action.quiet_bind (quiet_updateChannel _ ?_) fun _ => ?_
    · exact fun _ => rfl
    · exact Action.quiet_bind (quiet_send _) fun _ => Action.quiet_pure _

/-! ## Opening and closing -/

/-- What the frame opens, if it can be read. -/
def openOptions (setup : Setup) (frame : Sv2Frame) : Option OpenOptions :=
  if frame.msgType = msgOpenStdChannel then
    match decodePayload decodeOpenStandardMiningChannel frame.payload with
    | .error _ => none
    | .ok m => some (standardOptions setup m)
  else if frame.msgType = msgOpenExtChannel then
    match decodePayload decodeOpenExtendedMiningChannel frame.payload with
    | .error _ => none
    | .ok m =>
      if sv2ExtranonceTotal - 1 < m.minExtranonceSize then none
      else some (extendedOptions setup m)
  else none

/-- The channel is the one that is opened with the options. -/
def OpenedWith (setup : Setup) (slate : (Nat → Option ChannelState) × Nat × Nat)
    (opts : OpenOptions) (id : Nat) (ch : ChannelState) : Prop :=
  ∃ targetBE, targetU256BE opts.defaultDifficulty = .ok targetBE ∧
    id = slate.2.1 ∧
    ch = ChannelTable.channelOf setup.randomness slate.2.2 id opts targetBE

/-- Each channel was there or is opened with the options. -/
def Added (setup : Setup) (slate : (Nat → Option ChannelState) × Nat × Nat)
    (opts : Option OpenOptions) (desk : Desk) : Prop :=
  ∀ id ch, desk.conn.opened id = some ch → slate.1 id = some ch ∨
    ∃ options ∈ opts, OpenedWith setup slate options id ch

variable {setup : Setup} {slate : (Nat → Option ChannelState) × Nat × Nat}

variable {connId : Nat} {conn : MiningConn} {ch : ChannelState}
  {opts : Option OpenOptions}

theorem added_of_eq {desk : Desk} (same : desk.slate = slate) :
    Added setup slate opts desk := by
  rintro id ch found
  exact .inl (same ▸ found)

/-- What is said of the slate is said of what a quiet handler leaves. -/
theorem keeps_added {α : Type} {part : Handler α}
    (quiet : part.Quiet Desk.slate) :
    part.Keeps (Added setup slate opts) := by
  intro desk added id ch found
  have same := congrArg Prod.fst (quiet desk)
  exact added id ch ((congrFun same id).symm.trans found)

theorem turns_of_quiet {α : Type} {part : Handler α}
    (quiet : part.Quiet Desk.slate) :
    part.Turns (fun desk => desk.slate = slate) (Added setup slate opts) :=
  fun desk same => added_of_eq ((quiet desk).trans same)

theorem turns_openChannel (setup : Setup) (opts : OpenOptions) :
    (openChannel setup opts).Turns (fun desk => desk.slate = slate)
      (Added setup slate (some opts)) := by
  rintro desk rfl id ch found
  rw [openChannel] at found
  cases target : targetU256BE opts.defaultDifficulty with
  | error thrown =>
    rw [target] at found
    exact .inl found
  | ok targetBE =>
    rw [target] at found
    change ((setEntry desk.conn.channels.byId desk.conn.channels.nextId
      _).lookup id).map ChannelState.opened = _ at found
    rw [lookup_setEntry] at found
    split at found
    · next fresh =>
        cases found
        exact .inr ⟨opts, rfl, targetBE, target, fresh, by rw [fresh]; rfl⟩
    · exact .inl found

theorem turns_opening (setup : Setup) (moment : Moment) (opts : OpenOptions)
    (reply : ChannelState → Except String (List Byte)) :
    Action.Turns (fun desk => desk.slate = slate)
      (Added setup slate (some opts))
      (do
        let ch ← openChannel setup opts
        send (reply ch)
        startChannel setup moment ch) := by
  refine Action.turns_bind (turns_openChannel setup opts)
    (fun _ added => added) fun ch => ?_
  exact Action.keeps_bind (keeps_added (quiet_send _)) fun _ =>
    keeps_added (quiet_startChannel setup moment ch)

theorem turns_handleOpenStandard (setup : Setup) (moment : Moment)
    {frame : Sv2Frame} (opens : frame.msgType = msgOpenStdChannel) :
    (handleOpenStandard setup moment frame.payload).Turns
      (fun desk => desk.slate = slate)
      (Added setup slate (openOptions setup frame)) := by
  rw [handleOpenStandard, openOptions, if_pos opens]
  cases decodePayload decodeOpenStandardMiningChannel frame.payload with
  | error thrown => exact turns_of_quiet (Action.quiet_throw thrown)
  | ok m => exact turns_opening setup moment (standardOptions setup m) _

theorem turns_handleOpenExtended (setup : Setup) (moment : Moment)
    {frame : Sv2Frame} (opens : frame.msgType = msgOpenExtChannel) :
    (handleOpenExtended setup moment frame.payload).Turns
      (fun desk => desk.slate = slate)
      (Added setup slate (openOptions setup frame)) := by
  have extended : frame.msgType ≠ msgOpenStdChannel := by
    rw [opens]
    decide
  rw [handleOpenExtended, openOptions, if_neg extended, if_pos opens]
  cases decodePayload decodeOpenExtendedMiningChannel frame.payload with
  | error thrown => exact turns_of_quiet (Action.quiet_throw thrown)
  | ok m =>
    rw [Action.ofExcept_ok, pure_bind]
    dsimp only
    split
    · exact turns_of_quiet (quiet_send _)
    · exact turns_opening setup moment (extendedOptions setup m) _

theorem turns_handleClose (payload : List Byte)
    (opts : Option OpenOptions) :
    (handleClose payload).Turns (fun desk => desk.slate = slate)
      (Added setup slate opts) := by
  rw [handleClose]
  split
  · exact turns_of_quiet (Action.quiet_pure ())
  · rintro desk rfl id ch found
    change ((desk.conn.channels.byId.filter _).lookup id).map _ = _ at found
    rw [lookup_filter_ne] at found
    split at found
    · cases found
    · exact .inl found

/-- What a frame opens on a connection. -/
def MiningConn.opening (setup : Setup) (conn : MiningConn) (frame : Sv2Frame) :
    Option OpenOptions :=
  match conn.phase with
  | .setupPending => none
  | .ready => openOptions setup frame

theorem quiet_dispatchSetup (frame : Sv2Frame) :
    (dispatchSetup frame).Quiet Desk.slate := by
  rw [dispatchSetup]
  dsimp only
  split
  · exact Action.quiet_bind (quiet_handleSetup _) fun _ =>
      Action.quiet_pure _
  · exact Action.quiet_bind quiet_destroy fun _ => Action.quiet_pure _

theorem turns_dispatchReady (setup : Setup) (moment : Moment)
    (frame : Sv2Frame) :
    (dispatchReady setup moment frame).Turns (fun desk => desk.slate = slate)
      (Added setup slate (openOptions setup frame)) := by
  have done : ∀ {part : Handler Unit},
      part.Turns (fun desk => desk.slate = slate)
        (Added setup slate (openOptions setup frame)) →
      Action.Turns (fun desk => desk.slate = slate)
        (Added setup slate (openOptions setup frame))
        (do part; return Started.done) := fun first =>
    Action.turns_bind first (fun _ added => added) fun _ =>
      keeps_added (Action.quiet_pure _)
  rw [dispatchReady]
  dsimp only
  split
  · exact turns_of_quiet (quiet_asynchronous (Action.quiet_bind
      (Action.quiet_ofExcept _) fun m => quiet_handleSubmit setup _))
  · split
    · exact turns_of_quiet (quiet_asynchronous (Action.quiet_bind
        (Action.quiet_ofExcept _) fun m => quiet_handleSubmit setup _))
    · split
      · next opens =>
          exact done (turns_handleOpenStandard setup moment opens)
      · split
        · next opens =>
            exact done (turns_handleOpenExtended setup moment opens)
        · split
          · exact done (turns_of_quiet (quiet_handleUpdate _))
          · split
            · exact done (turns_handleClose _ _)
            · exact turns_of_quiet (Action.quiet_pure _)

/-- The channels after a frame. -/
theorem added_dispatch (setup : Setup) (moment : Moment) (frame : Sv2Frame)
    (desk : Desk) :
    Added setup desk.slate (desk.conn.opening setup frame)
      ((dispatch setup moment frame).perform desk).2 := by
  rw [Process.perform_dispatch, MiningConn.opening]
  cases desk.conn.phase with
  | setupPending => exact added_of_eq (quiet_dispatchSetup frame desk)
  | ready => exact turns_dispatchReady setup moment frame desk rfl

/-! ## The process -/

variable {Key : Type}

/-- A channel of a connection that has not closed, as it was opened. -/
def openedOn (miners : List (Link Key MiningConn)) (connId id : Nat) :
    Option ChannelState :=
  miners[connId]?.bind fun link =>
    if link.closed then none else link.conn.opened id

/-- The open channels of the process. -/
def Process.opened (process : Process Key) (connId id : Nat) :
    Option ChannelState :=
  openedOn process.miners connId id

/-- A connection changes and keeps its channels. -/
theorem openedOn_modify (miners : List (Link Key MiningConn)) (changed : Nat)
    {change : Link Key MiningConn → Link Key MiningConn}
    (same : ∀ link, miners[changed]? = some link →
      (change link).closed = link.closed ∧
        (change link).conn.opened = link.conn.opened) :
    openedOn (miners.modify changed change) = openedOn miners := by
  funext connId id
  rw [openedOn, openedOn, List.getElem?_modify]
  by_cases here : changed = connId
  · subst here
    cases found : miners[changed]? with
    | none => rfl
    | some link =>
      obtain ⟨closed, opened⟩ := same link found
      simp [closed, opened]
  · simp [here]

namespace Process

variable {process next : Process Key}

/-- A handler that leaves the channels alone. -/
theorem opened_putDesk (found : process.miner connId = some conn)
    {left : Desk} (same : left.slate = (process.desk conn).slate) :
    (process.putDesk connId left).opened = process.opened := by
  obtain ⟨link, held, rfl⟩ := miner_eq_some found
  refine openedOn_modify _ _ fun other here => ?_
  cases held.symm.trans here
  exact ⟨rfl, congrArg Prod.fst same⟩

theorem opened_begin (process : Process Key) (connId : Nat)
    (started : Started) :
    (process.begin connId started).opened = process.opened := by
  cases started with
  | done => rfl
  | waits pending => rfl
  | rejected thrown => rfl

theorem opened_pushCustomJob (moment : Moment) (process : Process Key)
    (declared : DeclareMiningJob) (userIdentity : JsString) :
    (process.pushCustomJob moment declared userIdentity).2.opened =
      process.opened := by
  obtain same | ⟨connId, conn, ch, job, -, found, sent⟩ :=
    pushCustomJob_cases moment process declared userIdentity
  · rw [same]
  · rw [sent]
    exact opened_putDesk found (quiet_sendCustomJob ch job declared _)

theorem opened_settle (moment : Moment) (process : Process Key) (connId : Nat)
    (outcome : Except String JdOutcome) :
    (process.settle moment connId outcome).opened = process.opened := by
  match outcome with
  | .error thrown => rfl
  | .ok .done => rfl
  | .ok (.waits jdAwait) => rfl
  | .ok (.deliver m userIdentity) =>
    exact opened_pushCustomJob moment process m userIdentity

theorem opened_takePart (moment : Moment) (process : Process Key)
    (connId : Nat) (conn : JdConn) (part : JdHandler JdOutcome) :
    (process.takePart moment connId conn part).opened = process.opened :=
  opened_settle moment _ connId _

/-- What the round at hand opens, and where. -/
def opening (setup : Setup) (process : Process Key) :
    Option (Nat × MiningConn × OpenOptions) :=
  match process.work with
  | .frame connId frame :: _ =>
    (process.miner connId).bind fun conn =>
      (conn.opening setup frame).map fun opts => (connId, conn, opts)
  | _ => none

/-- The channel is opened by the round at hand. -/
def Opens (setup : Setup) (process : Process Key) (connId id : Nat)
    (ch : ChannelState) : Prop :=
  ∃ conn opts, process.opening setup = some (connId, conn, opts) ∧
    OpenedWith setup (process.desk conn).slate opts id ch

/-- Whatever the dispatch has come to, the channels are those it left. -/
theorem opened_dispatched (setup : Setup) (moment : Moment)
    (process : Process Key) (connId : Nat) (conn : MiningConn)
    (frame : Sv2Frame) :
    (process.takeFrame setup moment connId conn frame).opened =
      (process.putDesk connId ((dispatch setup moment frame).perform
        (process.desk conn)).2).opened := by
  rw [takeFrame]
  obtain ⟨outcome, left⟩ :=
    (dispatch setup moment frame).perform (process.desk conn)
  cases outcome with
  | error thrown =>
    refine openedOn_modify (process.putDesk connId left).miners connId ?_
    exact fun link _ => ⟨rfl, rfl⟩
  | ok started => exact opened_begin _ connId started

/-- A handler that adds a channel to its connection. -/
theorem opened_of_added {setup : Setup}
    (found : process.miner connId = some conn) {left : Desk}
    (added : Added setup (process.desk conn).slate opts left) {other id : Nat}
    (held : (process.putDesk connId left).opened other id = some ch) :
    process.opened other id = some ch ∨
      other = connId ∧ ∃ options ∈ opts,
        OpenedWith setup (process.desk conn).slate options id ch := by
  obtain ⟨link, here, rfl⟩ := miner_eq_some found
  change openedOn (process.miners.modify connId _) other id = _ at held
  rw [openedOn] at held
  rw [opened, openedOn]
  by_cases same : connId = other
  · subst same
    rw [List.getElem?_modify_eq, here] at held
    rw [here]
    change (if link.closed then none else left.conn.opened id) = _ at held
    change (if link.closed then none else link.conn.opened id) = _ ∨ _
    split at held
    · cases held
    · next alive =>
        rw [if_neg alive]
        exact (added id ch held).imp_right fun fresh => ⟨rfl, fresh⟩
  · rw [List.getElem?_modify_ne _ _ same] at held
    exact .inl held

theorem opened_takeData (aead : Aead Key) (process : Process Key)
    (connId : Nat) (link : Link Key MiningConn) (chunk : List Byte) :
    (process.takeData aead connId link chunk).opened = process.opened := by
  rw [takeData]
  split
  · exact openedOn_modify _ _ fun link _ => ⟨rfl, rfl⟩
  · exact openedOn_modify _ _ fun link _ => ⟨rfl, rfl⟩

theorem opened_takeDeclarerData (aead : Aead Key) (process : Process Key)
    (connId : Nat) (link : Link Key JdConn) (chunk : List Byte) :
    (process.takeDeclarerData aead connId link chunk).opened =
      process.opened := by
  rw [takeDeclarerData]
  split
  · rfl
  · rfl

theorem opened_takeReply (process : Process Key) (moment : Moment)
    (found : process.miner connId = some conn) (pending : PendingShare) :
    (process.takeReply moment connId conn pending).opened =
      process.opened := by
  rw [← opened_putDesk found (quiet_replySubmit moment pending _), takeReply]
  obtain ⟨outcome, left⟩ :=
    (replySubmit moment pending).perform (process.desk conn)
  cases outcome with
  | error thrown => rfl
  | ok accepted => rfl

theorem opened_takePush (setup : Setup)
    (found : process.miner connId = some conn) (channelId : Nat)
    (job : StratumJob) :
    (process.takePush setup connId conn channelId job).opened =
      process.opened := by
  rw [← opened_putDesk found (quiet_pushJobToChannel setup channelId job _),
    takePush]
  obtain ⟨outcome, left⟩ :=
    (pushJobToChannel setup channelId job).perform (process.desk conn)
  cases outcome with
  | error thrown => rfl
  | ok pushed => rfl

theorem opened_accept (process : Process Key) (recv : CipherState Key)
    {id : Nat}
    (held : openedOn (process.miners ++ [Link.new recv MiningConn.new]) connId
      id = some ch) : process.opened connId id = some ch := by
  rw [openedOn, List.getElem?_append] at held
  split at held
  · exact held
  · -- A new connection has no channel.
    cases index : connId - process.miners.length with
    | zero | succ =>
      rw [index] at held
      cases held

theorem opened_close (process : Process Key) (closed : Nat) {id : Nat}
    (held : openedOn (process.miners.modify closed fun link =>
      { link with closed := true }) connId id = some ch) :
    process.opened connId id = some ch := by
  rw [openedOn] at held
  by_cases same : closed = connId
  · subst same
    rw [List.getElem?_modify_eq] at held
    cases found : process.miners[closed]? with
    | none | some =>
      rw [found] at held
      cases held
  · rw [List.getElem?_modify_ne _ _ same] at held
    exact held

/-- Without a frame no channel is opened. -/
theorem opened_takeEvent {aead : Aead Key} {setup : Setup} {moment : Moment}
    {event : Event Key}
    (taken : process.takeEvent aead setup moment event = some next) {id : Nat}
    (held : next.opened connId id = some ch) :
    process.opened connId id = some ch := by
  cases event with
  | accept recv =>
    cases taken
    exact opened_accept process recv held
  | data source chunk =>
    obtain ⟨link, -, taken⟩ := Option.bind_eq_some_iff.mp taken
    split at taken
    · cases taken
    · cases taken
      rwa [opened_takeData] at held
  | close source =>
    cases taken
    exact opened_close process source held
  | reply index =>
    obtain ⟨entry, -, taken⟩ := Option.bind_eq_some_iff.mp taken
    obtain ⟨conn, found, rfl⟩ := Option.map_eq_some_iff.mp taken
    have same := opened_takeReply
      { process with submits := process.submits.eraseIdx index } moment
      found entry.2
    rw [same] at held
    exact held
  | acceptDeclarer | declarerClose | job | collect =>
    cases taken
    exact held
  | declarerData source chunk =>
    obtain ⟨link, -, taken⟩ := Option.bind_eq_some_iff.mp taken
    split at taken
    · cases taken
    · cases taken
      rwa [opened_takeDeclarerData] at held
  | resume index =>
    obtain ⟨entry, -, taken⟩ := Option.bind_eq_some_iff.mp taken
    obtain ⟨conn, -, rfl⟩ := Option.map_eq_some_iff.mp taken
    rw [opened_takePart] at held
    exact held
  | next => cases taken

/-- The channels after a step. -/
theorem opened_step {aead : Aead Key} {setup : Setup}
    {event : Moment × Event Key}
    (taken : step aead setup process event = some next) {id : Nat}
    (held : next.opened connId id = some ch) :
    process.opened connId id = some ch ∨
      process.Opens setup connId id ch := by
  obtain ⟨-, ⟨-, happened⟩ | ⟨round, rest, working, taken⟩⟩ := step_cases taken
  · exact .inl (opened_takeEvent happened held)
  · cases round with
    | plain source bytes =>
      obtain ⟨conn, -, rfl⟩ := Option.map_eq_some_iff.mp taken
      left
      rw [← held]
      refine (congrFun (congrFun (openedOn_modify _ _ ?_) _) _).symm
      exact fun link _ => ⟨rfl, rfl⟩
    | frame source frame =>
      obtain ⟨conn, found, rfl⟩ := Option.map_eq_some_iff.mp taken
      rw [opened_dispatched] at held
      obtain old | ⟨rfl, opts, opens, fresh⟩ := opened_of_added found
        (added_dispatch setup event.1 frame _) held
      · exact .inl old
      · refine .inr ⟨conn, opts, ?_, fresh⟩
        rw [opening, working]
        change process.miner connId = some conn at found
        change conn.opening setup frame = some opts at opens
        dsimp only
        rw [found, Option.bind_some, opens]
        rfl
    | push source channelId job =>
      obtain ⟨conn, found, rfl⟩ := Option.map_eq_some_iff.mp taken
      rw [opened_takePush setup found] at held
      exact .inl held
    | declarerPlain source bytes =>
      obtain ⟨conn, -, rfl⟩ := Option.map_eq_some_iff.mp taken
      exact .inl held
    | declarerFrame source frame =>
      obtain ⟨conn, -, rfl⟩ := Option.map_eq_some_iff.mp taken
      rw [opened_takePart] at held
      exact .inl held

end Process

end B3Chain.Sv2
