import B3Chain.Sv2.ChannelIntegrity
import B3Chain.Sv2.Process

/-!
# The rounds of a data event

The process takes a data event in rounds, one for each decrypted frame and one
for each SV2 frame in it.  Together they do to the buffers of the connection
what `onData` of a session does at once, and they dispatch the same frames.
-/

namespace B3Chain.Sv2

open Words Machine

variable {Key : Type}

/-- The connection as a session that has dispatched some frames. -/
def Link.session (link : Link Key MiningConn) (dispatched : List Sv2Frame)
    (destroyed : Bool) : Session Key where
  receiver := link.receiver
  plain := link.plain
  dispatched := dispatched
  destroyed := destroyed

/-- What is left of a data event: frames, and then decrypted bytes. -/
def Session.goOn (throws : List Sv2Frame → Bool) (session : Session Key)
    (frames : List Sv2Frame) (plains : List (List Byte)) : Session Key :=
  if (session.dispatchFrames throws frames).destroyed then
    session.dispatchFrames throws frames
  else (session.dispatchFrames throws frames).handleAll throws plains

theorem Session.goOn_frame (throws : List Sv2Frame → Bool)
    (session : Session Key) (frame : Sv2Frame) (frames : List Sv2Frame)
    (plains : List (List Byte)) :
    session.goOn throws (frame :: frames) plains =
      let later :=
        { session with dispatched := session.dispatched ++ [frame] }
      if throws later.dispatched then { later with destroyed := true }
      else later.goOn throws frames plains := by
  by_cases thrown : throws (session.dispatched ++ [frame]) = true <;>
    simp [goOn, dispatchFrames, thrown]

/-- The frames dispatched, as a record of the run. -/
def logFrames (process : Process Key) (_ : Moment × Event Key)
    (dispatched : List Sv2Frame) : List Sv2Frame :=
  match process.work with
  | .frame _ frame :: _ => dispatched ++ [frame]
  | _ => dispatched

/-- The handler of a frame throws exactly where `throws` says so. -/
def ThrowsAs (setup : Setup) (throws : List Sv2Frame → Bool)
    (state : Process Key × List Sv2Frame) (event : Moment × Event Key) :
    Prop :=
  ∀ connId frame rest conn, state.1.work = .frame connId frame :: rest →
    state.1.miner connId = some conn →
      throws (state.2 ++ [frame]) = !((dispatch setup event.1 frame).perform
        (state.1.desk conn)).1.isOk

/-- The rounds that are left lead the connection to the session; once a
handler has thrown there are none. -/
def Leads (throws : List Sv2Frame → Bool) (connId : Nat)
    (target : Session Key) (state : Process Key × List Sv2Frame) : Prop :=
  ∃ link frames plains destroyed, state.1.miners[connId]? = some link ∧
    state.1.work =
      frames.map (.frame connId) ++ plains.map (.plain connId) ∧
    (destroyed = true →
      state.1.work = [] ∧ link.conn.destroyed = true) ∧
    (link.session state.2 destroyed).goOn throws frames plains = target

section

variable {aead : Aead Key} {setup : Setup} {throws : List Sv2Frame → Bool}
  {connId : Nat} {target : Session Key}

/-- One round. -/
theorem Leads.step {state next : Process Key × List Sv2Frame}
    {moment : Moment} (leads : Leads throws connId target state)
    (agrees : ThrowsAs setup throws state (moment, .next))
    (recorded : recording (Process.step aead setup) logFrames state
      (moment, .next) = some next) :
    Leads throws connId target next := by
  obtain ⟨process, dispatched⟩ := state
  obtain ⟨link, frames, plains, destroyed, found, working, stopped, leads⟩ :=
    leads
  obtain ⟨after, stepped, rfl⟩ := Option.map_eq_some_iff.mp recorded
  obtain ⟨-, ⟨-, nothing⟩ | ⟨round, rest, first, went⟩⟩ :=
    Process.step_cases stepped
  · cases nothing
  rw [logFrames, first]
  cases destroyed with
  | true => cases (stopped rfl).1.symm.trans first
  | false =>
    cases frames with
    | nil =>
      cases plains with
      | nil => cases working.symm.trans first
      | cons bytes plains =>
        cases working.symm.trans first
        obtain ⟨_, again, rfl⟩ := Option.map_eq_some_iff.mp went
        cases found.symm.trans again
        refine ⟨{ link with plain := (splitFrames (link.plain ++ bytes)).2 },
          _, plains, false, ?_, rfl, nofun, leads⟩
        simp [Process.takePlain, again]
    | cons frame frames =>
      cases working.symm.trans first
      obtain ⟨_, again, rfl⟩ := Option.map_eq_some_iff.mp went
      obtain ⟨_, same, rfl⟩ := Process.miner_eq_some again
      cases found.symm.trans same
      have agree := agrees connId frame _ _ first again
      rw [Session.goOn_frame] at leads
      simp only [Process.takeFrame, Process.desk] at agree ⊢
      rcases performed : (dispatch setup moment frame).perform
          ⟨link.conn, process.board, process.drawn⟩ with
        ⟨thrown | started, left⟩
      · have threw : throws (dispatched ++ [frame]) = true := by
          rw [agree, performed]
          rfl
        refine ⟨{ link with conn := { left.conn with destroyed := true } }, [],
          [], true, ?_, rfl, fun _ => ⟨rfl, rfl⟩, .trans ?_ leads⟩
        · simp [Process.breakMiner, Process.putDesk, Process.changeMiner, same]
        · exact (if_pos threw).symm
      · have passed : throws (dispatched ++ [frame]) = false := by
          rw [agree, performed]
          rfl
        refine ⟨{ link with conn := left.conn }, frames, plains, false, ?_, ?_,
          nofun, .trans ?_ leads⟩
        · cases started <;>
            simp [Process.begin, Process.putDesk, Process.changeMiner, same]
        · cases started <;> rfl
        · exact (if_neg (Bool.eq_false_iff.mp passed)).symm

/-- The rounds to the end. -/
theorem Leads.run {state final : Process Key × List Sv2Frame}
    {moments : List Moment} (leads : Leads throws connId target state)
    (agrees : Along (recording (Process.step aead setup) logFrames)
      (ThrowsAs setup throws) state
      (moments.map fun moment => (moment, .next)))
    (taken : Machine.run (recording (Process.step aead setup) logFrames) state
      (moments.map fun moment => (moment, .next)) = some final) :
    Leads throws connId target final := by
  induction moments generalizing state with
  | nil =>
    cases taken
    exact leads
  | cons moment rest induction =>
    obtain ⟨next, recorded, later⟩ := run_cons_eq_some taken
    exact induction (leads.step agrees.1 recorded) (agrees.2 next recorded)
      later

/--
A data event of a connection and the rounds that follow it leave the buffers
that `onData` of the session leaves, and dispatch the frames that it
dispatches.  The socket may also have been destroyed by a handler that does
not throw.
-/
theorem data_follows_session {process final : Process Key}
    {link : Link Key MiningConn} {moment : Moment} {moments : List Moment}
    {chunk : List Byte} {dispatched record : List Sv2Frame}
    (found : process.miners[connId]? = some link)
    (idle : process.work = [])
    (agrees : Along (recording (Process.step aead setup) logFrames)
      (ThrowsAs setup throws) (process, dispatched)
      ((moment, .data connId chunk) ::
        moments.map fun moment => (moment, .next)))
    (taken : Machine.run (recording (Process.step aead setup) logFrames)
      (process, dispatched) ((moment, .data connId chunk) ::
        moments.map fun moment => (moment, .next)) = some (final, record))
    (ended : final.work = []) :
    ∃ last destroyed, final.miners[connId]? = some last ∧
      (link.session dispatched false).onData aead throws chunk =
        last.session record destroyed ∧
      (destroyed = true → last.conn.destroyed = true) := by
  obtain ⟨next, recorded, later⟩ := run_cons_eq_some taken
  have led : Leads throws connId
      ((link.session dispatched false).onData aead throws chunk) next := by
    obtain ⟨after, stepped, rfl⟩ := Option.map_eq_some_iff.mp recorded
    obtain ⟨-, ⟨-, happened⟩ | ⟨round, rest, first, -⟩⟩ :=
      Process.step_cases stepped
    · obtain ⟨_, again, live⟩ := Option.bind_eq_some_iff.mp happened
      cases found.symm.trans again
      split at live
      · cases live
      · cases live
        rw [logFrames, idle, Process.takeData, Session.onData]
        cases opened : link.receiver.onData aead chunk with
        | error reason =>
          refine ⟨{ link with conn := { link.conn with destroyed := true } },
            [], [], true, ?_, rfl, fun _ => ⟨rfl, rfl⟩,
            by simp [Link.session, opened]; rfl⟩
          simp [Process.breakMiner, Process.changeMiner, found]
        | ok received =>
          refine ⟨{ link with receiver := received.2 }, [], received.1, false,
            by simp [found], rfl, (fun thrown => by cases thrown), ?_⟩
          simp [Session.goOn, Session.dispatchFrames, Link.session, opened]
    · cases idle.symm.trans first
  obtain ⟨last, frames, plains, destroyed, kept, working, stopped, leads⟩ :=
    led.run (agrees.2 next recorded) later
  rw [ended] at working
  obtain ⟨noFrame, noPlain⟩ := List.append_eq_nil_iff.mp working.symm
  cases List.map_eq_nil_iff.mp noFrame
  cases List.map_eq_nil_iff.mp noPlain
  refine ⟨last, destroyed, kept, leads.symm.trans ?_, fun thrown =>
    (stopped thrown).2⟩
  cases destroyed <;> rfl

end

end B3Chain.Sv2
