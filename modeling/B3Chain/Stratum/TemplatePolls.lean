import B3Chain.Machine.Run
import B3Chain.Machine.Throwing
import B3Chain.Stratum.JobManager
import B3Chain.Stratum.Submit

/-!
# Overlapping template polls

The job manager polls the node on a timer and does not wait for the poll
before, so several requests can be under way at once.  The node answers each
from its tip; a reply is handled when it arrives, whatever was handled in the
meantime.  The current job never goes back to a lower height as long as no
reply is handled after one for a higher block.  Replies that are handled in
the order in which the node made them meet this, as its tip never goes back.
-/

namespace B3Chain.Stratum

open Words
open Machine (run Along along_of_forall along_of_invariant)

/-! ## The pool and the node -/

/-- The polls under way: the requests the node has not answered yet, and the
replies that have not been handled, in the order in which it made them. -/
structure Polling where
  manager : JobManager
  tip : Int
  requests : Nat
  replies : List Template
  handled : List Template

/-- What can happen next. -/
inductive PollEvent
  | advanced (tip : Int)
  | fired
  | refused
  | answered (tpl : Template)
  | lost (index : Nat)
  | resumed (index : Nat)

namespace Polling

/-- The pool before its first poll. -/
def started (tip : Int) : Polling where
  manager := .started
  tip
  requests := 0
  replies := []
  handled := []

/-- The poll of a reply goes on after its `await`. -/
def resume (config : JobSetup) (state : Polling) (index : Nat)
    (tpl : Template) : Polling :=
  { state with
    manager := (state.manager.poll config tpl).2
    replies := state.replies.eraseIdx index
    handled := tpl :: state.handled }

/-- The tip of the node never goes back; a template is for the block after
the tip. -/
def step (config : JobSetup) (state : Polling) : PollEvent → Option Polling
  | .advanced tip =>
    if state.tip ≤ tip then some { state with tip } else none
  | .fired => some { state with requests := state.requests + 1 }
  | .refused =>
    if state.requests = 0 then none
    else some { state with requests := state.requests - 1 }
  | .answered tpl =>
    if state.requests = 0 ∨ tpl.height ≠ state.tip + 1 then none
    else some { state with
      requests := state.requests - 1
      replies := state.replies ++ [tpl] }
  | .lost index => some { state with replies := state.replies.eraseIdx index }
  | .resumed index => (state.replies[index]?).map (state.resume config index)

/-- The job that is broadcast at a step. -/
def broadcast (config : JobSetup) (state : Polling) :
    PollEvent → Option StratumJob
  | .resumed index =>
    (state.replies[index]?).bind fun tpl =>
      (state.manager.poll config tpl).1.emitted
  | _ => none

/-- The current job stays at its height or moves up, and a job that
invalidates the one before is not for an older block. -/
def NeverBack (config : JobSetup) (state : Polling) (event : PollEvent) :
    Prop :=
  ∀ job ∈ state.manager.currentJob,
    (∀ next ∈ state.step config event,
      ∃ newer ∈ next.manager.currentJob, job.height ≤ newer.height) ∧
    ∀ sent ∈ state.broadcast config event,
      sent.cleanJobs = true → job.height ≤ sent.height

/-- The reply that is handled is not for a lower block than one before. -/
def NotOvertaken (state : Polling) : PollEvent → Prop
  | .resumed index =>
    ∀ tpl ∈ state.replies[index]?, ∀ earlier ∈ state.handled,
      earlier.height ≤ tpl.height
  | _ => True

/-- The reply that is handled is the one the node made first. -/
def InOrder (_ : Polling) : PollEvent → Prop
  | .resumed index => index = 0
  | _ => True

end Polling

/-! ## One poll -/

theorem height_of_buildJob {config : JobSetup} {manager : JobManager}
    {tpl : Template} {cleanJobs : Bool} {job : StratumJob}
    (built : manager.buildJob config tpl cleanJobs = .ok job) :
    job.height = tpl.height := by
  obtain ⟨halves, -, rest⟩ := Machine.bind_eq_ok_iff.mp built
  obtain ⟨branches, -, made⟩ := Machine.bind_eq_ok_iff.mp rest
  cases made
  rfl

/-- What a poll does to the current job: it keeps it and broadcasts nothing,
or broadcasts what is then the current job. -/
inductive PolledJob (before : Option StratumJob) (tpl : Template) :
    Option StratumJob → Option StratumJob → Prop
  | quiet : PolledJob before tpl before none
  | again {old job : StratumJob} (current : before = some old)
      (same : job.height = old.height) :
      PolledJob before tpl (some job) (some job)
  | built {job : StratumJob} (fromTemplate : job.height = tpl.height) :
      PolledJob before tpl (some job) (some job)

section PolledJob

variable {before after sent : Option StratumJob} {tpl : Template}

theorem PolledJob.origin {job : StratumJob}
    (change : PolledJob before tpl after sent) (current : job ∈ after) :
    (∃ old ∈ before, job.height = old.height) ∨ job.height = tpl.height := by
  cases change with
  | quiet => exact .inl ⟨job, current, rfl⟩
  | again old same =>
    cases current
    exact .inl ⟨_, old, same⟩
  | built fromTemplate =>
    cases current
    exact .inr fromTemplate

/-- A template that is not below the current job does not move it back. -/
theorem PolledJob.forward {old : StratumJob}
    (change : PolledJob before tpl after sent) (current : old ∈ before)
    (higher : old.height ≤ tpl.height) :
    (∃ newer ∈ after, old.height ≤ newer.height) ∧
      ∀ job ∈ sent, old.height ≤ job.height := by
  cases change with
  | quiet =>
    refine ⟨⟨old, current, le_rfl⟩, fun job none => ?_⟩
    cases none
  | again found same =>
    cases found.symm.trans current
    refine ⟨⟨_, rfl, same.ge⟩, fun job some => ?_⟩
    cases some
    exact same.ge
  | built fromTemplate =>
    have above := higher.trans_eq fromTemplate.symm
    refine ⟨⟨_, rfl, above⟩, fun job some => ?_⟩
    cases some
    exact above

end PolledJob

theorem build_polledJob (config : JobSetup) (manager : JobManager)
    (tpl : Template) (timeSig : JsString) :
    PolledJob manager.currentJob tpl
      (manager.build config tpl timeSig).2.currentJob
      (manager.build config tpl timeSig).1.emitted := by
  unfold JobManager.build
  dsimp only
  split
  case h_1 => exact .quiet
  case h_2 job made => exact .built (height_of_buildJob made)

theorem poll_polledJob (config : JobSetup) (manager : JobManager)
    (tpl : Template) :
    PolledJob manager.currentJob tpl
      (manager.poll config tpl).2.currentJob
      (manager.poll config tpl).1.emitted := by
  unfold JobManager.poll
  split
  case h_1 none => exact build_polledJob config manager tpl _
  case h_2 job current =>
    dsimp only
    split_ifs
    · exact .quiet
    · exact .again current rfl
    · exact build_polledJob config manager tpl _

/-! ## Runs -/

namespace Polling

variable {config : JobSetup}

/-- What a step does to the job manager and to the replies. -/
theorem step_cases {state next : Polling} {event : PollEvent}
    (stepped : state.step config event = some next) :
    (∃ index tpl, event = .resumed index ∧
      state.replies[index]? = some tpl ∧
        next = state.resume config index tpl) ∨
    (state.broadcast config event = none ∧ next.manager = state.manager ∧
      next.handled = state.handled ∧ state.tip ≤ next.tip ∧
      (next.replies.Sublist state.replies ∨
        ∃ tpl, next.replies = state.replies ++ [tpl] ∧
          tpl.height = state.tip + 1)) := by
  cases event with
  | advanced tip =>
    obtain ⟨forward, ⟨⟩⟩ := Option.ite_none_right_eq_some.mp stepped
    exact .inr ⟨rfl, rfl, rfl, forward, .inl (List.Sublist.refl _)⟩
  | fired =>
    cases stepped
    exact .inr ⟨rfl, rfl, rfl, le_rfl, .inl (List.Sublist.refl _)⟩
  | refused =>
    obtain ⟨-, ⟨⟩⟩ := Option.ite_none_left_eq_some.mp stepped
    exact .inr ⟨rfl, rfl, rfl, le_rfl, .inl (List.Sublist.refl _)⟩
  | answered tpl =>
    obtain ⟨enabled, ⟨⟩⟩ := Option.ite_none_left_eq_some.mp stepped
    have height := not_ne_iff.mp (not_or.mp enabled).2
    exact .inr ⟨rfl, rfl, rfl, le_rfl, .inr ⟨tpl, rfl, height⟩⟩
  | lost index =>
    cases stepped
    exact .inr ⟨rfl, rfl, rfl, le_rfl, .inl (List.eraseIdx_sublist ..)⟩
  | resumed index =>
    obtain ⟨tpl, found, rfl⟩ := Option.map_eq_some_iff.mp stepped
    exact .inl ⟨index, tpl, rfl, found, rfl⟩

/-- The current job was made from a reply that was handled. -/
def Handled (state : Polling) : Prop :=
  ∀ job ∈ state.manager.currentJob, ∃ tpl ∈ state.handled,
    job.height = tpl.height

theorem handled_started (tip : Int) : (started tip).Handled := by
  intro job current
  cases current

theorem Handled.step {state next : Polling} {event : PollEvent}
    (made : state.Handled) (stepped : state.step config event = some next) :
    next.Handled := by
  rcases step_cases stepped with
    ⟨index, tpl, rfl, found, rfl⟩ | ⟨-, manager, handled, -⟩
  · intro job current
    rcases (poll_polledJob config state.manager tpl).origin current with
      ⟨old, before, same⟩ | fromTemplate
    · obtain ⟨earlier, member, height⟩ := made old before
      exact ⟨earlier, List.mem_cons_of_mem tpl member, same.trans height⟩
    · exact ⟨tpl, List.mem_cons_self, fromTemplate⟩
  · rw [Handled, manager, handled]
    exact made

theorem Handled.neverBack {state : Polling} {event : PollEvent}
    (made : state.Handled) (ordered : state.NotOvertaken event) :
    state.NeverBack config event := by
  intro job current
  obtain ⟨earlier, before, height⟩ := made job current
  -- A reply that is handled is not below the one the job was made from.
  have resumed : ∀ index tpl, event = .resumed index →
      state.replies[index]? = some tpl →
        (∃ newer ∈ (state.resume config index tpl).manager.currentJob,
          job.height ≤ newer.height) ∧
        ∀ sent ∈ (state.manager.poll config tpl).1.emitted,
          job.height ≤ sent.height := by
    rintro index tpl rfl found
    exact (poll_polledJob config state.manager tpl).forward current
      (height.trans_le (ordered tpl found earlier before))
  constructor
  · intro next stepped
    rcases step_cases stepped with
      ⟨index, tpl, isResumed, found, rfl⟩ | ⟨-, manager, -⟩
    · exact (resumed index tpl isResumed found).1
    · exact ⟨job, manager ▸ current, le_rfl⟩
  · intro sent emitted _
    cases event with
    | resumed index =>
      obtain ⟨tpl, found, isSent⟩ := Option.bind_eq_some_iff.mp emitted
      exact (resumed index tpl rfl found).2 sent isSent
    | _ => cases emitted

/-! ## Replies in order -/

/-- The replies, those handled first, are in the order of their heights. -/
structure Sorted (state : Polling) : Prop where
  pairwise : (state.handled.reverse ++ state.replies).Pairwise
    fun earlier later => earlier.height ≤ later.height
  below : ∀ tpl ∈ state.handled.reverse ++ state.replies,
    tpl.height ≤ state.tip + 1

theorem sorted_started (tip : Int) : (started tip).Sorted where
  pairwise := .nil
  below := by
    intro tpl member
    cases member

theorem Sorted.step {state next : Polling} {event : PollEvent}
    (sorted : state.Sorted) (first : state.InOrder event)
    (stepped : state.step config event = some next) : next.Sorted := by
  rcases step_cases stepped with
    ⟨index, tpl, rfl, found, rfl⟩ |
      ⟨-, -, handled, tip, sublist | ⟨tpl, added, height⟩⟩
  · -- The first reply becomes the last one handled.
    cases first
    have all : (tpl :: state.handled).reverse ++ state.replies.eraseIdx 0 =
        state.handled.reverse ++ state.replies := by
      rw [List.reverse_cons, List.append_assoc, List.eraseIdx_zero,
        List.singleton_append, List.cons_head?_tail]
      rwa [List.head?_eq_getElem?]
    exact ⟨all ▸ sorted.pairwise, fun member => all ▸ sorted.below member⟩
  · have fewer : (next.handled.reverse ++ next.replies).Sublist
        (state.handled.reverse ++ state.replies) := by
      rw [handled]
      exact sublist.append_left _
    exact ⟨sorted.pairwise.sublist fewer, fun tpl member => by
      have := sorted.below tpl (fewer.subset member)
      omega⟩
  · have all : next.handled.reverse ++ next.replies =
        state.handled.reverse ++ state.replies ++ [tpl] := by
      rw [handled, added, List.append_assoc]
    constructor
    · rw [all, List.pairwise_append]
      refine ⟨sorted.pairwise, List.pairwise_singleton _ _, ?_⟩
      intro earlier member later last
      rw [List.mem_singleton.mp last, height]
      exact sorted.below earlier member
    · intro other member
      rw [all, List.mem_append, List.mem_singleton] at member
      rcases member with earlier | rfl
      · have := sorted.below other earlier
        omega
      · omega

/-- Replies that are handled in the order in which the node made them do not
overtake each other. -/
theorem notOvertaken_of_inOrder (config : JobSetup) (tip : Int)
    (events : List PollEvent)
    (ordered : Along (step config) InOrder (started tip) events) :
    Along (step config) NotOvertaken (started tip) events := by
  have kept : ∀ state event next, Sorted state → InOrder state event →
      step config state event = some next → Sorted next := by
    intro state event next sorted first stepped
    exact sorted.step first stepped
  refine along_of_invariant kept ?_ (sorted_started tip) ordered
  intro state event sorted _
  cases event with
  | resumed index =>
    intro tpl found earlier member
    exact (List.pairwise_append.mp sorted.pairwise).2.2 earlier
      (List.mem_reverse.mpr member) tpl (List.mem_of_getElem? found)
  | _ => exact trivial

/-! ## The result -/

/-- As long as no reply is handled after one for a higher block, the pool
never moves back. -/
theorem overlapping_polls_never_move_back (config : JobSetup) (tip : Int)
    (events : List PollEvent)
    (ordered : Along (step config) NotOvertaken (started tip) events) :
    Along (step config) (NeverBack config) (started tip) events := by
  have kept : ∀ state event next, Handled state → NotOvertaken state event →
      step config state event = some next → Handled next := by
    intro state event next made _ stepped
    exact made.step stepped
  exact along_of_invariant kept
    (fun state event made notOvertaken => made.neverBack notOvertaken)
    (handled_started tip) ordered

theorem readBits_difficulty_one :
    JsString.parseInt (JsString.ofString "1d00ffff") = some 0x1d00ffff := by
  decide +kernel

/-- A template without transactions. -/
def emptyTemplateAt (height : Int) (previous : String) : Template where
  version := 0x20000000
  previousblockhash := JsString.ofString previous
  transactions := []
  coinbasevalue := 0
  target := []
  mintime := 0
  curtime := 0
  bits := JsString.ofString "1d00ffff"
  nBits := 0x1d00ffff
  height
  defaultWitnessCommitment := none
  bits_read := readBits_difficulty_one

/-- Two polls at once; a block is found between the replies. -/
def twoPolls : List PollEvent :=
  [.fired, .fired, .answered (emptyTemplateAt 100 "a"), .advanced 100,
    .answered (emptyTemplateAt 101 "b")]

/-- The replies are handled in order. -/
theorem two_polls_in_order :
    (run (step ⟨constantHashes, some []⟩) (started 99)
        (twoPolls ++ [.resumed 0, .resumed 0])).isSome ∧
      Along (step ⟨constantHashes, some []⟩)
        (NeverBack ⟨constantHashes, some []⟩)
        (started 99) (twoPolls ++ [.resumed 0, .resumed 0]) := by
  refine ⟨rfl, overlapping_polls_never_move_back _ _ _ ?_⟩
  refine notOvertaken_of_inOrder _ _ _ (along_of_forall ?_ _)
  simp [twoPolls, InOrder]

/-- The later reply is handled first; the other then brings the job of the
block before back, and has miners abandon the newer one. -/
theorem late_reply_moves_pool_back :
    ∃ state next sent,
      run (step ⟨constantHashes, some []⟩) (started 99)
        (twoPolls ++ [.resumed 1]) = some state ∧
      state.manager.currentJob.map (fun job => job.height) = some 101 ∧
      state.step ⟨constantHashes, some []⟩ (.resumed 0) = some next ∧
      next.manager.currentJob.map (fun job => job.height) = some 100 ∧
      state.broadcast ⟨constantHashes, some []⟩ (.resumed 0) = some sent ∧
      sent.height = 100 ∧ sent.cleanJobs = true :=
  ⟨_, _, _, rfl, rfl, rfl, rfl, rfl, rfl, rfl⟩

end Polling

end B3Chain.Stratum
