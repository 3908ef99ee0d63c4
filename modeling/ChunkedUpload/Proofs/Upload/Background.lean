import ChunkedUpload.Proofs.Upload.Backlog
import ChunkedUpload.Proofs.Upload.Cancelled
import ChunkedUpload.Uploaders

/-! Parts that are sent again in the background. A call that sends a part again queues it once or
not at all, and has its answer when it is queued; from then on its workers go on alone, and when
they have ended the part has been sent once and its answer is the count of the pool. -/
namespace ChunkedUpload

theorem Uploaders.queuedResend_iff {upload : Upload} : queuedResend upload = true ↔
    ∃ dispatch, upload.stage = .dispatching dispatch ∧
      dispatch.producer.outcome? = some .resumeQueued := by
  unfold queuedResend
  cases upload.stage with
  | dispatching dispatch =>
    simp only [Stage.dispatching.injEq, exists_eq_left']
    cases dispatch.producer with
    | stopping left outcome | joining outcome | finished outcome summary =>
      cases outcome <;> simp [Producer.outcome?]
    | seeking | reading | stalled | queueing | notifying | abandoned => simp [Producer.outcome?]
  | _ => simp

namespace Dispatch

variable {job : UploadJob} {Allowed : Move → Prop} {events more : List Event}
  {dispatch after : Dispatch} {move : Move}

/-- A part that is sent again is queued when the loop is left for that reason, and not before. -/
def QueuedOnce (events : List Event) (dispatch : Dispatch) : Prop :=
  dispatch.plan.mode.isResend = true →
    if dispatch.producer.outcome? = some .resumeQueued then
      ∃ request, events.filterMap Event.queued? = [request]
    else events.filterMap Event.queued? = []

theorem QueuedOnce.silent (before : events.filterMap Event.queued? = [])
    (silent : more.filterMap Event.queued? = [])
    (other : after.producer.outcome? ≠ some .resumeQueued) : QueuedOnce (events ++ more) after := by
  intro _
  rw [if_neg other, List.filterMap_append, before, silent]
  rfl

theorem step_queuedOnce (step : Step job dispatch move more after)
    (h : QueuedOnce events dispatch) : QueuedOnce (events ++ more) after := by
  intro resend
  rw [(step_moved step).1] at resend
  have before := h resend
  have again : after.plan.mode.isResend = true := by rwa [(step_moved step).1]
  cases outcome : dispatch.producer.outcome? with
  | some final =>
    obtain ⟨same, silent, _⟩ := Upload.outcome_final step outcome
    rw [same, List.filterMap_append, silent, List.append_nil]
    rwa [outcome] at before
  | none =>
    rw [if_neg (by simp [outcome])] at before
    cases step with
    | queued _ _ whole => simp [whole] at resend
    | resent =>
      rw [List.filterMap_append, before]
      exact ⟨_, rfl⟩
    | sought | filled | stalled =>
      exact QueuedOnce.silent before rfl (by simp [Producer.outcome?]) again
    | notified | deserted =>
      exact QueuedOnce.silent before (shown_silent dispatch job).1
        (by simp [desert, Producer.outcome?]) again
    | unsought | broken | refused | aborted =>
      exact QueuedOnce.silent before rfl (by simp [leave, Producer.outcome?]) again
    | ended =>
      refine QueuedOnce.silent before rfl ?_ again
      unfold endOfInput
      split <;> simp [leave, Producer.outcome?]
    | stopped phase | unneeded phase | told phase | joined phase =>
      rw [phase] at outcome
      cases outcome
    | @took _ _ begun =>
      refine QueuedOnce.silent before ?_ (by simp [outcome]) again
      cases begun <;> rfl
    | finished => exact QueuedOnce.silent before rfl (by simp [outcome]) again

theorem Working.isResend (working : Working job Allowed events dispatch) :
    dispatch.plan.mode.isResend = job.resume.isSome := by
  obtain ⟨_, _, _, opened, _⟩ := working.origin
  rw [UploadPlan.make_mode opened.planned, UploadMode.isResend_select]

theorem result?_of_resumeQueued (queued : dispatch.producer.outcome? = some .resumeQueued) :
    dispatch.result? job = some (.returned (.ok none)) := by
  unfold result?
  cases phase : dispatch.producer with
  | seeking | reading | stalled | queueing | notifying | abandoned =>
    rw [phase] at queued
    cases queued
  | stopping | joining | finished =>
    rw [phase] at queued
    cases queued
    rfl

theorem outcome_of_abandoned (step : Step job dispatch move more after)
    (phase : dispatch.producer = .abandoned) :
    after.producer.outcome? = dispatch.producer.outcome? := by
  cases step with
  | took | finished => rfl
  | aborted waiting => simp [isCancellable, phase] at waiting
  | sought other | unsought other | filled other | ended other | broken other | stalled other
  | refused other | queued other | resent other | notified other | deserted other | stopped other
  | unneeded other | told other | joined other =>
    rw [phase] at other
    cases other

/-- The pool of a single part, once it has stopped. Even if every worker is gone by a crash, a
worker had begun with the part. -/
theorem Tracked.one_call {log : List PoolNote} {sent : Nat} {request : PartRequest}
    {outcome : DispatchOutcome} {summary : PoolSummary} (h : Tracked events dispatch log sent)
    (phase : dispatch.producer = .finished outcome summary)
    (one : events.filterMap Event.queued? = [request]) :
    ∃ reply, events.filterMap Event.ended? = [(request, reply)] ∧
      summary = if reply = .delivered then ⟨1, 0⟩ else ⟨0, 1⟩ := by
  obtain ⟨begins, calls, _, complete⟩ := h.finished phase
  have started : events.filterMap Event.started? = [request] := by
    rw [one] at begins complete
    rcases List.prefix_cons_iff.mp begins with none_started | ⟨rest, eq, nothing⟩
    · rw [none_started] at calls complete
      have unended := List.map_eq_nil_iff.mp (List.perm_nil.mp calls)
      exact absurd (complete (by simp [unended])) (by simp)
    · rw [eq, List.prefix_nil.mp nothing]
  rw [started, List.perm_singleton] at calls
  obtain ⟨⟨_, reply⟩, ended, rfl⟩ := List.map_eq_singleton_iff.mp calls
  refine ⟨reply, ended, ?_⟩
  have place := h.place
  rw [phase] at place
  obtain ⟨_, rfl⟩ := place
  have counted := Pool.run_counted h.followed.run
  have delivered := counted.summary_delivered
  have failed := counted.summary_failed
  rw [← h.followed.ended, ended] at delivered failed
  cases summary : dispatch.pool.summary with
  | mk sent lost =>
    rw [summary] at delivered failed
    cases reply <;> simp_all [List.countP_singleton]

end Dispatch

namespace Upload

/-- A call that sends a part again has its answer, and the part is queued. -/
structure Sent (job : UploadJob) (events : List Event) (upload : Upload) : Prop where
  again : job.resume.isSome = true
  answer : upload.result = some (.returned (.ok none))
  queued : ∃ request, events.filterMap Event.queued? = [request]

section Runs

variable {job : UploadJob} {cancelled : Bool} {moves : List Move} {last : Upload}
  {events : List Event}

theorem run_queuedOnce (run : (begin job cancelled).run? moves = some (last, events)) :
    Standing job (fun _ => True) (fun past dispatch =>
      Dispatch.Known job (fun _ => True) past dispatch ∧ Dispatch.QueuedOnce past dispatch)
      events last := by
  refine run_standing ?_ ?_ (fun _ _ => trivial) run
  · intro files source plan endpoint opening opened
    exact ⟨start_known opening opened, fun _ => rfl⟩
  · intro past dispatch move more after ⟨known, once⟩ _ step
    exact ⟨⟨Dispatch.step_working step known.working, Dispatch.step_sensible step known.sensible⟩,
      Dispatch.step_queuedOnce step once⟩

theorem sent_of_queuedResend (run : (begin job cancelled).run? moves = some (last, events))
    (queued : Uploaders.queuedResend last = true) : Sent job events last := by
  obtain ⟨dispatch, stage, outcome⟩ := Uploaders.queuedResend_iff.mp queued
  obtain ⟨_, here⟩ := run_queuedOnce run
  simp only [stage] at here
  obtain ⟨⟨known, once⟩, answer⟩ := here
  have resend : dispatch.plan.mode.isResend = true := known.sensible _ outcome
  have parts := once resend
  rw [if_pos outcome] at parts
  exact ⟨known.working.isResend ▸ resend, answer.trans (Dispatch.result?_of_resumeQueued outcome),
    parts⟩

/-- Of the calls that send a part again, those go on in the background that have queued it. -/
theorem queuedResend_of_run (run : (begin job cancelled).run? moves = some (last, events))
    (again : job.resume.isSome = true) (queued : events.filterMap Event.queued? ≠ []) :
    Uploaders.queuedResend last = true := by
  have standing := run_queuedOnce run
  have started : ∃ dispatch, last.stage = .dispatching dispatch := by
    by_contra before
    exact queued (standing.unqueued fun dispatch stage => before ⟨dispatch, stage⟩)
  obtain ⟨dispatch, stage⟩ := started
  obtain ⟨_, here⟩ := standing
  simp only [stage] at here
  obtain ⟨⟨known, once⟩, _⟩ := here
  have parts := once (known.working.isResend.trans again)
  refine Uploaders.queuedResend_iff.mpr ⟨dispatch, stage, ?_⟩
  by_contra other
  rw [if_neg other] at parts
  exact queued parts

theorem sent_of_finished {dispatch : Dispatch} {outcome : DispatchOutcome} {summary : PoolSummary}
    (run : (begin job cancelled).run? moves = some (last, events))
    (queued : Uploaders.queuedResend last = true) (stage : last.stage = .dispatching dispatch)
    (phase : dispatch.producer = .finished outcome summary) :
    (∃ request reply, events.filterMap Event.queued? = [request] ∧
      events.filterMap Event.ended? = [(request, reply)] ∧
      summary = if reply = .delivered then ⟨1, 0⟩ else ⟨0, 1⟩) ∧
    ∀ worker ∈ dispatch.pool.workers, worker.isGone = true := by
  obtain ⟨request, one⟩ := (sent_of_queuedResend run queued).queued
  obtain ⟨_, here⟩ := run_queuedOnce run
  simp only [stage] at here
  obtain ⟨_, _, tracked⟩ := here.1.1.working.tracked
  obtain ⟨reply, ended, counted⟩ := tracked.one_call phase one
  refine ⟨⟨request, reply, one, ended, counted⟩, ?_⟩
  have gone := (tracked.finished phase).2.2.1
  simpa [Pool.isStopped] using gone

end Runs

section Steps

variable {upload next : Upload} {move : Move} {events : List Event}

theorem unqueued_of_unanswered
    (answer : ∀ dispatch, upload.stage = .dispatching dispatch →
      upload.result = dispatch.result? upload.job)
    (unanswered : upload.result = none) : Uploaders.queuedResend upload = false := by
  rw [Bool.eq_false_iff]
  intro queued
  obtain ⟨dispatch, stage, outcome⟩ := Uploaders.queuedResend_iff.mp queued
  rw [answer dispatch stage, Dispatch.result?_of_resumeQueued outcome] at unanswered
  contradiction

theorem queuedResend_of_step (step : Step upload move events next)
    (answer : ∀ dispatch, upload.stage = .dispatching dispatch →
      upload.result = dispatch.result? upload.job)
    (answered : upload.result.isSome = true) :
    Uploaders.queuedResend next = Uploaders.queuedResend upload := by
  cases step with
  | cancelled => rfl
  | entered stage | withdrawn stage | unopened stage | unplanned stage | opened stage
  | unlocated stage | located stage | unconnected stage | connected stage =>
    simp [Uploaders.queuedResend, stage, endEarly, startDispatch]
  | @dispatched dispatch after _ _ _ stage step =>
    have kept : after.producer.outcome? = dispatch.producer.outcome? := by
      rw [answer dispatch stage] at answered
      obtain ⟨result, given⟩ := Option.isSome_iff_exists.mp answered
      rcases Dispatch.answer_cases given with ⟨outcome, _⟩ | ⟨_, _, phase, _⟩ | ⟨phase, _⟩
      · rw [outcome, (outcome_final step outcome).1]
      · have outcome := congrArg Producer.outcome? phase
        rw [outcome, (outcome_final step outcome).1]
        rfl
      · exact Dispatch.outcome_of_abandoned step phase
    rw [Bool.eq_iff_iff, Uploaders.queuedResend_iff, Uploaders.queuedResend_iff]
    simp only [stage, Stage.dispatching.injEq, exists_eq_left', kept]

end Steps

end Upload

end ChunkedUpload
