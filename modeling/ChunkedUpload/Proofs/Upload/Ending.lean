import ChunkedUpload.Proofs.Upload.Feeding

/-! How uploads end. The outcome of the loop fits the mode of the plan, and an upload that has ended
stays as it is: nothing that may still come is seen by anybody. -/
namespace ChunkedUpload

def Result.error? : Result → Option UploadError
  | .returned (.error error) => some error
  | _ => none

theorem Result.eq_of_error {result : Result} {error : UploadError}
    (given : result.error? = some error) : result = .returned (.error error) := by
  unfold error? at given
  split at given
  · rw [Option.some.inj given]
  · contradiction

/-- What an outcome says about the mode of the plan, and that a failure is no cancellation. -/
def DispatchOutcome.Fits (mode : UploadMode) : DispatchOutcome → Prop
  | exhausted _ => mode.isResend = false
  | resumeQueued => mode.isResend = true
  | cancelled => True
  | failed error => error ≠ .cancelled

namespace Dispatch

def Sensible (dispatch : Dispatch) : Prop :=
  ∀ outcome, dispatch.producer.outcome? = some outcome → outcome.Fits dispatch.plan.mode

section Outcome

variable {job : UploadJob} {events : List Event} {dispatch after : Dispatch} {move : Move}

theorem sensible_of_none (unfinished : dispatch.producer.outcome? = none) : dispatch.Sensible := by
  intro outcome found
  rw [unfinished] at found
  contradiction

theorem leave_sensible {outcome : DispatchOutcome} (fits : outcome.Fits dispatch.plan.mode) :
    (dispatch.leave outcome).Sensible := by
  rintro _ ⟨⟩
  exact fits

theorem Sensible.of_same (h : dispatch.Sensible) (plan : after.plan = dispatch.plan)
    (same : after.producer.outcome? = dispatch.producer.outcome?) : after.Sensible := by
  intro outcome found
  rw [plan]
  exact h outcome (same ▸ found)

theorem step_sensible (step : Step job dispatch move events after) (h : dispatch.Sensible) :
    after.Sensible := by
  cases step with
  | sought | filled | stalled | queued | notified | deserted => exact sensible_of_none rfl
  | unsought _ sought =>
    obtain ⟨⟨failure, rfl, _⟩, _⟩ := Source.seekToPart_error sought
    exact leave_sensible (by simp [DispatchOutcome.Fits])
  | ended =>
    unfold endOfInput
    split
    · exact leave_sensible (by simp [DispatchOutcome.Fits])
    · rename_i whole
      exact leave_sensible (by simpa [DispatchOutcome.Fits] using whole)
  | broken | refused => exact leave_sensible (by simp [DispatchOutcome.Fits])
  | resent _ _ resend => exact leave_sensible resend
  | aborted => exact leave_sensible trivial
  | stopped phase | unneeded phase | told phase | joined phase =>
    exact h.of_same rfl (by rw [phase]; rfl)
  | took | finished => exact h.of_same rfl rfl

theorem start_sensible (source : Source) (plan : UploadPlan) :
    (Upload.startDispatch source plan).Sensible := sensible_of_none rfl

theorem Sensible.finished_of_returned (h : dispatch.Sensible)
    (whole : dispatch.plan.mode.isResend = false)
    {value : Except UploadError (Option FileReference)}
    (answer : dispatch.result? job = some (.returned value)) :
    ∃ outcome summary, dispatch.producer = .finished outcome summary := by
  rcases answer_cases answer with ⟨left, _⟩ | ⟨outcome, summary, phase, _⟩ | ⟨_, crashed⟩
  · have resend := h .resumeQueued left
    rw [DispatchOutcome.Fits, whole] at resend
    contradiction
  · exact ⟨outcome, summary, phase⟩
  · cases crashed

end Outcome

end Dispatch

namespace Upload

theorem Step.unended {upload next : Upload} {move : Move} {events : List Event}
    (step : Step upload move events next)
    (before : ∀ dispatch, next.stage ≠ .dispatching dispatch) :
    (∀ dispatch, upload.stage ≠ .dispatching dispatch) ∧ events.filterMap Event.ended? = [] := by
  cases step with
  | cancelled => exact ⟨before, rfl⟩
  | entered stage | withdrawn stage | unopened stage | unplanned stage | opened stage
  | unlocated stage | located stage | unconnected stage =>
    exact ⟨fun _ => by simp [stage], rfl⟩
  | connected => exact absurd rfl (before _)
  | dispatched => exact absurd rfl (before _)

theorem run_unended {job : UploadJob} {cancelled : Bool} {moves : List Move} {last : Upload}
    {events : List Event} (run : (begin job cancelled).run? moves = some (last, events))
    (before : ∀ dispatch, last.stage ≠ .dispatching dispatch) :
    events.filterMap Event.ended? = [] := by
  have kept : StepKeeps step? (fun past upload =>
      Standing job (fun _ => True) (fun _ _ => True) past upload ∧
      ((∀ dispatch, upload.stage ≠ .dispatching dispatch) → past.filterMap Event.ended? = []))
      (fun _ => True) := by
    intro past upload move next seen ⟨standing, earlier⟩ _ stepped
    refine ⟨step_standing (fun _ _ _ _ _ _ => trivial) (fun _ _ _ _ _ _ _ _ => trivial) _ _ _ _ _
      standing trivial stepped, fun unstarted => ?_⟩
    obtain ⟨same, silent⟩ := (step_of_step? standing.answer stepped).unended unstarted
    rw [List.filterMap_append, earlier same, silent, List.append_nil]
  have fresh : Standing job (fun _ => True) (fun _ _ => True) [] (begin job cancelled) :=
    ⟨rfl, rfl, rfl⟩
  rw [run?_eq] at run
  exact (run_holds kept moves _ _ _ ⟨fresh, fun _ => rfl⟩ (fun _ _ => trivial) run).2 before

/-- An upload that was refused before it had workers, or whose workers have all ended. -/
inductive Ended (upload : Upload) : Prop
  | refused {stream : Option Stream} (stage : upload.stage = .over stream)
  | finished {dispatch : Dispatch} {outcome : DispatchOutcome} {summary : PoolSummary}
      (stage : upload.stage = .dispatching dispatch)
      (phase : dispatch.producer = .finished outcome summary)
      (gone : dispatch.pool.isStopped = true)

section Ended

variable {upload next : Upload} {events : List Event} {move : Move}

/-- Cancelling an upload that has ended is all that is left, and comes too late. -/
theorem Ended.step (ended : upload.Ended) (stepped : upload.step? move = some (next, events)) :
    next = { upload with cancelled := true } ∧ events = [] := by
  cases ended with
  | refused stage =>
    cases move with
    | cancel =>
      cases stepped
      exact ⟨rfl, rfl⟩
    | _ => simp [step?, stage] at stepped
  | @finished dispatch outcome summary stage phase gone =>
    have still : ¬ dispatch.pool.isStopped = false := by simp [gone]
    cases move with
    | cancel =>
      cases stepped
      exact ⟨rfl, rfl⟩
    | take worker =>
      simp only [step?, stage, dispatchStep?] at stepped
      obtain ⟨_, took, _⟩ := Option.map_eq_some_iff.mp stepped
      exact absurd (Pool.live_of_take took) still
    | finish worker reply =>
      simp only [step?, stage, dispatchStep?] at stepped
      obtain ⟨_, finished, _⟩ := Option.map_eq_some_iff.mp stepped
      exact absurd (Pool.live_of_finish finished) still
    | _ =>
      simp [step?, stage, dispatchStep?, phase, Dispatch.stop?, Dispatch.join?,
        Dispatch.isCancellable] at stepped

theorem Ended.run {moves : List Move} (ended : upload.Ended)
    (ran : upload.run? moves = some (next, events)) : events = [] := by
  have kept : StepKeeps step? (fun past upload => past = [] ∧ upload.Ended) (fun _ => True) := by
    rintro _ upload move after seen ⟨rfl, ended⟩ _ stepped
    obtain ⟨rfl, rfl⟩ := ended.step stepped
    refine ⟨rfl, ?_⟩
    cases ended with
    | refused stage => exact .refused stage
    | finished stage phase gone => exact .finished stage phase gone
  rw [run?_eq] at ran
  exact (run_holds kept moves _ _ _ ⟨rfl, ended⟩ (fun _ _ => trivial) ran).1

end Ended

end Upload

end ChunkedUpload
