import ChunkedUpload.Proofs.Upload.Interrupted
import ChunkedUpload.Proofs.Upload.Leaving
import ChunkedUpload.Proofs.Upload.Token

/-! Uploads whose token has fired while they run. Whatever happens from then on, no further part is
queued, the workers finish what is in the queue, and the caller hears of the cancellation, unless an
error has come in its way. -/
namespace ChunkedUpload

namespace Upload

/-- Whether the upload has its slot and its producer is still before, or in, a wait that cancelling
ends. -/
def isUndecided (upload : Upload) : Bool :=
  match upload.stage with
  | .opening | .locating _ _ | .connecting _ _ _ => true
  | .dispatching dispatch => dispatch.producer.isFeeding
  | .waiting | .over _ => false

theorem undecided_cases {upload : Upload} (undecided : upload.isUndecided = true) :
    upload.stage = .opening ∨ (∃ source plan, upload.stage = .locating source plan) ∨
    (∃ source plan endpoint, upload.stage = .connecting source plan endpoint) ∨
    ∃ dispatch, upload.stage = .dispatching dispatch ∧ dispatch.producer.isFeeding = true := by
  unfold isUndecided at undecided
  split at undecided
  · exact .inl ‹_›
  · exact .inr (.inl ⟨_, _, ‹_›⟩)
  · exact .inr (.inr (.inl ⟨_, _, _, ‹_›⟩))
  · exact .inr (.inr (.inr ⟨_, ‹_›, undecided⟩))
  · contradiction
  · contradiction

/-- What may come in the way of a cancellation: an error of the input, the plan or the provider, or
a failing seek to the first part. -/
inductive Obstacle (job : UploadJob) (Allowed : Move → Prop) :
    Except UploadError (Option FileReference) → Prop
  | refused {error : UploadError} (refusal : Refusal job Allowed error) :
      Obstacle job Allowed (.error error)
  | unsought {files : FileSystem} {source : Source} {number : Nat} {failure : IoError}
      (allowed : Allowed .seek)
      (opened : (Source.ofInput files job.input job.limit.bytes).1 = .ok source)
      (failed : source.stream.seekFailure number = some failure) :
      Obstacle job Allowed (degrade job (.io failure))

/-- Where an upload can get to that was cancelled while it was undecided. -/
inductive Doomed (Allowed : Move → Prop) (upload : Upload) : Prop
  | bound (undecided : upload.isUndecided = true) (wanted : upload.cancelled = true)
  | left {dispatch : Dispatch} (stage : upload.stage = .dispatching dispatch)
      (outcome : dispatch.producer.outcome? = some .cancelled)
  | unsought {dispatch : Dispatch} {number : Nat} {failure : IoError} (allowed : Allowed .seek)
      (stage : upload.stage = .dispatching dispatch)
      (failed : dispatch.source.stream.seekFailure number = some failure)
      (outcome : dispatch.producer.outcome? = some (.failed (.io failure)))
  | refused {stream : Option Stream} {error : UploadError} (stage : upload.stage = .over stream)
      (refusal : Refusal upload.job Allowed error)
      (answer : upload.result = some (.returned (.error error)))

section Steps

variable {Allowed : Move → Prop} {upload next : Upload} {dispatch after : Dispatch} {move : Move}
  {events : List Event} {outcome : DispatchOutcome}

theorem outcome_final {job : UploadJob} (step : Dispatch.Step job dispatch move events after)
    (left : dispatch.producer.outcome? = some outcome) :
    after.producer.outcome? = some outcome ∧ events.filterMap Event.queued? = [] ∧
    move ≠ .read ∧ move ≠ .enqueue ∧ move ≠ .notify := by
  cases step with
  | sought phase | unsought phase | filled phase | ended phase | broken phase | stalled phase
  | refused phase | queued phase | resent phase | notified phase | deserted phase =>
    rw [phase] at left
    contradiction
  | aborted waiting =>
    rcases Dispatch.phase_of_cancellable waiting with phase | phase | ⟨_, phase⟩ | phase <;>
      rw [phase] at left <;> contradiction
  | stopped phase | unneeded phase | told phase | joined phase =>
    rw [phase] at left
    exact ⟨left, rfl, by simp⟩
  | @took _ _ begun =>
    refine ⟨left, ?_, by simp⟩
    cases begun <;> rfl
  | finished => exact ⟨left, rfl, by simp⟩

theorem doomed_of_dispatch (undecided : dispatch.producer.isFeeding = true)
    (allowed : Allowed move) (awake : move ≠ .read ∧ move ≠ .enqueue ∧ move ≠ .notify)
    (step : Dispatch.Step upload.job dispatch move events after)
    (now : next.stage = .dispatching after) (wanted : next.cancelled = true) :
    next.Doomed Allowed ∧ events.filterMap Event.queued? = [] := by
  have bound : after.producer.isFeeding = true → next.Doomed Allowed := by
    intro feeding
    refine .bound ?_ wanted
    rw [isUndecided, now]
    exact feeding
  cases step with
  | filled | ended | broken | stalled => exact absurd rfl awake.1
  | refused | queued | resent => exact absurd rfl awake.2.1
  | notified | deserted => exact absurd rfl awake.2.2
  | sought => exact ⟨bound rfl, rfl⟩
  | unsought phase sought =>
    obtain ⟨⟨failure, rfl, fails⟩, rfl⟩ := Source.seekToPart_error sought
    exact ⟨.unsought allowed now fails rfl, rfl⟩
  | aborted => exact ⟨.left now rfl, rfl⟩
  | stopped phase | unneeded phase | told phase | joined phase =>
    rw [phase] at undecided
    contradiction
  | @took _ _ begun =>
    refine ⟨bound undecided, ?_⟩
    cases begun <;> rfl
  | finished => exact ⟨bound undecided, rfl⟩

theorem Doomed.step
    (answer : ∀ dispatch, upload.stage = .dispatching dispatch →
      upload.result = dispatch.result? upload.job)
    (doomed : upload.Doomed Allowed) (allowed : Allowed move)
    (stepped : upload.step? move = some (next, events)) :
    next.Doomed Allowed ∧ events.filterMap Event.queued? = [] := by
  have step := step_of_step? answer stepped
  cases doomed with
  | bound undecided wanted =>
    have still := cancelled_of_step wanted stepped
    cases step with
    | cancelled => exact ⟨.bound undecided rfl, rfl⟩
    | entered stage | withdrawn stage => simp [isUndecided, stage] at undecided
    | unopened _ failed =>
      exact ⟨.refused rfl (.unopened allowed (congrArg Prod.fst failed)) rfl, rfl⟩
    | unplanned _ found failed =>
      exact ⟨.refused rfl (.unplanned allowed (congrArg Prod.fst found) failed) rfl, rfl⟩
    | unlocated => exact ⟨.refused rfl (.unlocated allowed) rfl, rfl⟩
    | unconnected => exact ⟨.refused rfl (.unconnected allowed) rfl, rfl⟩
    | opened | located | connected => exact ⟨.bound rfl still, rfl⟩
    | dispatched stage step =>
      rw [isUndecided, stage] at undecided
      exact doomed_of_dispatch undecided allowed (awake_of_step stage stepped wanted) step
        rfl still
  | left stage outcome =>
    cases step with
    | cancelled => exact ⟨.left stage outcome, rfl⟩
    | dispatched here step =>
      cases here.symm.trans stage
      obtain ⟨same, silent, _⟩ := outcome_final step outcome
      exact ⟨.left rfl same, silent⟩
    | entered here | withdrawn here | unopened here | unplanned here | opened here
    | unlocated here | located here | unconnected here | connected here =>
      cases here.symm.trans stage
  | unsought sought stage failed outcome =>
    cases step with
    | cancelled => exact ⟨.unsought sought stage failed outcome, rfl⟩
    | dispatched here step =>
      cases here.symm.trans stage
      obtain ⟨same, silent, _⟩ := outcome_final step outcome
      rw [← (Dispatch.step_moved step).2.seekFailure] at failed
      exact ⟨.unsought sought rfl failed same, silent⟩
    | entered here | withdrawn here | unopened here | unplanned here | opened here
    | unlocated here | located here | unconnected here | connected here =>
      cases here.symm.trans stage
  | refused stage refusal answered =>
    obtain ⟨rfl, rfl⟩ := Ended.step (.refused stage) stepped
    exact ⟨.refused stage refusal answered, rfl⟩

end Steps

section Answers

variable {job : UploadJob} {Allowed : Move → Prop} {upload : Upload} {dispatch : Dispatch}
  {past : List Event} {result : Result}

theorem finished_of_outcome {outcome : DispatchOutcome}
    (left : dispatch.producer.outcome? = some outcome) (unqueued : outcome ≠ .resumeQueued)
    (answer : dispatch.result? job = some result) :
    ∃ summary, dispatch.producer = .finished outcome summary ∧ result =
      .returned (conclude job dispatch.plan dispatch.source.name summary outcome) := by
  rcases Dispatch.answer_cases answer with ⟨queued, _⟩ | ⟨_, summary, phase, given⟩ | ⟨phase, _⟩
  · rw [queued] at left
    exact absurd (Option.some.inj left).symm unqueued
  · rw [phase] at left
    cases left
    exact ⟨summary, phase, given⟩
  · rw [phase] at left
    contradiction

theorem unanswered_of_feeding (feeding : dispatch.producer.isFeeding = true) :
    dispatch.result? job = none := by
  unfold Dispatch.result?
  cases phase : dispatch.producer with
  | seeking | reading | stalled | queueing | notifying => rfl
  | stopping | joining | finished | abandoned =>
    rw [phase] at feeding
    contradiction

theorem unanswered_of_undecided {P : List Event → Dispatch → Prop}
    (standing : Standing job Allowed P past upload) (undecided : upload.isUndecided = true) :
    upload.result = none := by
  obtain ⟨rfl, here⟩ := standing
  rcases undecided_cases undecided with stage | ⟨_, _, stage⟩ | ⟨_, _, _, stage⟩ |
    ⟨dispatch, stage, feeding⟩ <;> simp only [stage] at here
  · exact here.2
  · exact here.2.1
  · exact here.2.1
  · exact here.2.trans (unanswered_of_feeding feeding)

theorem Doomed.answered (doomed : upload.Doomed Allowed)
    (standing : Standing job (fun _ => True) (Dispatch.Known job fun _ => True) past upload)
    (answer : upload.result = some result) :
    (result = .returned (.error .cancelled) ∨
      ∃ value, Obstacle job Allowed value ∧ result = .returned value) ∧ upload.Ended := by
  have waits := unanswered_of_undecided standing
  obtain ⟨rfl, here⟩ := standing
  have gone : ∀ {dispatch : Dispatch} {outcome : DispatchOutcome} {summary : PoolSummary},
      dispatch.Known upload.job (fun _ => True) past →
      dispatch.producer = .finished outcome summary → dispatch.pool.isStopped = true :=
    fun known phase => (known.working.finished phase).2.2.1
  cases doomed with
  | bound undecided _ =>
    rw [waits undecided] at answer
    contradiction
  | left stage outcome =>
    simp only [stage] at here
    obtain ⟨known, same⟩ := here
    obtain ⟨summary, phase, rfl⟩ :=
      finished_of_outcome outcome (by simp) (same.symm.trans answer)
    exact ⟨.inl rfl, .finished stage phase (gone known phase)⟩
  | unsought sought stage failed outcome =>
    simp only [stage] at here
    obtain ⟨known, same⟩ := here
    obtain ⟨summary, phase, rfl⟩ :=
      finished_of_outcome outcome (by simp) (same.symm.trans answer)
    obtain ⟨files, source, _, opened, moved⟩ := known.working.origin
    rw [moved.seekFailure] at failed
    exact ⟨.inr ⟨_, .unsought sought opened.opened failed, rfl⟩,
      .finished stage phase (gone known phase)⟩
  | refused stage refusal answered =>
    cases answered.symm.trans answer
    exact ⟨.inr ⟨_, .refused refusal, rfl⟩, .refused stage⟩

section Able

variable {files : FileSystem}

theorem able_of_undecided (undecided : upload.isUndecided = true)
    (wanted : upload.cancelled = true) :
    ∃ move : Move, move.Calm files ∧ (upload.step? move).isSome = true := by
  rcases undecided_cases undecided with stage | ⟨_, _, stage⟩ | ⟨_, _, _, stage⟩ |
    ⟨dispatch, stage, feeding⟩
  · exact able_of_opening stage
  · exact ⟨.locate (.ok 0), ⟨0, rfl⟩, by simp [step?, stage]⟩
  · exact ⟨.connect (.ok ()), rfl, by simp [step?, stage]⟩
  · refine able_of_dispatch stage ?_
    cases phase : dispatch.producer with
    | seeking => exact ⟨.seek, trivial, by simp [dispatchStep?, phase]⟩
    | reading | stalled | queueing | notifying =>
      exact ⟨.abort, trivial, by simp [dispatchStep?, phase, wanted, Dispatch.isCancellable]⟩
    | stopping | joining | finished | abandoned =>
      rw [phase] at feeding
      contradiction

theorem able_of_left {outcome : DispatchOutcome} {P : List Event → Dispatch → Prop}
    (standing : Standing job Allowed P past upload)
    (working : ∀ dispatch, P past dispatch → dispatch.Working job Allowed past)
    (stage : upload.stage = .dispatching dispatch)
    (left : dispatch.producer.outcome? = some outcome) (unanswered : upload.result = none) :
    ∃ move : Move, move.Calm files ∧ (upload.step? move).isSome = true := by
  obtain ⟨_, here⟩ := standing
  simp only [stage] at here
  have known := working dispatch here.1
  cases phase : dispatch.producer with
  | stopping => exact able_of_dispatch stage (known.able_of_stopping phase)
  | joining => exact able_of_dispatch stage (known.able_of_joining phase)
  | finished =>
    have answered := here.2
    rw [unanswered, Dispatch.result?, phase] at answered
    contradiction
  | seeking | reading | stalled | queueing | notifying | abandoned =>
    rw [phase] at left
    contradiction

/-- As long as the caller has no answer, something can happen, whatever happens outside. -/
theorem Doomed.able (doomed : upload.Doomed Allowed)
    (standing : Standing job (fun _ => True) (Dispatch.Known job fun _ => True) past upload)
    (unanswered : upload.result = none) (files : FileSystem) :
    ∃ move : Move, move.Calm files ∧ (upload.step? move).isSome = true := by
  have working : ∀ dispatch : Dispatch, dispatch.Known job (fun _ => True) past →
      dispatch.Working job (fun _ => True) past := fun _ known => known.working
  cases doomed with
  | bound undecided wanted => exact able_of_undecided undecided wanted
  | left stage outcome => exact able_of_left standing working stage outcome unanswered
  | unsought _ stage _ outcome => exact able_of_left standing working stage outcome unanswered
  | refused _ _ answered =>
    rw [answered] at unanswered
    contradiction

end Able

end Answers

section Rank

variable {job : UploadJob} {Allowed : Move → Prop} {upload next : Upload} {dispatch : Dispatch}
  {past events : List Event} {move : Move}

/-- How many moves an upload has before it at most that reads no more parts. -/
def endRank (upload : Upload) : Nat :=
  match upload.stage with
  | .waiting => 20
  | .opening => 19
  | .locating _ _ => 18
  | .connecting _ _ _ => 17
  | .dispatching dispatch => dispatch.endRank
  | .over _ => 0

theorem endRank_start (source : Source) (plan : UploadPlan) :
    (startDispatch source plan).endRank ≤ 16 := by
  have workers : max plan.workerCount 1 ≤ 4 := UploadPlan.workers_le plan
  have count : (Pool.start plan.workerCount).workerCount = _ := Pool.workerCount_of_run .start
  have load := Pool.load_start plan.workerCount
  simp only [Dispatch.endRank, startDispatch, count, load]
  omega

theorem endRank_le {P : List Event → Dispatch → Prop}
    (standing : Standing job Allowed P past upload)
    (working : ∀ dispatch, P past dispatch → dispatch.Working job Allowed past)
    (undecided : upload.isUndecided = true) : upload.endRank ≤ 22 := by
  obtain ⟨_, here⟩ := standing
  rcases undecided_cases undecided with stage | ⟨_, _, stage⟩ | ⟨_, _, _, stage⟩ |
    ⟨dispatch, stage, feeding⟩
  · simp [endRank, stage]
  · simp [endRank, stage]
  · simp [endRank, stage]
  · simp only [stage] at here
    have known := working dispatch here.1
    have count := known.workerCount
    have workers : max dispatch.plan.workerCount 1 ≤ 4 := UploadPlan.workers_le _
    have load := dispatch.pool.load_le
    cases phase : dispatch.producer with
    | seeking | reading | stalled | queueing | notifying =>
      simp only [endRank, stage, Dispatch.endRank, phase]
      omega
    | stopping | joining | finished | abandoned =>
      rw [phase] at feeding
      contradiction

theorem Doomed.lowers (doomed : upload.Doomed Allowed)
    (standing : Standing job (fun _ => True) (Dispatch.Known job fun _ => True) past upload)
    (stepped : upload.step? move = some (next, events)) :
    next.endRank + (if !move.isCancel then 1 else 0) ≤ upload.endRank := by
  have step := step_of_step? standing.answer stepped
  obtain ⟨rfl, here⟩ := standing
  by_cases cancel : move = .cancel
  · subst cancel
    cases stepped
    exact Nat.le_refl _
  · have counted : (if !move.isCancel then 1 else 0) = 1 := by
      cases move <;> first | rfl | exact absurd rfl cancel
    rw [counted]
    cases step with
    | cancelled => exact absurd rfl cancel
    | entered stage | withdrawn stage | unopened stage | unplanned stage | opened stage
    | unlocated stage | located stage | unconnected stage =>
      simp [endRank, endEarly, stage]
    | @connected source plan endpoint stage =>
      have started := endRank_start source plan
      simp only [endRank, stage]
      omega
    | @dispatched dispatch _ _ _ _ stage step =>
      simp only [stage] at here
      simp only [endRank, stage]
      refine Dispatch.step_endRank here.1.working step ?_
      cases doomed with
      | bound _ wanted => exact awake_of_step stage stepped wanted
      | left same outcome =>
        cases stage.symm.trans same
        exact (outcome_final step outcome).2.2
      | unsought _ same _ outcome =>
        cases stage.symm.trans same
        exact (outcome_final step outcome).2.2
      | refused ended => cases stage.symm.trans ended

/-- The upload has been doomed since it had seen `past`, and has queued nothing in the meantime. -/
def DoomedSince (job : UploadJob) (Allowed : Move → Prop) (past more : List Event)
    (upload : Upload) : Prop :=
  Standing job (fun _ => True) (Dispatch.Known job fun _ => True) (past ++ more) upload ∧
  upload.Doomed Allowed ∧ more.filterMap Event.queued? = []

theorem step_doomedSince (job : UploadJob) (Allowed : Move → Prop) (past : List Event) :
    StepKeeps step? (DoomedSince job Allowed past) Allowed := by
  intro more upload move next seen ⟨standing, doomed, silent⟩ allowed stepped
  obtain ⟨later, unqueued⟩ := doomed.step standing.answer allowed stepped
  refine ⟨?_, later, by rw [List.filterMap_append, silent, unqueued, List.append_nil]⟩
  rw [← List.append_assoc]
  exact step_known _ _ _ _ _ standing trivial stepped

theorem run_doomed {moves : List Move} {last : Upload} {more : List Event}
    (standing : Standing job (fun _ => True) (Dispatch.Known job fun _ => True) past upload)
    (undecided : upload.isUndecided = true) (wanted : upload.cancelled = true)
    (run : upload.run? moves = some (last, more)) :
    DoomedSince job (· ∈ moves) past more last ∧
    moves.countP (fun move => !move.isCancel) ≤ 22 := by
  -- what the moves may be is fixed to those of this run, so an obstacle is one of them
  have here : DoomedSince job (· ∈ moves) past [] upload :=
    ⟨by rwa [List.append_nil], .bound undecided wanted, rfl⟩
  have kept := step_doomedSince job (· ∈ moves) past
  have rank := endRank_le standing (fun _ known => known.working) undecided
  rw [run?_eq] at run
  refine ⟨run_holds kept moves _ _ _ here (fun _ => id) run, ?_⟩
  have count := run_countP_le endRank (fun move => !move.isCancel) kept
    (fun _ _ _ _ _ since _ stepped => since.2.1.lowers since.1 stepped)
    moves _ _ _ _ here (fun _ => id) run
  omega

end Rank

theorem reported_of_answer {job : UploadJob} {Allowed : Move → Prop} {past : List Event}
    {upload : Upload} (standing : Standing job Allowed (Dispatch.Known job Allowed) past upload)
    (answer : upload.result = some (.returned (.error .cancelled))) : upload.Reported := by
  unfold Reported
  rcases standing.answer_cases answer with ⟨dispatch, stage, known, given⟩ | ⟨_, _, stage, _⟩
  · simp only [stage]
    rcases Dispatch.answer_cases given with
      ⟨_, none_given⟩ | ⟨outcome, summary, phase, given⟩ | ⟨_, crashed⟩
    · cases none_given
    · have fits := known.sensible outcome (by rw [phase]; rfl)
      have told := (Result.returned.inj given).symm
      rw [phase]
      cases outcome with
      | cancelled => rfl
      | exhausted checksum =>
        simp only [conclude, degrade] at told
        split at told
        · split at told <;> cases told
        · cases told
      | resumeQueued => cases told
      | failed error =>
        simp only [conclude, degrade] at told
        split at told
        · exact absurd (Except.error.inj told) fits
        · cases told
    · cases crashed
  · simpa only [stage] using answer

section Withdrawn

variable {upload next last : Upload} {move : Move} {events : List Event}

theorem step_withdrawn (stage : upload.stage = .waiting) (wanted : upload.cancelled = true)
    (stepped : upload.step? move = some (next, events)) :
    events = [] ∧ ((move = .cancel ∧ next = upload) ∨
      (move = .withdraw ∧ next = upload.endEarly .cancelled upload.stream?)) := by
  cases move with
  | cancel =>
    cases stepped
    refine ⟨rfl, .inl ⟨rfl, ?_⟩⟩
    rw [← wanted]
  | withdraw =>
    simp only [step?, stage, wanted, if_true] at stepped
    cases stepped
    exact ⟨rfl, .inr ⟨rfl, rfl⟩⟩
  | _ => simp [step?, stage, wanted] at stepped

theorem stream?_withdrawn (stage : upload.stage = .waiting) :
    (upload.endEarly .cancelled upload.stream?).stream? = upload.stream? := by
  cases input : upload.job.input <;> simp [stream?, endEarly, input, stage]

theorem run_of_withdrawn {moves : List Move} (wanted : upload.cancelled = true)
    (run : (upload.endEarly .cancelled upload.stream?).run? moves = some (last, events)) :
    events = [] ∧ (∀ move ∈ moves, move = .cancel) ∧
    last = upload.endEarly .cancelled upload.stream? := by
  rw [run?_eq] at run
  induction moves generalizing events with
  | nil =>
    cases run
    exact ⟨rfl, by simp, rfl⟩
  | cons move rest ih =>
    obtain ⟨next, first, later, stepped, ran, rfl⟩ := runSteps_cons run
    have ended : (upload.endEarly .cancelled upload.stream?).Ended := .refused rfl
    obtain ⟨same, rfl⟩ := ended.step stepped
    obtain rfl : next = upload.endEarly .cancelled upload.stream? := by
      rw [same, endEarly, ← wanted]
    obtain ⟨rfl, only, last⟩ := ih ran
    refine ⟨rfl, ?_, last⟩
    cases move with
    | cancel => simpa using only
    | _ => simp [step?, endEarly] at stepped

theorem run_withdrawn {moves : List Move} (stage : upload.stage = .waiting)
    (wanted : upload.cancelled = true) (run : upload.run? moves = some (last, events)) :
    events = [] ∧ (∀ move ∈ moves, move = .cancel ∨ move = .withdraw) ∧
    (last = upload ∨ last = upload.endEarly .cancelled upload.stream?) := by
  rw [run?_eq] at run
  induction moves generalizing events with
  | nil =>
    cases run
    exact ⟨rfl, by simp, .inl rfl⟩
  | cons move rest ih =>
    obtain ⟨next, first, later, stepped, ran, rfl⟩ := runSteps_cons run
    obtain ⟨rfl, ⟨rfl, rfl⟩ | ⟨rfl, rfl⟩⟩ := step_withdrawn stage wanted stepped
    · obtain ⟨rfl, only, last⟩ := ih ran
      exact ⟨rfl, by simpa using only, last⟩
    · rw [← run?_eq] at ran
      obtain ⟨rfl, only, last⟩ := run_of_withdrawn wanted ran
      refine ⟨rfl, fun other member => ?_, .inr last⟩
      rcases List.mem_cons.mp member with rfl | later
      · exact .inr rfl
      · exact .inl (only other later)

end Withdrawn

end Upload

end ChunkedUpload
