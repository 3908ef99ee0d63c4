import ChunkedUpload.Proofs.Upload.Standing

/-! One run under two jobs. Jobs that agree on everything but the callback and the flag for lost
parts, and whose reports have the same effect, allow the same moves; what they differ in is what the
caller gets of a dispatch. -/
namespace ChunkedUpload

/-- The job asks for the same upload, and its reports go the same way. -/
structure UploadJob.Alike (job other : UploadJob) : Prop where
  input : other.input = job.input
  limit : other.limit = job.limit
  resume : other.resume = job.resume
  freshId : other.freshId = job.freshId
  report : ∀ dispatch : Dispatch, dispatch.report other = dispatch.report job

/-- Of the job, only the flag for lost parts makes a difference to the answer. -/
theorem Dispatch.result?_congr {job other : UploadJob}
    (same : other.failOnPartError = job.failOnPartError) (dispatch : Dispatch) :
    dispatch.result? other = dispatch.result? job := by
  have degrade : Upload.degrade other = Upload.degrade job := by
    funext error
    unfold Upload.degrade
    rw [same]
  have conclude : Upload.conclude other = Upload.conclude job := by
    funext plan name summary outcome
    cases outcome <;> simp only [Upload.conclude, degrade]
  unfold result?
  rw [conclude]

namespace Upload

/-- The upload as it is, with the answer that another job has at this point. -/
def under (other : UploadJob) (upload : Upload) : Upload where
  job := other
  cancelled := upload.cancelled
  stage := upload.stage
  result :=
    match upload.stage with
    | .dispatching dispatch => dispatch.result? other
    | _ => upload.result

/-- The caller has what the dispatch tells, and nothing before there is one. -/
def Answered (upload : Upload) : Prop :=
  match upload.stage with
  | .dispatching dispatch => upload.result = dispatch.result? upload.job
  | .over _ => True
  | _ => upload.result = none

section Answered

variable {upload next : Upload} {move : Move} {events : List Event}

theorem begin_answered (job : UploadJob) (cancelled : Bool) : (begin job cancelled).Answered := rfl

theorem Answered.dispatch (answered : upload.Answered) (dispatch : Dispatch)
    (stage : upload.stage = .dispatching dispatch) :
    upload.result = dispatch.result? upload.job := by
  simpa only [Answered, stage] using answered

theorem Standing.answered {job : UploadJob} {Allowed : Move → Prop}
    {P : List Event → Dispatch → Prop} {past : List Event}
    (standing : Standing job Allowed P past upload) : upload.Answered := by
  obtain ⟨rfl, here⟩ := standing
  unfold Answered
  split at here
  all_goals simp [*]

theorem Step.kept (step : Step upload move events next) (answered : upload.Answered) :
    next.job = upload.job ∧ next.Answered := by
  cases step with
  | cancelled => exact ⟨rfl, answered⟩
  | entered stage | opened stage | located stage =>
    exact ⟨rfl, by simpa only [Answered, stage] using answered⟩
  | withdrawn | unopened | unplanned | unlocated | unconnected => exact ⟨rfl, trivial⟩
  | connected stage =>
    have unanswered : upload.result = none := by simpa only [Answered, stage] using answered
    exact ⟨rfl, unanswered⟩
  | dispatched => exact ⟨rfl, rfl⟩

end Answered

theorem under_result {upload : Upload} {other : UploadJob} (answered : upload.Answered)
    (same : other.failOnPartError = upload.job.failOnPartError) :
    (upload.under other).result = upload.result := by
  unfold under
  dsimp only
  split
  · rename_i dispatch stage
    rw [Dispatch.result?_congr same, answered.dispatch dispatch stage]
  · rfl

section Under

variable {upload next : Upload} {other : UploadJob} {move : Move} {events : List Event}

theorem stream?_under (alike : upload.job.Alike other) :
    (upload.under other).stream? = upload.stream? := by
  unfold stream?
  rw [show (upload.under other).job.input = upload.job.input from alike.input]
  rfl

/-- A move of the dispatch is possible under the other job as well, and leads to the same place. -/
theorem dispatchStep?_under {dispatch : Dispatch} (alike : upload.job.Alike other)
    (stage : upload.stage = .dispatching dispatch)
    (stepped : upload.dispatchStep? dispatch move = some (next, events)) :
    (upload.under other).dispatchStep? dispatch move = some (next.under other, events) := by
  have held : (upload.under other).result = dispatch.result? other := by simp [under, stage]
  have awake : (upload.under other).cancelled = upload.cancelled := rfl
  -- the answer of the other job after a step that does not give it one
  have plain : ∀ {after : Dispatch}, Dispatch.Step other dispatch move events after →
      (move ≠ .enqueue ∧ move ≠ .notify ∧ move ≠ .join) →
      dispatch.result? other = after.result? other :=
    fun step inner => (Dispatch.result?_of_step step inner).symm
  unfold dispatchStep? at stepped
  split at stepped
  · rename_i phase
    cases stepped
    have same := plain (Dispatch.step_of_seek other phase) (by simp)
    simp [dispatchStep?, phase, under, stage, same]
  · rename_i phase
    split at stepped
    · contradiction
    · rename_i going
      cases stepped
      have same := plain (Dispatch.step_of_read other phase) (by simp)
      simp [dispatchStep?, phase, under, stage, going, same]
  · rename_i request phase
    split at stepped
    · contradiction
    · rename_i going
      obtain ⟨⟨after, seen⟩, queued, eq⟩ := Option.map_eq_some_iff.mp stepped
      cases eq
      have same := (Dispatch.step_of_enqueue other phase queued).2
      simp [dispatchStep?, phase, under, stage, going, queued, same]
  · rename_i phase
    split at stepped
    · contradiction
    · rename_i going
      dsimp only at stepped
      rw [← alike.report dispatch] at stepped
      split at stepped <;> rename_i effect <;> cases stepped <;>
        simp [dispatchStep?, phase, under, stage, going, effect, Dispatch.result?]
  · split at stepped
    · rename_i able
      cases stepped
      simp only [Bool.and_eq_true] at able
      have same := plain (.aborted able.2) (by simp)
      simp [dispatchStep?, under, stage, able, same]
    · contradiction
  · obtain ⟨after, stopped, eq⟩ := Option.map_eq_some_iff.mp stepped
    cases eq
    have same := plain (Dispatch.step_of_stop other stopped) (by simp)
    simp [dispatchStep?, under, stage, stopped, same]
  · obtain ⟨⟨after, outcome, summary⟩, joined, eq⟩ := Option.map_eq_some_iff.mp stepped
    cases eq
    have same := (Dispatch.step_of_join other joined).2
    simp [dispatchStep?, under, stage, joined, same]
  · obtain ⟨⟨pool, begun⟩, took, eq⟩ := Option.map_eq_some_iff.mp stepped
    cases eq
    have same := plain (.took took) (by simp)
    simp [dispatchStep?, under, stage, took, same]
  · obtain ⟨⟨pool, request⟩, finished, eq⟩ := Option.map_eq_some_iff.mp stepped
    cases eq
    have same := plain (.finished finished) (by simp)
    simp [dispatchStep?, under, stage, finished, same]
  · contradiction

theorem under_endEarly (error : UploadError) (stream : Option Stream) :
    (upload.endEarly error stream).under other = (upload.under other).endEarly error stream := rfl

theorem step?_under (alike : upload.job.Alike other) (answered : upload.Answered)
    (stepped : upload.step? move = some (next, events)) :
    (upload.under other).step? move = some (next.under other, events) := by
  have stream := stream?_under alike
  unfold step? at stepped
  split at stepped
  · cases stepped
    rfl
  · rename_i stage
    split at stepped
    · contradiction
    · rename_i going
      cases stepped
      simp [step?, under, stage, going]
  · rename_i stage
    split at stepped
    · rename_i wanted
      cases stepped
      rw [under_endEarly, ← stream]
      simp [step?, under, stage, wanted]
    · contradiction
  · rename_i files stage
    rw [← alike.input, ← alike.limit, ← alike.resume, ← alike.freshId] at stepped
    split at stepped
    · rename_i unopened
      cases stepped
      rw [under_endEarly]
      simp [step?, under, stage, unopened]
    · rename_i found
      split at stepped
      · rename_i unplanned
        cases stepped
        rw [under_endEarly]
        simp [step?, under, stage, found, unplanned]
      · rename_i planned
        cases stepped
        simp [step?, under, stage, found, planned]
  · rename_i stage
    split at stepped
    · cases stepped
      rw [under_endEarly, ← stream]
      simp [step?, under, stage]
    · cases stepped
      simp [step?, under, stage]
  · rename_i stage
    split at stepped
    · cases stepped
      rw [under_endEarly, ← stream]
      simp [step?, under, stage]
    · cases stepped
      have unanswered : upload.result = none := by simpa only [Answered, stage] using answered
      simp [step?, under, stage, Dispatch.result?, startDispatch, unanswered]
  · rename_i dispatch stage _
    have here : (upload.under other).stage = .dispatching dispatch := stage
    simpa only [step?, here] using dispatchStep?_under alike stage stepped
  · contradiction

theorem run?_under {moves : List Move} (alike : upload.job.Alike other)
    (answered : upload.Answered) (run : upload.run? moves = some (next, events)) :
    (upload.under other).run? moves = some (next.under other, events) := by
  rw [run?_eq] at run ⊢
  induction moves generalizing upload events with
  | nil =>
    cases run
    rfl
  | cons move rest ih =>
    obtain ⟨mid, first, later, stepped, ran, rfl⟩ := runSteps_cons run
    obtain ⟨same, still⟩ := (step_of_step? answered.dispatch stepped).kept answered
    have further := ih (same ▸ alike) still ran
    simp only [runSteps?, step?_under alike answered stepped, Option.bind_some, further,
      Option.map_some]

end Under

end Upload

end ChunkedUpload
