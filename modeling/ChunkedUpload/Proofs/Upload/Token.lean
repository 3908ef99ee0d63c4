import ChunkedUpload.Proofs.Upload.Ending

/-! The token that cancels an upload. It can fire at any time and stays fired; and the answer that
the upload was cancelled is never given without it. -/
namespace ChunkedUpload

/-- Whether an error tells what is wrong with the source or with the queue. The others come from the
session, from the caller or from a count of lost parts. -/
def UploadError.isFault : UploadError → Bool
  | invalidInput _ | emptyFile | sizeLimitExceeded _ _ | dispatch _ | io _ => true
  | transport _ | cancelled | partsFailed _ => false

section Opening

variable {files : FileSystem} {input : Input} {limit : UInt64} {error : UploadError}

theorem Source.ofStream_fault {stream : Stream} {name : String} {owned : Bool}
    (failed : (ofStream stream name owned limit).1 = .error error) : error.isFault = true := by
  unfold ofStream at failed
  split at failed
  · cases failed
    rfl
  · split at failed
    · cases failed
      rfl
    · split at failed
      · cases failed
        rfl
      · split at failed <;> cases failed
        rfl

theorem Source.openPath_fault {path : Path} {handle : ByteArray → Stream}
    (failed : openPath files path handle = .error error) :
    error.isFault = true := by
  unfold openPath at failed
  split at failed
  · cases failed
    rfl
  · split at failed
    · cases failed
      rfl
    · split at failed <;> cases failed
      rfl

theorem Source.ofInput_fault (failed : (ofInput files input limit).1 = .error error) :
    error.isFault = true := by
  cases input with
  | path path handle =>
    unfold ofInput at failed
    dsimp only at failed
    split at failed
    · rename_i fault unopened
      cases failed
      exact openPath_fault unopened
    · exact ofStream_fault failed
  | stream stream name => exact ofStream_fault failed

theorem Source.ofInput_ne_cancelled : (ofInput files input limit).1 ≠ .error .cancelled := by
  intro failed
  cases ofInput_fault failed

theorem UploadPlan.make_fault {size : UInt64} {resume : Option ResumePart} {freshId : Int64}
    (failed : make size resume freshId = .error error) : error.isFault = true := by
  unfold make at failed
  cases resume with
  | none => cases failed
  | some resume =>
    dsimp only at failed
    split at failed <;> cases failed
    rfl

theorem UploadPlan.make_ne_cancelled {size : UInt64} {resume : Option ResumePart}
    {freshId : Int64} : make size resume freshId ≠ .error .cancelled := by
  intro failed
  cases make_fault failed

end Opening

def Move.isCancel : Move → Bool
  | cancel => true
  | _ => false

namespace Upload

section Token

variable {upload next : Upload} {dispatch : Dispatch} {move : Move} {events : List Event}

/-- The move cancels the upload, or the callback does. -/
def Fires (upload : Upload) (move : Move) : Prop :=
  move = .cancel ∨ ∃ dispatch, upload.stage = .dispatching dispatch ∧
    dispatch.producer = .notifying ∧ (dispatch.report upload.job).effect = .cancels

theorem token_of_dispatch (stage : upload.stage = .dispatching dispatch)
    (stepped : upload.dispatchStep? dispatch move = some (next, events)) :
    next.cancelled = upload.cancelled ∨ next.cancelled = true ∧ upload.Fires move := by
  unfold dispatchStep? at stepped
  split at stepped
  · cases stepped
    exact .inl rfl
  · split at stepped
    · contradiction
    · cases stepped
      exact .inl rfl
  · split at stepped
    · contradiction
    · obtain ⟨_, _, eq⟩ := Option.map_eq_some_iff.mp stepped
      cases eq
      exact .inl rfl
  · rename_i phase
    split at stepped
    · contradiction
    · dsimp only at stepped
      split at stepped
      · cases stepped
        exact .inl rfl
      · rename_i effect
        cases stepped
        exact .inr ⟨rfl, .inr ⟨dispatch, stage, phase, effect⟩⟩
      · cases stepped
        exact .inl rfl
  · split at stepped
    · cases stepped
      exact .inl rfl
    · contradiction
  all_goals first
    | contradiction
    | obtain ⟨_, _, eq⟩ := Option.map_eq_some_iff.mp stepped
      cases eq
      exact .inl rfl

theorem token_of_step (stepped : upload.step? move = some (next, events)) :
    next.cancelled = upload.cancelled ∨ next.cancelled = true ∧ upload.Fires move := by
  unfold step? at stepped
  split at stepped
  · cases stepped
    exact .inr ⟨rfl, .inl rfl⟩
  · split at stepped
    · contradiction
    · cases stepped
      exact .inl rfl
  · split at stepped
    · cases stepped
      exact .inl rfl
    · contradiction
  · split at stepped
    · cases stepped
      exact .inl rfl
    · split at stepped <;> cases stepped <;> exact .inl rfl
  · split at stepped <;> cases stepped <;> exact .inl rfl
  · split at stepped <;> cases stepped <;> exact .inl rfl
  · rename_i stage _
    exact token_of_dispatch stage stepped
  · contradiction

theorem cancelled_of_step (wanted : upload.cancelled = true)
    (stepped : upload.step? move = some (next, events)) : next.cancelled = true := by
  rcases token_of_step stepped with same | ⟨now, _⟩
  · exact same.trans wanted
  · exact now

theorem uncancelled_of_step (awake : next.cancelled = false)
    (stepped : upload.step? move = some (next, events)) : upload.cancelled = false := by
  by_contra wanted
  have now := cancelled_of_step (by simpa using wanted) stepped
  rw [awake] at now
  contradiction

/-- A cancelled upload neither reads nor queues anything, and no longer calls its callback. -/
theorem awake_of_step (stage : upload.stage = .dispatching dispatch)
    (stepped : upload.step? move = some (next, events)) (wanted : upload.cancelled = true) :
    move ≠ .read ∧ move ≠ .enqueue ∧ move ≠ .notify := by
  refine ⟨?_, ?_, ?_⟩
  all_goals
    rintro rfl
    simp only [step?, stage, dispatchStep?, wanted, if_true] at stepped
    split at stepped <;> contradiction

end Token

/-- What may have fired the token of an upload: it had fired before the call, somebody cancels, or
the callback does. -/
def Fired (job : UploadJob) (cancelled : Bool) (moves : List Move) : Prop :=
  cancelled = true ∨ .cancel ∈ moves ∨
  ∃ callback number, job.callback = some callback ∧ callback.effect number = .cancels

theorem report_cancels {job : UploadJob} {dispatch : Dispatch}
    (cancels : (dispatch.report job).effect = .cancels) :
    ∃ callback number, job.callback = some callback ∧ callback.effect number = .cancels := by
  unfold Dispatch.report Notifier.notify Dispatch.notifier at cancels
  cases called : job.callback with
  | none =>
    simp only [called] at cancels
    contradiction
  | some callback =>
    refine ⟨callback, dispatch.reports, rfl, ?_⟩
    simp only [called] at cancels
    split at cancels
    · contradiction
    · exact cancels

/-- Whether the caller hears, or is going to hear, that the upload was cancelled. -/
def Reported (upload : Upload) : Prop :=
  match upload.stage with
  | .dispatching dispatch => dispatch.producer.outcome? = some .cancelled
  | .over _ => upload.result = some (.returned (.error .cancelled))
  | _ => False

section Reported

variable {job : UploadJob} {upload next : Upload} {dispatch after : Dispatch} {move : Move}
  {events : List Event}

theorem outcome_of_step (step : Dispatch.Step job dispatch move events after)
    (going : move ≠ .abort) (cancelled : after.producer.outcome? = some .cancelled) :
    dispatch.producer.outcome? = some .cancelled := by
  cases step with
  | aborted => exact absurd rfl going
  | ended =>
    unfold Dispatch.endOfInput at cancelled
    split at cancelled <;> cases cancelled
  | sought | unsought | filled | broken | stalled | refused | queued | resent | notified
  | deserted => cases cancelled
  | stopped phase | unneeded phase | told phase | joined phase =>
    rw [phase]
    exact cancelled
  | took | finished => exact cancelled

theorem reported_of_step (step : Step upload move events next) (reported : next.Reported)
    (kept : upload.cancelled = true → next.cancelled = true)
    (before : upload.Reported → upload.cancelled = true) : next.cancelled = true := by
  cases step with
  | cancelled => rfl
  | withdrawn _ wanted => exact kept wanted
  | entered | opened | located => exact absurd reported id
  | connected => cases reported
  | unopened stage failed =>
    cases reported
    exact absurd (congrArg Prod.fst failed) Source.ofInput_ne_cancelled
  | unplanned stage found failed =>
    cases reported
    exact absurd failed UploadPlan.make_ne_cancelled
  | unlocated | unconnected => cases reported
  | @dispatched dispatch after _ _ _ stage step wished aborts =>
    by_cases abort : move = .abort
    · exact kept (aborts abort)
    · refine kept (before ?_)
      rw [Reported, stage]
      exact outcome_of_step step abort reported

theorem run_token {cancelled : Bool} {moves : List Move} {last : Upload}
    (run : (begin job cancelled).run? moves = some (last, events)) :
    (last.cancelled = true → Fired job cancelled moves) ∧
    (last.Reported → last.cancelled = true) := by
  have kept : StepKeeps step? (fun past upload =>
      Standing job (fun _ => True) (fun _ _ => True) past upload ∧
      (upload.cancelled = true → Fired job cancelled moves) ∧
      (upload.Reported → upload.cancelled = true)) (fun move => move ∈ moves) := by
    intro past upload move next seen ⟨standing, token, reported⟩ member stepped
    refine ⟨step_standing (fun _ _ _ _ _ _ => trivial) (fun _ _ _ _ _ _ _ _ => trivial) _ _ _ _ _
      standing trivial stepped, ?_, fun now => ?_⟩
    · rcases token_of_step stepped with same | ⟨_, rfl | ⟨dispatch, _, _, cancels⟩⟩
      · rwa [same]
      · exact fun _ => .inr (.inl member)
      · rw [standing.1] at cancels
        exact fun _ => .inr (.inr (report_cancels cancels))
    · exact reported_of_step (step_of_step? standing.answer stepped) now
        (fun wanted => cancelled_of_step wanted stepped) reported
  have fresh : Standing job (fun _ => True) (fun _ _ => True) [] (begin job cancelled) :=
    ⟨rfl, rfl, rfl⟩
  rw [run?_eq] at run
  exact (run_holds kept moves _ _ _ ⟨fresh, .inl, fun now => absurd now id⟩ (fun _ => id) run).2

end Reported

end Upload

end ChunkedUpload
