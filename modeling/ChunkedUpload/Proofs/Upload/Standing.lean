import ChunkedUpload.Proofs.Upload.Steps

/-! Where an upload can be after a run. What holds when its workers are started, and is kept by each
of the steps after that, holds of every upload that a run leads to. -/
namespace ChunkedUpload

namespace Upload

/-- One step of an upload: from stage to stage until the workers are started, and then a step of the
dispatch. Only a callback can cancel there, and only a cancelled upload can abort. -/
inductive Step (upload : Upload) : Move → List Event → Upload → Prop
  | cancelled : Step upload .cancel [] { upload with cancelled := true }
  | entered (stage : upload.stage = .waiting) :
      Step upload .enter [] { upload with stage := .opening }
  | withdrawn (stage : upload.stage = .waiting) (wanted : upload.cancelled = true) :
      Step upload .withdraw [] (upload.endEarly .cancelled upload.stream?)
  | unopened {files : FileSystem} {error : UploadError} {stream : Option Stream}
      (stage : upload.stage = .opening)
      (failed : Source.ofInput files upload.job.input upload.job.limit.bytes =
        (.error error, stream)) :
      Step upload (.openInput files) [] (upload.endEarly error stream)
  | unplanned {files : FileSystem} {source : Source} {error : UploadError}
      {stream : Option Stream} (stage : upload.stage = .opening)
      (found : Source.ofInput files upload.job.input upload.job.limit.bytes =
        (.ok source, stream))
      (failed : UploadPlan.make source.size upload.job.resume upload.job.freshId = .error error) :
      Step upload (.openInput files) [] (upload.endEarly error stream)
  | opened {files : FileSystem} {source : Source} {plan : UploadPlan} {stream : Option Stream}
      (stage : upload.stage = .opening)
      (found : Source.ofInput files upload.job.input upload.job.limit.bytes =
        (.ok source, stream))
      (planned : UploadPlan.make source.size upload.job.resume upload.job.freshId = .ok plan) :
      Step upload (.openInput files) [.askedHome] { upload with stage := .locating source plan }
  | unlocated {source : Source} {plan : UploadPlan} {error : TransportError}
      (stage : upload.stage = .locating source plan) :
      Step upload (.locate (.error error)) [] (upload.endEarly (.transport error) upload.stream?)
  | located {source : Source} {plan : UploadPlan} {endpoint : Int32}
      (stage : upload.stage = .locating source plan) :
      Step upload (.locate (.ok endpoint)) [.askedSession endpoint]
        { upload with stage := .connecting source plan endpoint }
  | unconnected {source : Source} {plan : UploadPlan} {endpoint : Int32} {error : TransportError}
      (stage : upload.stage = .connecting source plan endpoint) :
      Step upload (.connect (.error error)) [] (upload.endEarly (.transport error) upload.stream?)
  | connected {source : Source} {plan : UploadPlan} {endpoint : Int32}
      (stage : upload.stage = .connecting source plan endpoint) :
      Step upload (.connect (.ok ())) []
        { upload with stage := .dispatching (startDispatch source plan) }
  | dispatched {dispatch after : Dispatch} {move : Move} {events : List Event} {wish : Bool}
      (stage : upload.stage = .dispatching dispatch)
      (step : Dispatch.Step upload.job dispatch move events after)
      (wished : wish = upload.cancelled ∨ (dispatch.report upload.job).effect = .cancels)
      (aborts : move = .abort → upload.cancelled = true) :
      Step upload move events { upload with
        stage := .dispatching after, result := after.result? upload.job, cancelled := wish }

theorem run?_eq (upload : Upload) (moves : List Move) :
    upload.run? moves = runSteps? step? upload moves := by
  induction moves generalizing upload with
  | nil => rfl
  | cons move rest ih => simp only [run?, runSteps?, ih]

theorem run_append {upload mid last : Upload} {earlier later : List Move} {past more : List Event}
    (before : upload.run? earlier = some (mid, past)) (after : mid.run? later = some (last, more)) :
    upload.run? (earlier ++ later) = some (last, past ++ more) := by
  rw [run?_eq] at before after ⊢
  exact runSteps_append before after

/-- A move of an upload with workers is a step of its dispatch, and the caller's answer goes with
it. -/
theorem step_of_dispatch {upload next : Upload} {dispatch : Dispatch} {move : Move}
    {events : List Event} (stage : upload.stage = .dispatching dispatch)
    (answer : upload.result = dispatch.result? upload.job)
    (stepped : upload.dispatchStep? dispatch move = some (next, events)) :
    Step upload move events next := by
  have same : ∀ {after : Dispatch} {wish : Bool},
      Dispatch.Step upload.job dispatch move events after →
      (wish = upload.cancelled ∨ (dispatch.report upload.job).effect = .cancels) →
      (move = .abort → upload.cancelled = true) →
      ∀ result, result = after.result? upload.job →
      Step upload move events ⟨upload.job, wish, .dispatching after, result⟩ := by
    rintro after wish step wished aborts _ rfl
    exact .dispatched stage step wished aborts
  have plain : ∀ {after : Dispatch}, Dispatch.Step upload.job dispatch move events after →
      (move ≠ .enqueue ∧ move ≠ .notify ∧ move ≠ .join) →
      upload.result = after.result? upload.job := fun step inner =>
    answer.trans (Dispatch.result?_of_step step inner).symm
  unfold dispatchStep? at stepped
  split at stepped
  · rename_i phase
    cases stepped
    have step := Dispatch.step_of_seek upload.job phase
    exact same step (.inl rfl) (by simp) _ (plain step (by simp))
  · rename_i phase
    split at stepped
    · contradiction
    · cases stepped
      have step := Dispatch.step_of_read upload.job phase
      exact same step (.inl rfl) (by simp) _ (plain step (by simp))
  · rename_i request phase
    split at stepped
    · contradiction
    · obtain ⟨⟨after, seen⟩, queued, eq⟩ := Option.map_eq_some_iff.mp stepped
      cases eq
      obtain ⟨step, now⟩ := Dispatch.step_of_enqueue upload.job phase queued
      exact same step (.inl rfl) (by simp) _ (by rw [now, answer])
  · rename_i phase
    split at stepped
    · contradiction
    · dsimp only at stepped
      split at stepped
      · rename_i effect
        cases stepped
        have step : Dispatch.Step upload.job dispatch .notify _ _ :=
          .notified phase (by simp [effect])
        exact same step (.inl rfl) (by simp) _ (by simp [answer, Dispatch.result?, phase])
      · rename_i effect
        cases stepped
        have step : Dispatch.Step upload.job dispatch .notify _ _ :=
          .notified phase (by simp [effect])
        exact same step (.inr effect) (by simp) _ (by simp [answer, Dispatch.result?, phase])
      · rename_i effect
        cases stepped
        exact same (.deserted phase effect) (.inl rfl) (by simp) _ rfl
  · split at stepped
    · rename_i able
      cases stepped
      simp only [Bool.and_eq_true] at able
      have step : Dispatch.Step upload.job dispatch .abort [] _ := .aborted able.2
      exact same step (.inl rfl) (fun _ => able.1) _ (plain step (by simp))
    · contradiction
  · obtain ⟨after, stopped, eq⟩ := Option.map_eq_some_iff.mp stepped
    cases eq
    have step := Dispatch.step_of_stop upload.job stopped
    exact same step (.inl rfl) (by simp) _ (plain step (by simp))
  · obtain ⟨⟨after, outcome, summary⟩, joined, eq⟩ := Option.map_eq_some_iff.mp stepped
    cases eq
    obtain ⟨step, now⟩ := Dispatch.step_of_join upload.job joined
    exact same step (.inl rfl) (by simp) _ (by rw [now, answer])
  · obtain ⟨⟨pool, begun⟩, took, eq⟩ := Option.map_eq_some_iff.mp stepped
    cases eq
    have step : Dispatch.Step upload.job dispatch _ _ _ := .took took
    exact same step (.inl rfl) (by simp) _ (plain step (by simp))
  · obtain ⟨⟨pool, request⟩, finished, eq⟩ := Option.map_eq_some_iff.mp stepped
    cases eq
    have step : Dispatch.Step upload.job dispatch _ _ _ := .finished finished
    exact same step (.inl rfl) (by simp) _ (plain step (by simp))
  · contradiction

theorem step_of_step? {upload next : Upload} {move : Move} {events : List Event}
    (answer : ∀ dispatch, upload.stage = .dispatching dispatch →
      upload.result = dispatch.result? upload.job)
    (stepped : upload.step? move = some (next, events)) : Step upload move events next := by
  unfold step? at stepped
  split at stepped
  · cases stepped
    exact .cancelled
  · rename_i stage
    split at stepped
    · contradiction
    · cases stepped
      exact .entered stage
  · rename_i stage
    split at stepped
    · rename_i wanted
      cases stepped
      exact .withdrawn stage wanted
    · contradiction
  · rename_i files stage
    split at stepped
    · rename_i error stream failed
      cases stepped
      exact .unopened stage failed
    · rename_i source stream found
      split at stepped
      · rename_i error failed
        cases stepped
        exact .unplanned stage found failed
      · rename_i plan planned
        cases stepped
        exact .opened stage found planned
  · rename_i stage
    split at stepped
    · cases stepped
      exact .unlocated stage
    · cases stepped
      exact .located stage
  · rename_i stage
    split at stepped
    · cases stepped
      exact .unconnected stage
    · cases stepped
      exact .connected stage
  · rename_i dispatch stage _
    exact step_of_dispatch stage (answer dispatch stage) stepped
  · contradiction

section Source

variable {upload next : Upload} {dispatch : Dispatch} {events : List Event}
  (stage : upload.stage = .dispatching dispatch)

include stage

theorem seek_of_step (stepped : upload.step? .seek = some (next, events)) :
    dispatch.producer = .seeking ∧ events = [] ∧
    next = { upload with stage := .dispatching dispatch.seek } := by
  cases phase : dispatch.producer with
  | seeking =>
    simp only [step?, stage, dispatchStep?, phase] at stepped
    cases stepped
    exact ⟨rfl, rfl, rfl⟩
  | _ => simp [step?, stage, dispatchStep?, phase] at stepped

theorem read_of_step (stepped : upload.step? .read = some (next, events)) :
    dispatch.producer = .reading ∧ upload.cancelled = false ∧ events = [] ∧
    next = { upload with stage := .dispatching dispatch.read } := by
  cases phase : dispatch.producer with
  | reading =>
    simp only [step?, stage, dispatchStep?, phase, Option.ite_none_left_eq_some,
      Bool.not_eq_true] at stepped
    obtain ⟨awake, eq⟩ := stepped
    cases eq
    exact ⟨rfl, awake, rfl, rfl⟩
  | _ => simp [step?, stage, dispatchStep?, phase] at stepped

end Source

/-- The job's input was found, measured and planned. -/
structure Opened (files : FileSystem) (job : UploadJob) (source : Source) (plan : UploadPlan) :
    Prop where
  opened : (Source.ofInput files job.input job.limit.bytes).1 = .ok source
  planned : UploadPlan.make source.size job.resume job.freshId = .ok plan

/-- Why an upload may end before it has workers. -/
inductive Refusal (job : UploadJob) (Allowed : Move → Prop) : UploadError → Prop
  | withdrawn (allowed : Allowed .withdraw) : Refusal job Allowed .cancelled
  | unopened {files : FileSystem} {error : UploadError} (allowed : Allowed (.openInput files))
      (failed : (Source.ofInput files job.input job.limit.bytes).1 = .error error) :
      Refusal job Allowed error
  | unplanned {files : FileSystem} {source : Source} {error : UploadError}
      (allowed : Allowed (.openInput files))
      (opened : (Source.ofInput files job.input job.limit.bytes).1 = .ok source)
      (failed : UploadPlan.make source.size job.resume job.freshId = .error error) :
      Refusal job Allowed error
  | unlocated {error : TransportError} (allowed : Allowed (.locate (.error error))) :
      Refusal job Allowed (.transport error)
  | unconnected {error : TransportError} (allowed : Allowed (.connect (.error error))) :
      Refusal job Allowed (.transport error)

/-- Where an upload stands: its workers have not been started, or a property holds since they
were. -/
def Standing (job : UploadJob) (Allowed : Move → Prop) (P : List Event → Dispatch → Prop)
    (past : List Event) (upload : Upload) : Prop :=
  upload.job = job ∧
  match upload.stage with
  | .waiting | .opening => past = [] ∧ upload.result = none
  | .locating source plan => past = [.askedHome] ∧ upload.result = none ∧
      ∃ files, Allowed (.openInput files) ∧ Opened files job source plan
  | .connecting source plan endpoint =>
      past = [.askedHome, .askedSession endpoint] ∧ upload.result = none ∧
      ∃ files, Allowed (.openInput files) ∧ Opened files job source plan
  | .dispatching dispatch => P past dispatch ∧ upload.result = dispatch.result? job
  | .over _ => past.filterMap Event.queued? = [] ∧ past.filterMap Event.started? = [] ∧
      ∃ error, Refusal job Allowed error ∧ upload.result = some (.returned (.error error))

section Runs

variable {job : UploadJob} {Allowed : Move → Prop} {P : List Event → Dispatch → Prop}

theorem Standing.answer {past : List Event} {upload : Upload}
    (standing : Standing job Allowed P past upload) (dispatch : Dispatch)
    (stage : upload.stage = .dispatching dispatch) :
    upload.result = dispatch.result? upload.job := by
  obtain ⟨rfl, here⟩ := standing
  simp only [stage] at here
  exact here.2

theorem Standing.unstarted {past : List Event} {upload : Upload}
    (standing : Standing job Allowed P past upload)
    (before : ∀ dispatch, upload.stage ≠ .dispatching dispatch) :
    past.filterMap Event.started? = [] := by
  obtain ⟨_, here⟩ := standing
  split at here
  · rw [here.1, List.filterMap_nil]
  · rw [here.1, List.filterMap_nil]
  · rw [here.1]
    rfl
  · rw [here.1]
    rfl
  · rename_i dispatch stage
    exact absurd stage (before dispatch)
  · exact here.2.1

/-- What holds of no requests, and of those that workers have begun with, holds at any time. -/
theorem Standing.started {past : List Event} {upload : Upload}
    (standing : Standing job Allowed P past upload) (Q : List PartRequest → Prop) (nothing : Q [])
    (working : ∀ dispatch, P past dispatch → Q (past.filterMap Event.started?)) :
    Q (past.filterMap Event.started?) := by
  by_cases before : ∀ dispatch, upload.stage ≠ .dispatching dispatch
  · rw [standing.unstarted before]
    exact nothing
  · obtain ⟨dispatch, stage⟩ := not_forall.mp before
    obtain ⟨_, here⟩ := standing
    simp only [not_not.mp stage] at here
    exact working dispatch here.1

theorem Standing.answer_cases {past : List Event} {upload : Upload} {result : Result}
    (standing : Standing job Allowed P past upload) (answer : upload.result = some result) :
    (∃ dispatch, upload.stage = .dispatching dispatch ∧ P past dispatch ∧
      dispatch.result? job = some result) ∨
    ∃ stream error, upload.stage = .over stream ∧ Refusal job Allowed error ∧
      result = .returned (.error error) := by
  obtain ⟨_, here⟩ := standing
  split at here
  · simp [answer] at here
  · simp [answer] at here
  · simp [answer] at here
  · simp [answer] at here
  · rename_i dispatch stage
    exact .inl ⟨dispatch, stage, here.1, here.2.symm.trans answer⟩
  · rename_i stream stage
    obtain ⟨_, _, error, refusal, same⟩ := here
    exact .inr ⟨stream, error, stage, refusal, Option.some.inj (answer.symm.trans same)⟩

theorem step_standing
    (start : ∀ files source plan endpoint, Allowed (.openInput files) →
      Opened files job source plan →
      P [.askedHome, .askedSession endpoint] (startDispatch source plan))
    (kept : ∀ past dispatch move events after, P past dispatch → Allowed move →
      Dispatch.Step job dispatch move events after → P (past ++ events) after) :
    StepKeeps step? (Standing job Allowed P) Allowed := by
  intro past upload move next events standing allowed stepped
  have step := step_of_step? standing.answer stepped
  obtain ⟨rfl, here⟩ := standing
  cases step with
  | cancelled =>
    rw [List.append_nil]
    exact ⟨rfl, here⟩
  | entered stage =>
    simp only [stage] at here
    obtain ⟨rfl, unanswered⟩ := here
    exact ⟨rfl, rfl, unanswered⟩
  | withdrawn stage =>
    simp only [stage] at here
    obtain ⟨rfl, _⟩ := here
    exact ⟨rfl, rfl, rfl, _, .withdrawn allowed, rfl⟩
  | unopened stage failed =>
    simp only [stage] at here
    obtain ⟨rfl, _⟩ := here
    exact ⟨rfl, rfl, rfl, _, .unopened allowed (congrArg Prod.fst failed), rfl⟩
  | unplanned stage found failed =>
    simp only [stage] at here
    obtain ⟨rfl, _⟩ := here
    exact ⟨rfl, rfl, rfl, _, .unplanned allowed (congrArg Prod.fst found) failed, rfl⟩
  | @opened files _ _ _ stage found planned =>
    simp only [stage] at here
    obtain ⟨rfl, unanswered⟩ := here
    exact ⟨rfl, rfl, unanswered, files, allowed, congrArg Prod.fst found, planned⟩
  | unlocated stage =>
    simp only [stage] at here
    obtain ⟨rfl, _⟩ := here
    exact ⟨rfl, rfl, rfl, _, .unlocated allowed, rfl⟩
  | located stage =>
    simp only [stage] at here
    obtain ⟨rfl, unanswered, opened⟩ := here
    exact ⟨rfl, rfl, unanswered, opened⟩
  | unconnected stage =>
    simp only [stage] at here
    obtain ⟨rfl, _⟩ := here
    exact ⟨rfl, rfl, rfl, _, .unconnected allowed, rfl⟩
  | @connected source plan endpoint stage =>
    simp only [stage] at here
    obtain ⟨rfl, unanswered, files, opening, opened⟩ := here
    exact ⟨rfl, start files source plan endpoint opening opened, unanswered⟩
  | dispatched stage step =>
    simp only [stage] at here
    exact ⟨rfl, kept _ _ _ _ _ here.1 allowed step, rfl⟩

/-- What holds of a dispatch at its start and is kept by its steps holds after every run. -/
theorem run_standing {cancelled : Bool} {moves : List Move} {last : Upload} {events : List Event}
    (start : ∀ files source plan endpoint, Allowed (.openInput files) →
      Opened files job source plan →
      P [.askedHome, .askedSession endpoint] (startDispatch source plan))
    (kept : ∀ past dispatch move events after, P past dispatch → Allowed move →
      Dispatch.Step job dispatch move events after → P (past ++ events) after)
    (allowed : ∀ move ∈ moves, Allowed move)
    (run : (begin job cancelled).run? moves = some (last, events)) :
    Standing job Allowed P events last := by
  have fresh : Standing job Allowed P [] (begin job cancelled) := ⟨rfl, rfl, rfl⟩
  rw [run?_eq] at run
  exact run_holds (step_standing start kept) moves _ _ _ fresh allowed run

end Runs

end Upload

end ChunkedUpload
