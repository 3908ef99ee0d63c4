import ChunkedUpload.Proofs.Pool.Progress
import ChunkedUpload.Proofs.Upload.Calm

/-! The way out of the loop. Once the producer has left it, by itself or because it was cancelled,
it tells its workers to stop and waits until they are gone. That takes a few steps, and one of them
can always be made. -/
namespace ChunkedUpload

namespace Dispatch

/-- How many steps there are at most until the caller has an answer, if no more parts are read. -/
def endRank (dispatch : Dispatch) : Nat :=
  let stop := 2 * dispatch.pool.workerCount + 2
  (match dispatch.producer with
    | .seeking => stop + 2
    | .reading | .stalled | .queueing _ | .notifying => stop + 1
    | .stopping left _ => 2 * left + 2
    | .joining _ => 1
    | .finished _ _ | .abandoned => 0) + dispatch.pool.load

/-- Something can happen that leaves the upload undisturbed. -/
def Able (files : FileSystem) (upload : Upload) (dispatch : Dispatch) : Prop :=
  ∃ move : Move, move.Calm files ∧ (upload.dispatchStep? dispatch move).isSome = true

section Leaving

variable {job : UploadJob} {Allowed : Move → Prop} {files : FileSystem} {upload : Upload}
  {events more : List Event} {dispatch after : Dispatch} {move : Move} {outcome : DispatchOutcome}

theorem Working.workerCount (h : Working job Allowed events dispatch) :
    dispatch.pool.workerCount = max dispatch.plan.workerCount 1 := by
  obtain ⟨_, _, tracked⟩ := h.tracked
  exact Pool.workerCount_of_run tracked.followed.run

theorem Working.workerCount_step (h : Working job Allowed events dispatch)
    (step : Step job dispatch move more after) :
    after.pool.workerCount = dispatch.pool.workerCount := by
  rw [h.workerCount, (step_working step h).workerCount, (step_moved step).1]

/-- Only by reading, queueing and reporting can the producer stay in its loop. -/
theorem step_endRank (h : Working job Allowed events dispatch)
    (step : Step job dispatch move more after)
    (leaving : move ≠ .read ∧ move ≠ .enqueue ∧ move ≠ .notify) :
    after.endRank < dispatch.endRank := by
  have count := h.workerCount_step step
  cases step with
  | filled | ended | broken | stalled => exact absurd rfl leaving.1
  | refused | queued | resent => exact absurd rfl leaving.2.1
  | notified | deserted => exact absurd rfl leaving.2.2
  | sought phase | unsought phase =>
    simp only [endRank, leave, phase]
    omega
  | aborted waiting =>
    rcases phase_of_cancellable waiting with phase | phase | ⟨_, phase⟩ | phase <;>
      simp only [endRank, leave, phase] <;> omega
  | stopped phase | unneeded phase | joined phase =>
    simp only [endRank, phase]
    omega
  | told phase offered =>
    have load := Pool.load_of_offer offered
    simp only [endRank, phase, load, Item.weight]
    omega
  | took took =>
    have load := Pool.load_of_take took
    simp only [endRank] at count ⊢
    rw [count]
    omega
  | finished finished =>
    have load := Pool.load_of_finish finished
    simp only [endRank] at count ⊢
    rw [count]
    omega

theorem able_of_canWork (work : dispatch.pool.CanWork) : Able files upload dispatch := by
  obtain ⟨worker, takes | finishes⟩ := work
  · exact ⟨.take worker, trivial, by simpa [Upload.dispatchStep?] using takes⟩
  · exact ⟨.finish worker .delivered, by simp [Move.Calm],
      by simpa [Upload.dispatchStep?] using finishes _⟩

theorem offer?_isSome {pool : Pool} (item : Item) (is_open : pool.queue.isClosed = false)
    (free : pool.queue.slot.isSome = false) : (pool.offer? item).isSome = true := by
  simp [Pool.offer?, Queue.offer?, is_open, free]

theorem Working.enqueue_or_work (h : Working job Allowed events dispatch)
    (is_open : dispatch.pool.queue.isClosed = false) (request : PartRequest) :
    (dispatch.enqueue? request).isSome = true ∨ dispatch.pool.CanWork := by
  obtain ⟨_, _, tracked⟩ := h.tracked
  cases full : dispatch.pool.queue.slot.isSome with
  | true => exact .inr (Pool.canWork_of_slot tracked.followed.run full)
  | false =>
    have room := offer?_isSome (.part request) is_open full
    exact .inl (by simpa [enqueue?, is_open] using room)

/-- A producer that stops its workers waits for nobody but them. -/
theorem Working.stop_or_work (h : Working job Allowed events dispatch) {left : Nat}
    (phase : dispatch.producer = .stopping left outcome) :
    dispatch.stop?.isSome = true ∨ dispatch.pool.CanWork := by
  obtain ⟨_, _, tracked⟩ := h.tracked
  cases left with
  | zero => exact .inl (by simp [stop?, phase])
  | succ left =>
    cases full : dispatch.pool.queue.slot.isSome with
    | true => exact .inr (Pool.canWork_of_slot tracked.followed.run full)
    | false =>
      left
      cases closed : dispatch.pool.queue.isClosed with
      | true => simp [stop?, phase, closed]
      | false =>
        have room := offer?_isSome .shutdown closed full
        simpa [stop?, phase, closed] using room

theorem Working.join_or_work (h : Working job Allowed events dispatch)
    (phase : dispatch.producer = .joining outcome) :
    dispatch.join?.isSome = true ∨ dispatch.pool.CanWork := by
  by_cases gone : dispatch.pool.isStopped = true
  · exact .inl (by simp [join?, phase, gone])
  · have live : dispatch.pool.isStopped = false := by simpa using gone
    obtain ⟨log, sent, tracked⟩ := h.tracked
    have run := tracked.followed.run
    have place := tracked.place
    have accepted := tracked.accepted
    rw [phase, Producer.Place, (Pool.run_staffed run).closed, live] at place
    -- the queue is still open, so a shutdown item was sent for every worker
    obtain rfl : sent = dispatch.pool.workerCount := by simpa using place
    rw [Pool.workerCount_of_run run] at accepted
    exact .inr (Pool.canWork_of_dismissed run (tracked.connected (by simp [phase])) accepted live)

theorem Working.able_of_stopping (h : Working job Allowed events dispatch) {left : Nat}
    (phase : dispatch.producer = .stopping left outcome) : Able files upload dispatch := by
  rcases h.stop_or_work phase with stops | work
  · exact ⟨.stop, trivial, by simpa [Upload.dispatchStep?] using stops⟩
  · exact able_of_canWork work

theorem Working.able_of_joining (h : Working job Allowed events dispatch)
    (phase : dispatch.producer = .joining outcome) : Able files upload dispatch := by
  rcases h.join_or_work phase with joins | work
  · exact ⟨.join, trivial, by simpa [Upload.dispatchStep?] using joins⟩
  · exact able_of_canWork work

end Leaving

end Dispatch

namespace Upload

variable {files : FileSystem} {upload : Upload}

theorem able_of_dispatch {dispatch : Dispatch} (stage : upload.stage = .dispatching dispatch)
    (able : dispatch.Able files upload) :
    ∃ move : Move, move.Calm files ∧ (upload.step? move).isSome = true := by
  obtain ⟨move, calm, able⟩ := able
  refine ⟨move, calm, ?_⟩
  cases move with
  | cancel => contradiction
  | _ => simpa only [step?, stage] using able

theorem able_of_opening (stage : upload.stage = .opening) :
    ∃ move : Move, move.Calm files ∧ (upload.step? move).isSome = true := by
  refine ⟨.openInput files, rfl, ?_⟩
  simp only [step?, stage]
  split
  · rfl
  · split <;> rfl

end Upload

end ChunkedUpload
