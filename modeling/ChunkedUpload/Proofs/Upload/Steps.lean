import ChunkedUpload.Proofs.Pool.Steps
import ChunkedUpload.Proofs.Run
import ChunkedUpload.Proofs.Source.Reading
import ChunkedUpload.Upload

/-! The steps of an upload whose workers have been started, and what the caller gets at each point.
Every change that a move can make to such an upload is one of those listed here. -/
namespace ChunkedUpload

namespace Event

def queued? : Event → Option PartRequest
  | queued request => some request
  | _ => none

def started? : Event → Option PartRequest
  | started request => some request
  | _ => none

def ended? : Event → Option (PartRequest × Reply)
  | ended request reply => some (request, reply)
  | _ => none

end Event

namespace Dispatch

/-- What the caller has got so far. A resend has its answer as soon as its part is queued. -/
def result? (job : UploadJob) (dispatch : Dispatch) : Option Result :=
  match dispatch.producer with
  | .stopping _ .resumeQueued | .joining .resumeQueued => some (.returned (.ok none))
  | .finished outcome summary =>
    some (.returned (Upload.conclude job dispatch.plan dispatch.source.name summary outcome))
  | .abandoned => some .crashed
  | _ => none

def shown (dispatch : Dispatch) (job : UploadJob) : List Event :=
  (dispatch.report job).seen.toList.map fun seen => .reported seen.1 seen.2

/-- The dispatch after its producer has gone with a callback that crashed. -/
def desert (dispatch : Dispatch) : Dispatch :=
  { dispatch with
    reports := dispatch.reports + 1
    pool := { dispatch.pool with queue := dispatch.pool.queue.dropSender }
    producer := .abandoned }

inductive Step (job : UploadJob) (dispatch : Dispatch) : Move → List Event → Dispatch → Prop
  | sought {source : Source} (phase : dispatch.producer = .seeking)
      (sought : dispatch.source.seekToPart dispatch.plan.startPart = (.ok (), source)) :
      Step job dispatch .seek [] { dispatch with source := source, producer := .reading }
  | unsought {source : Source} {error : UploadError} (phase : dispatch.producer = .seeking)
      (sought : dispatch.source.seekToPart dispatch.plan.startPart = (.error error, source)) :
      Step job dispatch .seek [] ({ dispatch with source := source }.leave (.failed error))
  | filled {source : Source} {payload : ByteArray} (phase : dispatch.producer = .reading)
      (given : dispatch.source.Gives (.part payload) source) :
      Step job dispatch .read [] { dispatch with
        source := source
        checksum := dispatch.checksum.map fun sum => sum.update payload
        producer := .queueing (dispatch.plan.request dispatch.nextPart payload) }
  | ended {source : Source} (phase : dispatch.producer = .reading)
      (given : dispatch.source.Gives .ended source) :
      Step job dispatch .read [] { dispatch with source := source }.endOfInput
  | broken {source : Source} {error : IoError} (phase : dispatch.producer = .reading)
      (given : dispatch.source.Gives (.failed error) source) :
      Step job dispatch .read [] ({ dispatch with source := source }.leave (.failed (.io error)))
  | stalled {source : Source} (phase : dispatch.producer = .reading)
      (given : dispatch.source.Gives .pending source) :
      Step job dispatch .read [] { dispatch with source := source, producer := .stalled }
  | refused {request : PartRequest} (phase : dispatch.producer = .queueing request)
      (closed : dispatch.pool.queue.isClosed = true) :
      Step job dispatch .enqueue [] (dispatch.leave (.failed (.dispatch .queueClosed)))
  | queued {request : PartRequest} {pool : Pool} (phase : dispatch.producer = .queueing request)
      (offered : dispatch.pool.offer? (.part request) = some pool)
      (whole : dispatch.plan.mode.isResend = false) :
      Step job dispatch .enqueue [.queued request] { dispatch with
        pool := pool, nextPart := dispatch.nextPart + 1, producer := .notifying }
  | resent {request : PartRequest} {pool : Pool} (phase : dispatch.producer = .queueing request)
      (offered : dispatch.pool.offer? (.part request) = some pool)
      (resend : dispatch.plan.mode.isResend = true) :
      Step job dispatch .enqueue [.queued request]
        ({ dispatch with pool := pool }.leave .resumeQueued)
  | notified (phase : dispatch.producer = .notifying)
      (survived : (dispatch.report job).effect ≠ .crashes) :
      Step job dispatch .notify (dispatch.shown job)
        { dispatch with reports := dispatch.reports + 1, producer := .reading }
  | deserted (phase : dispatch.producer = .notifying)
      (crashed : (dispatch.report job).effect = .crashes) :
      Step job dispatch .notify (dispatch.shown job) dispatch.desert
  | aborted (waiting : dispatch.isCancellable = true) :
      Step job dispatch .abort [] (dispatch.leave .cancelled)
  | stopped {outcome : DispatchOutcome} (phase : dispatch.producer = .stopping 0 outcome) :
      Step job dispatch .stop [] { dispatch with producer := .joining outcome }
  | unneeded {left : Nat} {outcome : DispatchOutcome}
      (phase : dispatch.producer = .stopping (left + 1) outcome)
      (closed : dispatch.pool.queue.isClosed = true) :
      Step job dispatch .stop [] { dispatch with producer := .joining outcome }
  | told {left : Nat} {outcome : DispatchOutcome} {pool : Pool}
      (phase : dispatch.producer = .stopping (left + 1) outcome)
      (offered : dispatch.pool.offer? .shutdown = some pool) :
      Step job dispatch .stop [] { dispatch with pool := pool, producer := .stopping left outcome }
  | joined {outcome : DispatchOutcome} (phase : dispatch.producer = .joining outcome)
      (gone : dispatch.pool.isStopped = true) :
      Step job dispatch .join []
        { dispatch with producer := .finished outcome dispatch.pool.summary }
  | took {worker : Nat} {pool : Pool} {begun : Option PartRequest}
      (took : dispatch.pool.take? worker = some (pool, begun)) :
      Step job dispatch (.take worker) (begun.toList.map .started) { dispatch with pool := pool }
  | finished {worker : Nat} {reply : Reply} {pool : Pool} {request : PartRequest}
      (finished : dispatch.pool.finish? worker reply = some (pool, request)) :
      Step job dispatch (.finish worker reply) [.ended request reply] { dispatch with pool := pool }

theorem step_of_seek (job : UploadJob) {dispatch : Dispatch}
    (phase : dispatch.producer = .seeking) : Step job dispatch .seek [] dispatch.seek := by
  unfold seek
  split
  · rename_i source sought
    exact .sought phase sought
  · rename_i error source sought
    exact .unsought phase sought

theorem step_of_read (job : UploadJob) {dispatch : Dispatch}
    (phase : dispatch.producer = .reading) : Step job dispatch .read [] dispatch.read := by
  have given := dispatch.source.readPart_gives
  unfold read
  split <;> rename_i found <;> rw [found] at given
  · exact .filled phase given
  · exact .ended phase given
  · exact .broken phase given
  · exact .stalled phase given

theorem step_of_enqueue (job : UploadJob) {dispatch after : Dispatch} {request : PartRequest}
    {events : List Event} (phase : dispatch.producer = .queueing request)
    (queued : dispatch.enqueue? request = some (after, events)) :
    Step job dispatch .enqueue events after ∧ after.result? job =
      if (events ≠ [] && dispatch.plan.mode.isResend) = true then some (.returned (.ok none))
      else dispatch.result? job := by
  unfold enqueue? at queued
  split at queued
  · rename_i closed
    cases queued
    exact ⟨.refused phase closed, by simp [result?, phase, leave]⟩
  · obtain ⟨pool, offered, eq⟩ := Option.map_eq_some_iff.mp queued
    cases eq
    cases resend : dispatch.plan.mode.isResend with
    | true => exact ⟨.resent phase offered resend, by simp [result?, leave]⟩
    | false => exact ⟨.queued phase offered resend, by simp [result?, phase]⟩

theorem step_of_stop (job : UploadJob) {dispatch after : Dispatch}
    (stopped : dispatch.stop? = some after) : Step job dispatch .stop [] after := by
  unfold stop? at stopped
  split at stopped
  · rename_i outcome phase
    cases stopped
    exact .stopped phase
  · rename_i left outcome phase
    split at stopped
    · rename_i closed
      cases stopped
      exact .unneeded phase closed
    · obtain ⟨pool, offered, rfl⟩ := Option.map_eq_some_iff.mp stopped
      exact .told phase offered
  · contradiction

theorem step_of_join (job : UploadJob) {dispatch after : Dispatch} {outcome : DispatchOutcome}
    {summary : PoolSummary} (joined : dispatch.join? = some (after, outcome, summary)) :
    Step job dispatch .join [] after ∧ after.result? job = (dispatch.result? job).or (some
      (.returned (Upload.conclude job dispatch.plan dispatch.source.name summary outcome))) := by
  unfold join? at joined
  split at joined
  · rename_i outcome phase
    split at joined
    · rename_i gone
      cases joined
      refine ⟨.joined phase gone, ?_⟩
      cases outcome <;> simp [result?, phase, Upload.conclude]
    · contradiction
  · contradiction

theorem phase_of_cancellable {dispatch : Dispatch} (waiting : dispatch.isCancellable = true) :
    dispatch.producer = .reading ∨ dispatch.producer = .stalled ∨
    (∃ request, dispatch.producer = .queueing request) ∨ dispatch.producer = .notifying := by
  unfold isCancellable at waiting
  split at waiting
  · rename_i phase
    exact .inl phase
  · rename_i phase
    exact .inr (.inl phase)
  · rename_i request phase
    exact .inr (.inr (.inl ⟨request, phase⟩))
  · rename_i phase
    exact .inr (.inr (.inr phase))
  · contradiction

/-- Only the end of the workers, the part of a resend and a callback give the caller something. -/
theorem result?_of_step {job : UploadJob} {dispatch after : Dispatch} {move : Move}
    {events : List Event} (step : Step job dispatch move events after)
    (inner : move ≠ .enqueue ∧ move ≠ .notify ∧ move ≠ .join) :
    after.result? job = dispatch.result? job := by
  cases step with
  | sought phase | unsought phase | filled phase | broken phase | stalled phase =>
    simp [result?, phase, leave]
  | ended phase =>
    unfold endOfInput
    split <;> simp [result?, phase, leave]
  | aborted waiting =>
    rcases phase_of_cancellable waiting with phase | phase | ⟨_, phase⟩ | phase <;>
      simp [result?, phase, leave]
  | @stopped outcome phase | @unneeded _ outcome phase | @told _ outcome _ phase =>
    cases outcome <;> simp [result?, phase]
  | took | finished => rfl
  | refused | queued | resent | notified | deserted | joined => simp at inner

end Dispatch

end ChunkedUpload
