import ChunkedUpload.Proofs.Upload.Resending

/-! The moves with which a part is sent again, one by one: those that lead to the answer of the
caller, and those with which the only worker then sends the part and is shut down. -/
namespace ChunkedUpload

/-- An honest source gives each part of its bytes. -/
theorem Source.Honest.reads_part {source : Source} {bytes : ByteArray} {name : String}
    {part : UInt32} (honest : source.Honest bytes name)
    (inside : part.toNat < partsFor bytes.size) :
    ∃ sought spent, source.seekToPart part = (.ok (), sought) ∧
      sought.readPart = (.part (pieceOf bytes part), spent) := by
  cases sought : source.seekToPart part with
  | mk result after =>
    cases result with
    | error error => exact absurd sought (honest.seekToPart_ne_error part error)
    | ok =>
      have there := seekToPart_ok sought
      have still : after.Honest bytes name := by
        rw [there]
        exact ⟨honest.holds, honest.serving, honest.seeking, honest.name⟩
      have position : after.stream.position = part.toNat * partSize := by rw [there]
      have given := after.readPart_gives
      cases read : after.readPart with
      | mk outcome spent =>
        rw [read] at given
        cases outcome with
        | part payload =>
          refine ⟨after, spent, rfl, ?_⟩
          cases given with
          | part _ _ whole =>
            rw [read, whole still.serving.steady, position, still.holds.slice, pieceOf, extract_min,
              Nat.succ_mul]
        | ended =>
          cases given with
          | ended behind =>
            have most := behind still.serving.steady
            rw [still.holds.size, position] at most
            exact absurd (partsFor_inside inside) (Nat.not_lt.mpr most)
        | failed error => exact absurd given (still.not_gives_failed error)
        | pending => exact absurd given still.not_gives_pending

namespace Dispatch

/-- The first part of a plan on its way. -/
def first (plan : UploadPlan) (source : Source) (pool : Pool) (producer : Producer) : Dispatch :=
  ⟨plan, source, none, plan.startPart, 0, pool, producer⟩

variable {dispatch : Dispatch} {payload : ByteArray} {source after : Source} {plan : UploadPlan}
  {pool : Pool} {request : PartRequest}

theorem read_eq (read : dispatch.source.readPart = (.part payload, after)) :
    dispatch.read = { dispatch with
      source := after
      checksum := dispatch.checksum.map fun sum => sum.update payload
      producer := .queueing (dispatch.plan.request dispatch.nextPart payload) } := by
  rw [Dispatch.read, read]

theorem seek_first (sought : source.seekToPart plan.startPart = (.ok (), after)) :
    (first plan source pool .seeking).seek = first plan after pool .reading := by
  simp only [seek, first, sought]

theorem read_first (read : source.readPart = (.part payload, after)) :
    (first plan source pool .reading).read =
      first plan after pool (.queueing (plan.request plan.startPart payload)) := read_eq read

theorem start_first (resends : plan.mode.isResend = true) :
    Upload.startDispatch source plan = first plan source (Pool.start 1) .seeking := by
  cases mode : plan.mode with
  | resend => simp [Upload.startDispatch, first, UploadMode.computesChecksum,
      UploadPlan.workerCount, UploadMode.workerCount, smallFileWorkers, mode]
  | small | big =>
    rw [mode] at resends
    contradiction

/-- With the only part of a resend in the queue the producer has done its work. -/
theorem enqueue?_first (resends : plan.mode.isResend = true) :
    (first plan source (Pool.start 1) (.queueing request)).enqueue? request =
      some (first plan source ⟨⟨some (.part request), 1, 1⟩, [.idle], 0, 0⟩
        (.stopping 1 .resumeQueued), [.queued request]) := by
  simp [enqueue?, first, Pool.start, Queue.fresh, Queue.isClosed, Pool.offer?, Queue.offer?,
    resends, leave, Pool.workerCount]

end Dispatch

namespace Upload

variable {upload : Upload} {dispatch after : Dispatch} {request : PartRequest} {job : UploadJob}
  {files : FileSystem} {source : Source} {plan : UploadPlan} {stream : Option Stream}
  {bytes : ByteArray} {name : String} {again : ResumePart}

theorem step?_openInput (cancelled : Bool)
    (found : Source.ofInput files job.input job.limit.bytes = (.ok source, stream))
    (planned : UploadPlan.make source.size job.resume job.freshId = .ok plan) :
    (⟨job, cancelled, .opening, none⟩ : Upload).step? (.openInput files) =
      some (⟨job, cancelled, .locating source plan, none⟩, [.askedHome]) := by
  simp only [step?, found, planned]

theorem step?_read (stage : upload.stage = .dispatching dispatch)
    (phase : dispatch.producer = .reading) (awake : upload.cancelled = false) :
    upload.step? .read = some ({ upload with stage := .dispatching dispatch.read }, []) := by
  simp [step?, dispatchStep?, stage, phase, awake]

/-- With the only part of a resend in the queue the caller has its answer. -/
theorem step?_enqueue (stage : upload.stage = .dispatching dispatch)
    (phase : dispatch.producer = .queueing request) (awake : upload.cancelled = false)
    (resends : dispatch.plan.mode.isResend = true)
    (queued : dispatch.enqueue? request = some (after, [.queued request])) :
    upload.step? .enqueue = some ({ upload with
      stage := .dispatching after
      result := some (.returned (.ok none)) }, [.queued request]) := by
  simp [step?, dispatchStep?, stage, phase, awake, queued, resends]

theorem step?_seek (stage : upload.stage = .dispatching dispatch)
    (phase : dispatch.producer = .seeking) :
    upload.step? .seek = some ({ upload with stage := .dispatching dispatch.seek }, []) := by
  simp [step?, dispatchStep?, stage, phase]

/-- What a session answers to the only request, and what that counts. -/
inductive Answers : Reply → PoolSummary → Prop
  | delivered : Answers .delivered ⟨1, 0⟩
  | refused (error : TransportError) : Answers (.refused error) ⟨0, 1⟩

/-- A resend that has its answer, while its only worker goes on. -/
def resending (job : UploadJob) (plan : UploadPlan) (source : Source) (pool : Pool)
    (producer : Producer) : Upload :=
  ⟨job, false, .dispatching (.first plan source pool producer), some (.returned (.ok none))⟩

section Planned

variable {sought spent : Source} {payload : ByteArray}

/-- The moves that lead to the answer. -/
theorem queues_first
    (found : Source.ofInput files job.input job.limit.bytes = (.ok source, stream))
    (planned : UploadPlan.make source.size job.resume job.freshId = .ok plan)
    (resends : plan.mode.isResend = true)
    (seeks : source.seekToPart plan.startPart = (.ok (), sought))
    (reads : sought.readPart = (.part payload, spent))
    (made : plan.request plan.startPart payload = request) (endpoint : Int32) :
    runSteps? step? (begin job false) [.enter, .openInput files, .locate (.ok endpoint),
        .connect (.ok ()), .seek, .read, .enqueue] =
      some (resending job plan spent ⟨⟨some (.part request), 1, 1⟩, [.idle], 0, 0⟩
        (.stopping 1 .resumeQueued), [.askedHome, .askedSession endpoint, .queued request]) := by
  have entering : (begin job false).step? .enter = some (⟨job, false, .opening, none⟩, []) := rfl
  have opening := step?_openInput false found planned
  have locating : (⟨job, false, .locating source plan, none⟩ : Upload).step?
      (.locate (.ok endpoint)) =
        some (⟨job, false, .connecting source plan endpoint, none⟩, [.askedSession endpoint]) := rfl
  have connecting : (⟨job, false, .connecting source plan endpoint, none⟩ : Upload).step?
      (.connect (.ok ())) =
        some (⟨job, false, .dispatching (.first plan source (Pool.start 1) .seeking), none⟩,
          []) := by
    rw [← Dispatch.start_first resends]
    rfl
  have seeking : (⟨job, false, .dispatching (.first plan source (Pool.start 1) .seeking), none⟩ :
      Upload).step? .seek = _ := step?_seek rfl rfl
  have reading : (⟨job, false, .dispatching (.first plan sought (Pool.start 1) .reading), none⟩ :
      Upload).step? .read = _ := step?_read rfl rfl rfl
  have queueing : (⟨job, false, .dispatching (.first plan spent (Pool.start 1)
      (.queueing request)), none⟩ : Upload).step? .enqueue = _ :=
    step?_enqueue rfl rfl rfl resends (Dispatch.enqueue?_first resends)
  rw [Dispatch.seek_first seeks] at seeking
  rw [Dispatch.read_first reads, made] at reading
  simp only [runSteps?, entering, opening, locating, connecting, seeking, reading, queueing,
    Option.bind_some, Option.map_some]
  rfl

/-- The moves with which its worker sends the part and is shut down. -/
theorem ends_first (job : UploadJob) (plan : UploadPlan) (source : Source) (request : PartRequest)
    {reply : Reply} {counts : PoolSummary} (answers : Answers reply counts) :
    runSteps? step? (resending job plan source ⟨⟨some (.part request), 1, 1⟩, [.idle], 0, 0⟩
        (.stopping 1 .resumeQueued)) [.take 0, .finish 0 reply, .stop, .take 0, .stop, .join] =
      some (resending job plan source ⟨⟨none, 1, 0⟩, [.exited], counts.delivered, counts.failed⟩
        (.finished .resumeQueued counts), [.started request, .ended request reply]) := by
  cases answers with
  | delivered => rfl
  | refused => rfl

end Planned

theorem request_ofPart (bytes : ByteArray) (again : ResumePart) :
    (UploadPlan.ofPart bytes again).request again.part (pieceOf bytes again.part) =
      wholeRequest bytes again.fileId again.part.toNat := by
  simp [UploadPlan.request, UploadPlan.ofPart, UploadMode.sendsBigParts, wholeRequest, pieceOf]

end Upload

end ChunkedUpload
