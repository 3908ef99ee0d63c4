import ChunkedUpload.Checksum
import ChunkedUpload.Plan
import ChunkedUpload.Pool
import ChunkedUpload.Progress
import ChunkedUpload.Source

/-! One upload from its admission to its result. The caller's task reads parts and queues them, the
workers of the pool send them, and the two meet only in the queue. A move is one step of one of
them; which of the possible moves comes next is left open. A cancelled upload ends the wait it is in
before anything else. -/
namespace ChunkedUpload

structure UploadJob where
  input : Input
  limit : SizeLimit
  resume : Option ResumePart
  callback : Option Callback
  /-- The identifier that a new file gets. -/
  freshId : Int64
  /-- Whether lost parts and broken reads are an error of the call, rather than no result. -/
  failOnPartError : Bool

inductive DispatchOutcome
  /-- The source has ended and every part is queued. -/
  | exhausted (checksum : Option String)
  | resumeQueued
  | cancelled
  | failed (error : UploadError)
deriving DecidableEq, Repr

inductive Producer
  | seeking
  | reading
  /-- Waits for a stream that does not answer. -/
  | stalled
  | queueing (request : PartRequest)
  | notifying
  /-- Has so many shutdown items still to send. -/
  | stopping (left : Nat) (outcome : DispatchOutcome)
  | joining (outcome : DispatchOutcome)
  | finished (outcome : DispatchOutcome) (summary : PoolSummary)
  /-- Gone with a callback that crashed. -/
  | abandoned
deriving DecidableEq

structure Dispatch where
  plan : UploadPlan
  source : Source
  checksum : Option Checksum
  nextPart : UInt32
  /-- How many reports have been made. -/
  reports : Nat
  pool : Pool
  producer : Producer

inductive Stage
  | waiting
  /-- Has a slot and opens its source. -/
  | opening
  | locating (source : Source) (plan : UploadPlan)
  | connecting (source : Source) (plan : UploadPlan) (endpoint : Int32)
  | dispatching (dispatch : Dispatch)
  /-- Ended before any worker was started; the caller's stream is left as it is here. -/
  | over (stream : Option Stream)

inductive Result
  | returned (value : Except UploadError (Option FileReference))
  | crashed

structure Upload where
  job : UploadJob
  cancelled : Bool
  stage : Stage
  result : Option Result

inductive Event
  | askedHome
  | askedSession (endpoint : Int32)
  | queued (request : PartRequest)
  | started (request : PartRequest)
  | ended (request : PartRequest) (reply : Reply)
  | reported (current total : UInt64)

inductive Move
  | enter
  /-- Is cancelled while it waits for a slot. -/
  | withdraw
  | openInput (files : FileSystem)
  | locate (answer : Except TransportError Int32)
  | connect (answer : Except TransportError Unit)
  | seek
  | read
  | enqueue
  | notify
  /-- The cancelled producer ends its wait. -/
  | abort
  /-- Sends a shutdown item, or finds that none is needed any more. -/
  | stop
  | join
  | take (worker : Nat)
  | finish (worker : Nat) (reply : Reply)
  | cancel

namespace Upload

/-- A new upload; it may have been cancelled before it begins. -/
def begin (job : UploadJob) (cancelled : Bool) : Upload := ⟨job, cancelled, .waiting, none⟩

/-- The caller's stream, if the input is one, as it is now. -/
def stream? (upload : Upload) : Option Stream :=
  match upload.job.input with
  | .path _ _ => none
  | .stream stream _ =>
    match upload.stage with
    | .waiting | .opening => some stream
    | .locating source _ | .connecting source _ _ => some source.stream
    | .dispatching dispatch => some dispatch.source.stream
    | .over stream => stream

/-- The identifier under which parts are sent. -/
def fileId? (upload : Upload) : Option Int64 :=
  match upload.stage with
  | .dispatching dispatch => some dispatch.plan.fileId
  | _ => none

/-- The upload has ended without a single request. -/
def endEarly (upload : Upload) (error : UploadError) (stream : Option Stream) : Upload :=
  { upload with stage := .over stream, result := some (.returned (.error error)) }

/-- An error that arose while parts were sent: the caller hears of it only on demand. -/
def degrade (job : UploadJob) (error : UploadError) : Except UploadError (Option FileReference) :=
  if job.failOnPartError then .error error else .ok none

def conclude (job : UploadJob) (plan : UploadPlan) (name : String) (summary : PoolSummary) :
    DispatchOutcome → Except UploadError (Option FileReference)
  | .exhausted checksum =>
    if 0 < summary.failed then degrade job (.partsFailed summary.failed)
    else .ok (plan.reference name checksum)
  | .cancelled => .error .cancelled
  | .failed error => degrade job error
  | .resumeQueued => .ok none

def startDispatch (source : Source) (plan : UploadPlan) : Dispatch where
  plan := plan
  source := source
  checksum := if plan.mode.computesChecksum then some Checksum.empty else none
  nextPart := plan.startPart
  reports := 0
  pool := Pool.start plan.workerCount
  producer := .seeking

end Upload

namespace Dispatch

/-- Ends the loop: from now on the producer stops its workers. -/
def leave (dispatch : Dispatch) (outcome : DispatchOutcome) : Dispatch :=
  { dispatch with producer := .stopping dispatch.pool.workerCount outcome }

def seek (dispatch : Dispatch) : Dispatch :=
  match dispatch.source.seekToPart dispatch.plan.startPart with
  | (.ok (), source) => { dispatch with source := source, producer := .reading }
  | (.error error, source) => { dispatch with source := source }.leave (.failed error)

/-- A resend that finds nothing at its part has failed. -/
def endOfInput (dispatch : Dispatch) : Dispatch :=
  if dispatch.plan.mode.isResend then
    dispatch.leave (.failed (.invalidInput (.nothingAtPart dispatch.plan.startPart)))
  else dispatch.leave (.exhausted (dispatch.checksum.map Checksum.hex))

def read (dispatch : Dispatch) : Dispatch :=
  match dispatch.source.readPart with
  | (.part payload, source) =>
    { dispatch with
      source := source
      checksum := dispatch.checksum.map fun sum => sum.update payload
      producer := .queueing (dispatch.plan.request dispatch.nextPart payload) }
  | (.ended, source) => { dispatch with source := source }.endOfInput
  | (.failed error, source) => { dispatch with source := source }.leave (.failed (.io error))
  | (.pending, source) => { dispatch with source := source, producer := .stalled }

/-- Queues a part. A resend is done with that. -/
def enqueue? (dispatch : Dispatch) (request : PartRequest) : Option (Dispatch × List Event) :=
  if dispatch.pool.queue.isClosed then some (dispatch.leave (.failed (.dispatch .queueClosed)), [])
  else
    (dispatch.pool.offer? (.part request)).map fun pool =>
      let queued := { dispatch with pool := pool }
      (if dispatch.plan.mode.isResend then queued.leave .resumeQueued
        else { queued with nextPart := dispatch.nextPart + 1, producer := .notifying },
        [.queued request])

def progress (dispatch : Dispatch) : Progress :=
  Progress.afterParts dispatch.nextPart (UInt64.ofNat partSize) dispatch.plan.fileSize

def notifier (dispatch : Dispatch) (job : UploadJob) : Notifier :=
  ⟨job.callback, dispatch.plan.fileSize⟩

def report (dispatch : Dispatch) (job : UploadJob) : Notifier.Report :=
  (dispatch.notifier job).notify dispatch.reports dispatch.progress.bytes

/-- Sends one shutdown item for each worker, as long as a worker is left. -/
def stop? (dispatch : Dispatch) : Option Dispatch :=
  match dispatch.producer with
  | .stopping 0 outcome => some { dispatch with producer := .joining outcome }
  | .stopping (left + 1) outcome =>
    if dispatch.pool.queue.isClosed then some { dispatch with producer := .joining outcome }
    else
      (dispatch.pool.offer? .shutdown).map fun pool =>
        { dispatch with pool := pool, producer := .stopping left outcome }
  | _ => none

/-- Once every worker has ended the counts are final. -/
def join? (dispatch : Dispatch) : Option (Dispatch × DispatchOutcome × PoolSummary) :=
  match dispatch.producer with
  | .joining outcome =>
    if dispatch.pool.isStopped then
      let summary := dispatch.pool.summary
      some ({ dispatch with producer := .finished outcome summary }, outcome, summary)
    else none
  | _ => none

/-- Whether the producer is in a wait that cancellation ends. -/
def isCancellable (dispatch : Dispatch) : Bool :=
  match dispatch.producer with
  | .reading | .stalled | .queueing _ | .notifying => true
  | _ => false

end Dispatch

namespace Upload

def dispatchStep? (upload : Upload) (dispatch : Dispatch) (move : Move) :
    Option (Upload × List Event) :=
  let keep (after : Dispatch) : Upload := { upload with stage := .dispatching after }
  match move, dispatch.producer with
  | .seek, .seeking => some (keep dispatch.seek, [])
  | .read, .reading => if upload.cancelled then none else some (keep dispatch.read, [])
  | .enqueue, .queueing request =>
    if upload.cancelled then none
    else
      (dispatch.enqueue? request).map fun (after, events) =>
        let resumed := events ≠ [] && dispatch.plan.mode.isResend
        ({ keep after with
          result := if resumed then some (.returned (.ok none)) else upload.result }, events)
  | .notify, .notifying =>
    if upload.cancelled then none
    else
      let report := dispatch.report upload.job
      let events := report.seen.toList.map fun seen => .reported seen.1 seen.2
      let told := { dispatch with reports := dispatch.reports + 1 }
      match report.effect with
      | .returns => some (keep { told with producer := .reading }, events)
      | .cancels =>
        some ({ keep { told with producer := .reading } with cancelled := true }, events)
      | .crashes =>
        let pool := { told.pool with queue := told.pool.queue.dropSender }
        some ({ keep { told with pool := pool, producer := .abandoned } with
          result := some .crashed }, events)
  | .abort, _ =>
    if upload.cancelled && dispatch.isCancellable then some (keep (dispatch.leave .cancelled), [])
    else none
  | .stop, _ => dispatch.stop?.map fun after => (keep after, [])
  | .join, _ =>
    dispatch.join?.map fun (after, outcome, summary) =>
      let value := conclude upload.job dispatch.plan dispatch.source.name summary outcome
      ({ keep after with
        result := upload.result.or (some (.returned value)) }, [])
  | .take worker, _ =>
    (dispatch.pool.take? worker).map fun (pool, request) =>
      (keep { dispatch with pool := pool }, request.toList.map .started)
  | .finish worker reply, _ =>
    (dispatch.pool.finish? worker reply).map fun (pool, request) =>
      (keep { dispatch with pool := pool }, [.ended request reply])
  | _, _ => none

/-- One step of an upload, and what others see of it, if the step is possible. -/
def step? (upload : Upload) (move : Move) : Option (Upload × List Event) :=
  match upload.stage, move with
  | _, .cancel => some ({ upload with cancelled := true }, [])
  | .waiting, .enter =>
    if upload.cancelled then none else some ({ upload with stage := .opening }, [])
  | .waiting, .withdraw =>
    if upload.cancelled then some (upload.endEarly .cancelled upload.stream?, []) else none
  | .opening, .openInput files =>
    match Source.ofInput files upload.job.input upload.job.limit.bytes with
    | (.error error, stream) => some (upload.endEarly error stream, [])
    | (.ok source, stream) =>
      match UploadPlan.make source.size upload.job.resume upload.job.freshId with
      | .error error => some (upload.endEarly error stream, [])
      | .ok plan => some ({ upload with stage := .locating source plan }, [.askedHome])
  | .locating source plan, .locate answer =>
    match answer with
    | .error error => some (upload.endEarly (.transport error) upload.stream?, [])
    | .ok endpoint =>
      some ({ upload with stage := .connecting source plan endpoint }, [.askedSession endpoint])
  | .connecting source plan _, .connect answer =>
    match answer with
    | .error error => some (upload.endEarly (.transport error) upload.stream?, [])
    | .ok () => some ({ upload with stage := .dispatching (startDispatch source plan) }, [])
  | .dispatching dispatch, move => upload.dispatchStep? dispatch move
  | _, _ => none

def run? (upload : Upload) : List Move → Option (Upload × List Event)
  | [] => some (upload, [])
  | move :: rest =>
    (upload.step? move).bind fun (next, events) =>
      (next.run? rest).map fun (last, later) => (last, events ++ later)

end Upload

end ChunkedUpload
