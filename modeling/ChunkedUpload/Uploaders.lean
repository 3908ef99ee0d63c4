import ChunkedUpload.Admission
import ChunkedUpload.Upload

/-! All uploads of a process. Uploaders share limiters; every call holds a slot from its admission
to its result. A resend goes on in the background after its call has returned, and whoever waits for
resends takes over all that nobody has taken over before. -/
namespace ChunkedUpload

structure Uploader where
  limiter : Nat
  /-- The calls whose resends nobody waits for yet. -/
  resends : List Nat
deriving DecidableEq, Repr

structure SaveCall where
  uploader : Nat
  upload : Upload

structure ResendWait where
  uploader : Nat
  /-- The calls whose resends it waits for. -/
  drains : List Nat
  result : Option PoolSummary
deriving DecidableEq, Repr

/-- Calls of either kind are known by numbers. -/
structure Uploaders where
  limiters : List Admission
  uploaders : List Uploader
  calls : List (Nat × SaveCall)
  waits : List (Nat × ResendWait)

inductive UploaderAct
  /-- A new call. It may have been cancelled beforehand. -/
  | save (id uploader : Nat) (job : UploadJob) (cancelled : Bool)
  | move (id : Nat) (move : Move)
  | await (id uploader : Nat)
  /-- All resends that the call waits for have ended. -/
  | settle (id : Nat)

namespace Uploaders

def call? (all : Uploaders) (id : Nat) : Option SaveCall := all.calls.lookup id

def wait? (all : Uploaders) (id : Nat) : Option ResendWait := all.waits.lookup id

def setCall (all : Uploaders) (id : Nat) (call : SaveCall) : Uploaders :=
  { all with calls := all.calls.map fun entry => if entry.1 = id then (id, call) else entry }

def setWait (all : Uploaders) (id : Nat) (wait : ResendWait) : Uploaders :=
  { all with waits := all.waits.map fun entry => if entry.1 = id then (id, wait) else entry }

def updateLimiter (all : Uploaders) (uploader : Nat) (f : Admission → Admission) : Uploaders :=
  match all.uploaders[uploader]? with
  | some u => { all with limiters := all.limiters.modify u.limiter f }
  | none => all

def limiter? (all : Uploaders) (uploader : Nat) : Option Admission :=
  all.uploaders[uploader]?.bind fun u => all.limiters[u.limiter]?

def updateUploader (all : Uploaders) (uploader : Nat) (f : Uploader → Uploader) : Uploaders :=
  { all with uploaders := all.uploaders.modify uploader f }

/-- The slots of an uploader that nobody holds. -/
def available (all : Uploaders) (uploader : Nat) : Nat :=
  ((all.limiter? uploader).map Admission.available).getD 0

/-- Whether a call has queued the part that it was to send again. -/
def queuedResend (upload : Upload) : Bool :=
  match upload.stage with
  | .dispatching dispatch =>
    match dispatch.producer with
    | .stopping _ .resumeQueued | .joining .resumeQueued | .finished .resumeQueued _ => true
    | _ => false
  | _ => false

/-- What follows when a call gets its result: its slot is free again, and a resend goes on in the
background. -/
def settleResult (all : Uploaders) (id : Nat) (call : SaveCall) : Uploaders :=
  let freed := all.updateLimiter call.uploader fun limiter => limiter.leave id
  if queuedResend call.upload then
    freed.updateUploader call.uploader fun u => { u with resends := u.resends ++ [id] }
  else freed

def summary? (all : Uploaders) (id : Nat) : Option PoolSummary :=
  (all.call? id).bind fun call =>
    match call.upload.stage with
    | .dispatching dispatch =>
      match dispatch.producer with
      | .finished _ summary => some summary
      | _ => none
    | _ => none

/-- The sum of the counts of some pools, once all of them have ended. -/
def totals? (all : Uploaders) : List Nat → Option PoolSummary
  | [] => some ⟨0, 0⟩
  | id :: rest => do
    let first ← all.summary? id
    let others ← all.totals? rest
    return first.add others

def step? (all : Uploaders) : UploaderAct → Option (Uploaders × List Event)
  | .save id uploader job cancelled =>
    let joined : Uploaders :=
      { all with calls := all.calls ++ [(id, ⟨uploader, Upload.begin job cancelled⟩)] }
    some (if cancelled then joined
      else joined.updateLimiter uploader fun limiter => limiter.request id, [])
  | .move id move => do
    let call ← all.call? id
    let limiter ← all.limiter? call.uploader
    match move with
    | .enter => if !limiter.holds id then failure
    | _ => pure ()
    let (upload, events) ← call.upload.step? move
    let moved : SaveCall := { call with upload := upload }
    let next := all.setCall id moved
    return (if call.upload.result.isNone && upload.result.isSome then next.settleResult id moved
      else next, events)
  | .await id uploader => do
    let u ← all.uploaders[uploader]?
    let cleared := all.updateUploader uploader fun u => { u with resends := [] }
    return ({ cleared with waits := cleared.waits ++ [(id, ⟨uploader, u.resends, none⟩)] }, [])
  | .settle id => do
    let wait ← all.wait? id
    if wait.result.isSome then failure
    let total ← all.totals? wait.drains
    return (all.setWait id { wait with result := some total }, [])

end Uploaders

end ChunkedUpload
