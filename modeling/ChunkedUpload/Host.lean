import ChunkedUpload.Session.Provider
import ChunkedUpload.Store
import ChunkedUpload.Uploaders

/-! A host runs uploads to a standstill. Of the moves that are possible it always makes the first in
a fixed order: answers of the session, then idle workers, then the provider, then producers in the
order of their calls, then those who wait for resends. What it does is thus one of the runs that
the uploads allow. -/
namespace ChunkedUpload

inductive Session
  | script (script : SessionScript)
  | store (store : Store)

structure Host where
  all : Uploaders
  files : FileSystem
  session : Session
  provider : Provider
  /-- Calls and workers that wait for an answer of the session, in the order of their requests. -/
  inFlight : List (Nat × Nat)
  /-- What happened, with the number of the call, since this was last looked at. -/
  events : List (Nat × Event)
  /-- The identifiers of the parts that were delivered, with one entry for each part. -/
  delivered : List Int64

namespace Host

/-- The answer of the session to a request, unless it is held back. -/
def reply? (host : Host) (request : PartRequest) : Option (Reply × Host) :=
  match host.session with
  | .script script =>
    (script.answer? request.part).map fun (reply, script) =>
      (reply, { host with session := .script script })
  | .store store =>
    match store.deliver request host.files with
    | (.ok (), files) => some (.delivered, { host with files := files })
    | (.error error, files) => some (.refused (.io error), { host with files := files })

/-- Takes note of what a step of a call leads to outside. -/
def heed (host : Host) (id : Nat) : Event → Host
  | .askedHome => { host with provider := host.provider.askHome.2 }
  | .askedSession endpoint => { host with provider := host.provider.request id endpoint }
  | .ended request .delivered =>
    { host with
      events := host.events ++ [(id, .ended request .delivered)]
      delivered := host.delivered ++ [request.fileId] }
  | event => { host with events := host.events ++ [(id, event)] }

def act? (host : Host) (id : Nat) (act : UploaderAct) : Option Host :=
  (host.all.step? act).map fun (all, events) =>
    events.foldl (fun host event => host.heed id event) { host with all := all }

def move? (host : Host) (id : Nat) (move : Move) : Option Host := host.act? id (.move id move)

/-- The request that a worker of a call is sending. -/
def sending? (host : Host) (id worker : Nat) : Option PartRequest :=
  (host.all.call? id).bind fun call =>
    match call.upload.stage with
    | .dispatching dispatch =>
      match dispatch.pool.workers[worker]? with
      | some (.busy request) => some request
      | _ => none
    | _ => none

def finish? (host : Host) (id worker : Nat) : Option Host := do
  let request ← host.sending? id worker
  let (reply, host) ← host.reply? request
  let host ← host.move? id (.finish worker reply)
  return { host with inFlight := host.inFlight.erase (id, worker) }

def take? (host : Host) (id worker : Nat) : Option Host := do
  let next ← host.move? id (.take worker)
  return if (next.sending? id worker).isSome then
    { next with inFlight := next.inFlight ++ [(id, worker)] } else next

def workerCount (call : SaveCall) : Nat :=
  match call.upload.stage with
  | .dispatching dispatch => dispatch.pool.workerCount
  | _ => 0

/-- The only move that the task of a call can make next, if it can make any. -/
def nextMove? (host : Host) (id : Nat) (call : SaveCall) : Option Move :=
  let upload := call.upload
  match upload.stage with
  | .waiting => some (if upload.cancelled then .withdraw else .enter)
  | .opening => some (.openInput host.files)
  | .locating _ _ => some (.locate host.provider.script.home)
  | .connecting _ _ _ =>
    (host.provider.answer? id).map fun answer => .connect (answer.map fun _ => ())
  | .over _ => none
  | .dispatching dispatch =>
    if upload.cancelled && dispatch.isCancellable then some .abort
    else
      match dispatch.producer with
      | .seeking => some .seek
      | .reading => some .read
      | .queueing _ => some .enqueue
      | .notifying => some .notify
      | .stopping _ _ => some .stop
      | .joining _ => some .join
      | .stalled | .finished _ _ | .abandoned => none

def produce? (host : Host) (id : Nat) (call : SaveCall) : Option Host :=
  (host.nextMove? id call).bind (host.move? id)

def advance? (host : Host) : Option Host :=
  (host.inFlight.findSome? fun entry => host.finish? entry.1 entry.2)
  <|> (host.all.calls.findSome? fun entry =>
    (List.range (workerCount entry.2)).findSome? (host.take? entry.1))
  <|> (host.provider.advance?.map fun provider => { host with provider := provider })
  <|> (host.all.calls.findSome? fun entry => host.produce? entry.1 entry.2)
  <|> (host.all.waits.findSome? fun entry => host.act? entry.1 (.settle entry.1))

def settleWithin : Nat → Host → Host
  | 0, host => host
  | fuel + 1, host =>
    match host.advance? with
    | none => host
    | some next => settleWithin fuel next

/-- More moves than a call can make whose input has so many bytes: a few for each part, and some to
begin and to end. -/
def callMoves (bytes : Nat) : Nat := 10 * (bytes / partSize + 20)

/-- More moves than can be made until nothing moves any more. -/
def moveBound (host : Host) : Nat :=
  let stored := ByteArray.empty :: host.files.contents.map Prod.snd
  let calls := host.all.calls.map fun entry =>
    match entry.2.upload.job.input with
    | .stream stream _ => callMoves stream.content.size
    | .path _ handle =>
      callMoves (stored.foldl (fun total bytes => total + (handle bytes).content.size) 0)
  calls.foldl (· + ·) 0 + host.all.waits.length + 1

def settle (host : Host) : Host := host.settleWithin host.moveBound

/-- Begins a call and lets everything move. -/
def save (host : Host) (id uploader : Nat) (job : UploadJob) (cancelled : Bool) : Host :=
  ((host.act? id (.save id uploader job cancelled)).getD host).settle

def cancel (host : Host) (id : Nat) : Host := ((host.move? id .cancel).getD host).settle

def await (host : Host) (id uploader : Nat) : Host :=
  ((host.act? id (.await id uploader)).getD host).settle

/-- Starts a new record of what happens. -/
def clearEvents (host : Host) : Host :=
  { host with events := [], provider := { host.provider with asked := [], homeCalls := 0 } }

end Host

end ChunkedUpload
