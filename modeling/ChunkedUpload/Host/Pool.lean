import ChunkedUpload.Pool.Calls
import ChunkedUpload.Session.Script

/-! A single pool run to a standstill with a scripted session: answers first, then idle workers,
then the calls that wait. -/
namespace ChunkedUpload

structure PoolHost where
  calls : PoolCalls
  session : SessionScript
  /-- Workers that wait for an answer, in the order of their requests. -/
  inFlight : List Nat
  /-- What happened since this was last looked at. -/
  events : List PoolEvent

namespace PoolHost

def start (workerCount : Nat) (session : SessionScript) : PoolHost :=
  ⟨PoolCalls.start workerCount, session, [], []⟩

def move? (host : PoolHost) (move : PoolMove) : Option PoolHost :=
  (host.calls.step? move).map fun (calls, events) =>
    { host with calls := calls, events := host.events ++ events }

def sending? (host : PoolHost) (worker : Nat) : Option PartRequest :=
  match host.calls.pool.workers[worker]? with
  | some (.busy request) => some request
  | _ => none

def finish? (host : PoolHost) (worker : Nat) : Option PoolHost := do
  let request ← host.sending? worker
  let (reply, session) ← host.session.answer? request.part
  let next ← host.move? (.finish worker reply)
  return { next with session := session, inFlight := next.inFlight.erase worker }

def take? (host : PoolHost) (worker : Nat) : Option PoolHost := do
  let next ← host.move? (.take worker)
  return if (next.sending? worker).isSome then { next with inFlight := next.inFlight ++ [worker] }
    else next

def advance? (host : PoolHost) : Option PoolHost :=
  host.inFlight.findSome? host.finish?
  <|> (List.range host.calls.pool.workerCount).findSome? host.take?
  <|> host.move? .proceed

def settleWithin : Nat → PoolHost → PoolHost
  | 0, host => host
  | fuel + 1, host =>
    match host.advance? with
    | none => host
    | some next => settleWithin fuel next

/-- Makes moves until none is possible. Every item that waits is queued, taken and answered, and the
order to stop sends one item more for each worker. -/
def settle (host : PoolHost) : PoolHost :=
  let workers := host.calls.pool.workerCount
  host.settleWithin (4 * (host.calls.waiting.length * (workers + 1) + workers + 1))

end PoolHost

end ChunkedUpload
