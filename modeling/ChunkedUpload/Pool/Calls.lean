import ChunkedUpload.Pool

/-! Calls that wait at a pool: items to be queued, and the order to stop. They are served in the
order of their arrival, and which of the possible moves comes next is left open. -/
namespace ChunkedUpload

inductive PoolCall
  | put (item : Item)
  /-- Stops the pool, with so many shutdown items still to send. -/
  | stop (left : Nat)
deriving DecidableEq

inductive PoolReply
  | queued
  /-- Every worker is gone, and the caller has the item back. -/
  | refused (item : Item)
  | stopped (summary : PoolSummary)
deriving DecidableEq

/-- A pool with the calls that wait at it, in the order of their arrival. A call is known by its
number. -/
structure PoolCalls where
  pool : Pool
  waiting : List (Nat × PoolCall)

inductive PoolMove
  | take (worker : Nat)
  | finish (worker : Nat) (reply : Reply)
  | proceed
deriving DecidableEq, Repr

inductive PoolEvent
  | started (request : PartRequest)
  | ended (request : PartRequest) (reply : Reply)
  | replied (id : Nat) (reply : PoolReply)
deriving DecidableEq

namespace PoolCalls

def start (workerCount : Nat) : PoolCalls := ⟨Pool.start workerCount, []⟩

def join (calls : PoolCalls) (id : Nat) (call : PoolCall) : PoolCalls :=
  { calls with waiting := calls.waiting ++ [(id, call)] }

def enqueue (calls : PoolCalls) (id : Nat) (item : Item) : PoolCalls := calls.join id (.put item)

/-- One shutdown item is sent for each worker. -/
def shutdown (calls : PoolCalls) (id : Nat) : PoolCalls :=
  calls.join id (.stop calls.pool.workerCount)

/-- The first waiting call proceeds. Nobody is waited for to take a shutdown item once all workers
are gone. -/
def proceed? (calls : PoolCalls) : Option (PoolCalls × List PoolEvent) :=
  match calls.waiting with
  | [] => none
  | (id, .put item) :: rest =>
    if calls.pool.queue.isClosed then
      some ({ calls with waiting := rest }, [.replied id (.refused item)])
    else
      (calls.pool.offer? item).map fun pool => (⟨pool, rest⟩, [.replied id .queued])
  | (id, .stop left) :: rest =>
    if calls.pool.isStopped then
      some ({ calls with waiting := rest }, [.replied id (.stopped calls.pool.summary)])
    else
      match left with
      | 0 => none
      | left + 1 =>
        (calls.pool.offer? .shutdown).map fun pool => (⟨pool, (id, .stop left) :: rest⟩, [])

def step? (calls : PoolCalls) : PoolMove → Option (PoolCalls × List PoolEvent)
  | .take worker =>
    (calls.pool.take? worker).map fun (pool, request) =>
      ({ calls with pool := pool }, request.toList.map .started)
  | .finish worker reply =>
    (calls.pool.finish? worker reply).map fun (pool, request) =>
      ({ calls with pool := pool }, [.ended request reply])
  | .proceed => calls.proceed?

end PoolCalls

end ChunkedUpload
