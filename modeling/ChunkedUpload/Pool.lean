import ChunkedUpload.Error
import ChunkedUpload.Queue
import ChunkedUpload.Request

/-! The worker pool of one upload. Workers take items from the queue, one at a time, and send each
part through the session. A part that fails is counted and stops nobody; a call that crashes takes
its worker with it. One shutdown item stops one worker. Which worker moves next is left open: every
function here is one possible step. -/
namespace ChunkedUpload

inductive Item
  | part (request : PartRequest)
  | shutdown
deriving DecidableEq

inductive Worker
  | idle
  | busy (request : PartRequest)
  | exited
  | crashed
deriving DecidableEq

def Worker.isGone : Worker → Bool
  | exited | crashed => true
  | idle | busy _ => false

inductive Reply
  | delivered
  | refused (error : TransportError)
  | crashed
deriving DecidableEq, Repr

structure PoolSummary where
  delivered : Nat
  failed : Nat
deriving DecidableEq, Repr

def PoolSummary.add (a b : PoolSummary) : PoolSummary :=
  ⟨a.delivered + b.delivered, a.failed + b.failed⟩

structure Pool where
  queue : Queue Item
  workers : List Worker
  delivered : Nat
  failed : Nat

namespace Pool

/-- A pool of so many workers, and of one at least. -/
def start (workerCount : Nat) : Pool :=
  let count := max workerCount 1
  ⟨Queue.fresh count, List.replicate count .idle, 0, 0⟩

def workerCount (pool : Pool) : Nat := pool.workers.length

def inFlight (pool : Pool) : Nat :=
  pool.workers.countP fun worker => match worker with
    | .busy _ => true
    | _ => false

/-- Every worker has ended, in one way or the other. -/
def isStopped (pool : Pool) : Bool := pool.workers.all Worker.isGone

/-- What the pool has to report once it has stopped: the part of a crashed worker has failed. -/
def summary (pool : Pool) : PoolSummary :=
  ⟨pool.delivered, pool.failed + pool.workers.countP fun worker => worker = .crashed⟩

/-- Puts an item into the queue, if there is room and somebody to take it. -/
def offer? (pool : Pool) (item : Item) : Option Pool :=
  (pool.queue.offer? item).map fun queue => { pool with queue := queue }

/-- The worker of this number ends and gives up its side of the queue. -/
def retire (pool : Pool) (worker : Nat) (last : Worker) : Pool :=
  { pool with
    workers := pool.workers.set worker last
    queue := pool.queue.dropReceiver }

/-- An idle worker takes the next item, or ends when there will be none. The request is the one it
begins to send. -/
def take? (pool : Pool) (worker : Nat) : Option (Pool × Option PartRequest) :=
  if pool.workers[worker]? = some .idle then
    match pool.queue.take? with
    | some (.part request, queue) =>
      some ({ pool with queue := queue, workers := pool.workers.set worker (.busy request) },
        some request)
    | some (.shutdown, queue) => some (retire { pool with queue := queue } worker .exited, none)
    | none => if pool.queue.isFinished then some (pool.retire worker .exited, none) else none
  else none

def finish? (pool : Pool) (worker : Nat) (reply : Reply) : Option (Pool × PartRequest) :=
  match pool.workers[worker]? with
  | some (.busy request) =>
    match reply with
    | .delivered =>
      some ({ pool with
        workers := pool.workers.set worker .idle
        delivered := pool.delivered + 1 }, request)
    | .refused _ =>
      some ({ pool with
        workers := pool.workers.set worker .idle
        failed := pool.failed + 1 }, request)
    | .crashed => some (pool.retire worker .crashed, request)
  | _ => none

end Pool

end ChunkedUpload
