import ChunkedUpload.Pool
import Mathlib.Data.List.Perm.Basic

/-! The steps of a pool, each with a note of what it did. Every change that the functions of a pool
can make is one of eight; a log is the notes of a pool from its start on. -/
namespace ChunkedUpload

def Item.part? : Item → Option PartRequest
  | .part request => some request
  | .shutdown => none

def Worker.request? : Worker → Option PartRequest
  | .busy request => some request
  | _ => none

def Reply.isRefused : Reply → Bool
  | .refused _ => true
  | .delivered | .crashed => false

@[simp] theorem isRefused_delivered : Reply.delivered.isRefused = false := rfl

@[simp] theorem isRefused_refused (error : TransportError) :
    (Reply.refused error).isRefused = true := rfl

@[simp] theorem isRefused_crashed : Reply.crashed.isRefused = false := rfl

inductive PoolNote
  | accepted (item : Item)
  /-- A worker has taken a part and begins to send it. -/
  | started (worker : Nat) (request : PartRequest)
  /-- A worker has taken a shutdown item and ended. -/
  | dismissed (worker : Nat)
  /-- A worker has ended because nothing will come any more. -/
  | deserted (worker : Nat)
  | ended (worker : Nat) (request : PartRequest) (reply : Reply)
  /-- The producer has gone without a word. -/
  | hungUp
deriving DecidableEq

namespace PoolNote

def accepted? : PoolNote → Option Item
  | accepted item => some item
  | _ => none

/-- The item that was taken out of the queue. -/
def taken? : PoolNote → Option Item
  | started _ request => some (.part request)
  | dismissed _ => some .shutdown
  | _ => none

def started? : PoolNote → Option PartRequest
  | started _ request => some request
  | _ => none

def ended? : PoolNote → Option (PartRequest × Reply)
  | ended _ request reply => some (request, reply)
  | _ => none

def dismissed? : PoolNote → Option Nat
  | dismissed worker => some worker
  | _ => none

/-- The worker that ended without a crash. -/
def departed? : PoolNote → Option Nat
  | dismissed worker | deserted worker => some worker
  | _ => none

end PoolNote

@[simp] theorem filterMap_single {α β : Type} (f : α → Option β) (x : α) :
    [x].filterMap f = (f x).toList := by
  cases h : f x <;> simp [h]

theorem filterMap_snoc {α β : Type} (f : α → Option β) (xs : List α) (x : α) :
    (xs ++ [x]).filterMap f = xs.filterMap f ++ (f x).toList := by
  rw [List.filterMap_append, filterMap_single]

namespace Pool

def sending (pool : Pool) : List PartRequest := pool.workers.filterMap Worker.request?

/-- The pool after an item was taken out of its slot. -/
def emptied (pool : Pool) : Pool := { pool with queue := { pool.queue with slot := none } }

section Fields

variable (pool : Pool) (worker : Nat) (last : Worker)

@[simp] theorem retire_workers : (pool.retire worker last).workers = pool.workers.set worker last :=
  rfl

@[simp] theorem retire_receivers :
    (pool.retire worker last).queue.receivers = pool.queue.receivers - 1 := rfl

@[simp] theorem retire_senders : (pool.retire worker last).queue.senders = pool.queue.senders := rfl

@[simp] theorem retire_slot : (pool.retire worker last).queue.slot =
    if pool.queue.receivers ≤ 1 then none else pool.queue.slot := rfl

@[simp] theorem retire_delivered : (pool.retire worker last).delivered = pool.delivered := rfl

@[simp] theorem retire_failed : (pool.retire worker last).failed = pool.failed := rfl

@[simp] theorem emptied_workers : pool.emptied.workers = pool.workers := rfl

@[simp] theorem emptied_queue :
    pool.emptied.queue = ⟨none, pool.queue.senders, pool.queue.receivers⟩ := rfl

@[simp] theorem emptied_delivered : pool.emptied.delivered = pool.delivered := rfl

@[simp] theorem emptied_failed : pool.emptied.failed = pool.failed := rfl

theorem emptied_retire_slot : (pool.emptied.retire worker last).queue.slot = none := by
  rw [retire_slot]
  split <;> rfl

end Fields

inductive Step : Pool → PoolNote → Pool → Prop
  | accept {pool : Pool} {item : Item} (manned : pool.queue.receivers ≠ 0)
      (free : pool.queue.slot = none) :
      Step pool (.accepted item) { pool with queue := { pool.queue with slot := some item } }
  | start {pool : Pool} {worker : Nat} {request : PartRequest}
      (idle : pool.workers[worker]? = some .idle) (full : pool.queue.slot = some (.part request)) :
      Step pool (.started worker request)
        { pool.emptied with workers := pool.workers.set worker (.busy request) }
  | dismiss {pool : Pool} {worker : Nat} (idle : pool.workers[worker]? = some .idle)
      (full : pool.queue.slot = some .shutdown) :
      Step pool (.dismissed worker) (pool.emptied.retire worker .exited)
  | desert {pool : Pool} {worker : Nat} (idle : pool.workers[worker]? = some .idle)
      (free : pool.queue.slot = none) (orphaned : pool.queue.senders = 0) :
      Step pool (.deserted worker) (pool.retire worker .exited)
  | deliver {pool : Pool} {worker : Nat} {request : PartRequest}
      (busy : pool.workers[worker]? = some (.busy request)) :
      Step pool (.ended worker request .delivered)
        { pool with workers := pool.workers.set worker .idle, delivered := pool.delivered + 1 }
  | refuse {pool : Pool} {worker : Nat} {request : PartRequest} {error : TransportError}
      (busy : pool.workers[worker]? = some (.busy request)) :
      Step pool (.ended worker request (.refused error))
        { pool with workers := pool.workers.set worker .idle, failed := pool.failed + 1 }
  | crash {pool : Pool} {worker : Nat} {request : PartRequest}
      (busy : pool.workers[worker]? = some (.busy request)) :
      Step pool (.ended worker request .crashed) (pool.retire worker .crashed)
  | hangUp {pool : Pool} : Step pool .hungUp { pool with queue := pool.queue.dropSender }

theorem step_of_offer {pool next : Pool} {item : Item} (offered : pool.offer? item = some next) :
    Step pool (.accepted item) next := by
  simp only [offer?, Queue.offer?, Queue.isClosed, Option.map_eq_some_iff] at offered
  obtain ⟨queue, room, rfl⟩ := offered
  simp only [Option.ite_none_left_eq_some, Bool.or_eq_true, beq_iff_eq, not_or,
    Option.not_isSome_iff_eq_none, Option.some.injEq] at room
  obtain ⟨⟨manned, free⟩, rfl⟩ := room
  exact .accept manned free

/-- What a worker does that takes something, or finds that nothing will come. -/
theorem step_of_take {pool next : Pool} {worker : Nat} {begun : Option PartRequest}
    (took : pool.take? worker = some (next, begun)) :
    (∃ request, begun = some request ∧ pool.queue.slot = some (.part request) ∧
      Step pool (.started worker request) next) ∨
    (begun = none ∧ pool.queue.slot = some .shutdown ∧ Step pool (.dismissed worker) next) ∨
    (begun = none ∧ pool.queue.slot = none ∧ Step pool (.deserted worker) next) := by
  simp only [take?] at took
  split at took
  · rename_i idle
    cases slot : pool.queue.slot with
    | none =>
      simp only [Queue.take?, slot, Option.map_none, Queue.isFinished, Option.isNone_none,
        Bool.true_and, beq_iff_eq] at took
      split at took
      · rename_i orphaned
        cases took
        exact .inr (.inr ⟨rfl, rfl, .desert idle slot orphaned⟩)
      · contradiction
    | some item =>
      cases item with
      | part request =>
        simp only [Queue.take?, slot, Option.map_some] at took
        cases took
        exact .inl ⟨request, rfl, rfl, .start idle slot⟩
      | shutdown =>
        simp only [Queue.take?, slot, Option.map_some] at took
        cases took
        exact .inr (.inl ⟨rfl, rfl, .dismiss idle slot⟩)
  · contradiction

theorem step_of_finish {pool next : Pool} {worker : Nat} {reply : Reply} {request : PartRequest}
    (finished : pool.finish? worker reply = some (next, request)) :
    Step pool (.ended worker request reply) next := by
  simp only [finish?] at finished
  split at finished
  · rename_i sent busy
    cases reply with
    | delivered => cases finished; exact .deliver busy
    | refused error => cases finished; exact .refuse busy
    | crashed => cases finished; exact .crash busy
  · contradiction

theorem live_of_worker {pool : Pool} {worker : Nat} {now : Worker}
    (found : pool.workers[worker]? = some now) (here : now.isGone = false) :
    pool.isStopped = false := by
  rw [isStopped, List.all_eq_false]
  exact ⟨now, List.mem_of_getElem? found, by simp [here]⟩

theorem live_of_take {pool : Pool} {worker : Nat} {result : Pool × Option PartRequest}
    (took : pool.take? worker = some result) : pool.isStopped = false := by
  simp only [take?] at took
  split at took
  · rename_i idle
    exact live_of_worker idle rfl
  · contradiction

theorem live_of_finish {pool : Pool} {worker : Nat} {reply : Reply} {result : Pool × PartRequest}
    (finished : pool.finish? worker reply = some result) : pool.isStopped = false := by
  simp only [finish?] at finished
  split at finished
  · rename_i busy
    exact live_of_worker busy rfl
  · contradiction

/-- The pools that a start with so many workers leads to, each with its log. -/
inductive Run (count : Nat) : List PoolNote → Pool → Prop
  | start : Run count [] (Pool.start count)
  | step {log : List PoolNote} {pool next : Pool} {note : PoolNote} (run : Run count log pool)
      (stepped : Step pool note next) : Run count (log ++ [note]) next

end Pool

end ChunkedUpload
