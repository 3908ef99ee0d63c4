import ChunkedUpload.Queue.Calls

/-! The calls at a queue, one move at a time and in any order that its two lines allow. A put waits
for its turn at the slot. The receiving end stands behind a lock: a take waits for the lock first,
and whoever has the lock waits for an item and gives the lock back when the call ends, also when it
is cancelled. -/
namespace ChunkedUpload

variable {α : Type}

namespace Queue

def handles (queue : Queue α) (sending : Bool) : Nat :=
  if sending then queue.senders else queue.receivers

def addHandle (queue : Queue α) (sending : Bool) : Queue α :=
  if sending then queue.addSender else queue.addReceiver

def dropHandle (queue : Queue α) (sending : Bool) : Queue α :=
  if sending then queue.dropSender else queue.dropReceiver

end Queue

namespace QueueCalls

/-- The calls of one side, in the order of their arrival. -/
def line (calls : QueueCalls α) (sending : Bool) : List Nat :=
  (calls.waiting.filter fun entry => entry.2.isPut == sending).map Prod.fst

/-- Handles of one side that no call holds. -/
def idle (calls : QueueCalls α) (sending : Bool) : Nat :=
  if sending then calls.idleSenders else calls.idleReceivers

/-- The calls without one of them, at a queue that its end has changed. -/
def without (calls : QueueCalls α) (id : Nat) (queue : Queue α) : QueueCalls α where
  queue := queue
  waiting := calls.waiting.filter fun entry => entry.1 != id

end QueueCalls

structure QueueUsers (α : Type) where
  calls : QueueCalls α
  /-- The take that has the lock. -/
  holder : Option Nat
  /-- Calls are numbered in the order of their arrival, and those to come from here on. -/
  next : Nat

inductive QueueMove (α : Type)
  | come (id : Nat) (call : QueueCall α)
  | cancel (id : Nat)
  | clone (sending : Bool)
  | drop (sending : Bool)
  | lock (id : Nat)
  | serve (id : Nat)
deriving DecidableEq

inductive QueueSight (α : Type)
  | came (id : Nat) (call : QueueCall α)
  | left (id : Nat)
  | served (id : Nat) (call : QueueCall α) (reply : QueueReply α)
deriving DecidableEq

namespace QueueUsers

def fresh : QueueUsers α := ⟨QueueCalls.fresh, none, 0⟩

/-- Whose turn it is. A queue that nobody takes from refuses its puts in any order. -/
def mayGo (users : QueueUsers α) (id : Nat) : QueueCall α → Bool
  | .put _ => users.calls.queue.isClosed || (users.calls.line true).head? == some id
  | .take => users.holder == some id

/-- A call is over, and the lock is free if it had it. -/
def leave (users : QueueUsers α) (id : Nat) (calls : QueueCalls α) : QueueUsers α where
  calls := calls
  holder := if users.holder = some id then none else users.holder
  next := users.next

def step? (users : QueueUsers α) : QueueMove α → Option (QueueUsers α × List (QueueSight α))
  | .come id call =>
    if users.next ≤ id ∧ users.calls.idle call.isPut ≠ 0 then
      some (⟨users.calls.join id call, users.holder, id + 1⟩, [.came id call])
    else none
  | .cancel id =>
    (users.calls.waiting.find? fun entry => entry.1 == id).map fun _ =>
      (users.leave id (users.calls.cancel id), [.left id])
  | .clone sending =>
    if users.calls.idle sending = 0 then none
    else some ({ users with calls.queue := users.calls.queue.addHandle sending }, [])
  | .drop sending =>
    if users.calls.idle sending = 0 then none
    else some ({ users with calls.queue := users.calls.queue.dropHandle sending }, [])
  | .lock id =>
    if users.holder = none ∧ (users.calls.line false).head? = some id then
      some ({ users with holder := some id }, [])
    else none
  | .serve id =>
    (users.calls.waiting.find? fun entry => entry.1 == id).bind fun (_, call) =>
      if users.mayGo id call then
        (QueueCalls.attempt users.calls.queue call).map fun (reply, after) =>
          (users.leave id (users.calls.without id after), [.served id call reply])
      else none

end QueueUsers

end ChunkedUpload
