import ChunkedUpload.Queue

/-! Calls that wait at a queue. Each side is served in the order of arrival. A waiting call holds a
handle of its own, so that it keeps its side of the queue open; the handle is given back when the
call ends, also when it is cancelled. -/
namespace ChunkedUpload

inductive QueueCall (α : Type)
  | put (item : α)
  | take
deriving DecidableEq, Repr

def QueueCall.isPut {α : Type} : QueueCall α → Bool
  | put _ => true
  | take => false

inductive QueueReply (α : Type)
  | queued
  /-- Nobody will take the item, and the caller has it back. -/
  | refused (item : α)
  | taken (item : α)
  /-- There is nothing to take, and nothing will come. -/
  | ended
deriving DecidableEq, Repr

/-- A queue with the calls that wait at it, in the order of their arrival. A call is known by its
number. -/
structure QueueCalls (α : Type) where
  queue : Queue α
  waiting : List (Nat × QueueCall α)
deriving Repr

namespace QueueCalls

variable {α : Type}

def fresh : QueueCalls α := ⟨Queue.fresh 1, []⟩

def attempt (queue : Queue α) : QueueCall α → Option (QueueReply α × Queue α)
  | .put item =>
    if queue.isClosed then some (.refused item, queue.dropSender)
    else (queue.offer? item).map fun after => (.queued, after.dropSender)
  | .take =>
    match queue.take? with
    | some (item, after) => some (.taken item, after.dropReceiver)
    | none => if queue.isFinished then some (.ended, queue.dropReceiver) else none

/-- One round: every call, in order, proceeds if it can and if no earlier call of its side waits.
`passed` holds the calls of this round that still wait. -/
def round (queue : Queue α) (passed : List (Nat × QueueCall α)) :
    List (Nat × QueueCall α) → Queue α × List (Nat × QueueCall α) × List (Nat × QueueReply α)
  | [] => (queue, passed, [])
  | (id, call) :: rest =>
    if passed.any fun earlier => earlier.2.isPut == call.isPut then
      round queue (passed ++ [(id, call)]) rest
    else
      match attempt queue call with
      | none => round queue (passed ++ [(id, call)]) rest
      | some (reply, after) =>
        let (final, still, replies) := round after passed rest
        (final, still, (id, reply) :: replies)

/-- Rounds until nothing moves, or so many. -/
def settleWithin : Nat → QueueCalls α → QueueCalls α × List (Nat × QueueReply α)
  | 0, calls => (calls, [])
  | fuel + 1, calls =>
    match round calls.queue [] calls.waiting with
    | (_, _, []) => (calls, [])
    | (queue, waiting, replies) =>
      let (final, later) := settleWithin fuel ⟨queue, waiting⟩
      (final, replies ++ later)

/-- Lets every call that can proceed do so. Every round that moves anything ends a call, so there
are no more rounds than calls. -/
def settle (calls : QueueCalls α) : QueueCalls α × List (Nat × QueueReply α) :=
  settleWithin calls.waiting.length calls

/-- A new call joins the line with a handle of its own. -/
def join (calls : QueueCalls α) (id : Nat) (call : QueueCall α) : QueueCalls α where
  queue := match call with
    | .put _ => calls.queue.addSender
    | .take => calls.queue.addReceiver
  waiting := calls.waiting ++ [(id, call)]

def cancel (calls : QueueCalls α) (id : Nat) : QueueCalls α :=
  match calls.waiting.find? fun entry => entry.1 == id with
  | none => calls
  | some (_, call) =>
    { queue := match call with
        | .put _ => calls.queue.dropSender
        | .take => calls.queue.dropReceiver
      waiting := calls.waiting.filter fun entry => entry.1 != id }

/-- Handles on the sending side that no call holds. -/
def idleSenders (calls : QueueCalls α) : Nat :=
  calls.queue.senders - calls.waiting.countP fun entry => entry.2.isPut

/-- Handles on the receiving side that no call holds. -/
def idleReceivers (calls : QueueCalls α) : Nat :=
  calls.queue.receivers - calls.waiting.countP fun entry => !entry.2.isPut

inductive Act (α : Type)
  | enqueue (item : α)
  | dequeue
  | cancel (id : Nat)
  | cloneSender
  | cloneReceiver
  | dropSender
  | dropReceiver

/-- Acts without letting the waiting calls move. What needs a handle that nobody has free changes
nothing. -/
def act (calls : QueueCalls α) (id : Nat) : Act α → QueueCalls α
  | .enqueue item => if calls.idleSenders = 0 then calls else calls.join id (.put item)
  | .dequeue => if calls.idleReceivers = 0 then calls else calls.join id .take
  | .cancel other => calls.cancel other
  | .cloneSender =>
    if calls.idleSenders = 0 then calls else { calls with queue := calls.queue.addSender }
  | .cloneReceiver =>
    if calls.idleReceivers = 0 then calls else { calls with queue := calls.queue.addReceiver }
  | .dropSender =>
    if calls.idleSenders = 0 then calls else { calls with queue := calls.queue.dropSender }
  | .dropReceiver =>
    if calls.idleReceivers = 0 then calls else { calls with queue := calls.queue.dropReceiver }

/-- Acts and lets the waiting calls move until they stand still. -/
def step (calls : QueueCalls α) (id : Nat) (what : Act α) :
    QueueCalls α × List (Nat × QueueReply α) :=
  (calls.act id what).settle

end QueueCalls

end ChunkedUpload
