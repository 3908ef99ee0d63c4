/-! The hand-off between a producer and its workers: a queue with a single slot. It counts the
handles on both sides, since it ends when one side is gone. -/
namespace ChunkedUpload

structure Queue (α : Type) where
  slot : Option α
  senders : Nat
  receivers : Nat
deriving DecidableEq, Repr

namespace Queue

variable {α : Type}

def fresh (receivers : Nat) : Queue α := ⟨none, 1, receivers⟩

def capacity : Nat := 1

/-- Nobody is left to take an item. -/
def isClosed (queue : Queue α) : Bool := queue.receivers == 0

/-- Nothing is left to take, and nothing will come. -/
def isFinished (queue : Queue α) : Bool := queue.slot.isNone && queue.senders == 0

/-- Puts an item into the slot, if it is free and somebody may take it. -/
def offer? (queue : Queue α) (item : α) : Option (Queue α) :=
  if queue.isClosed || queue.slot.isSome then none else some { queue with slot := some item }

def take? (queue : Queue α) : Option (α × Queue α) :=
  queue.slot.map fun item => (item, { queue with slot := none })

def addSender (queue : Queue α) : Queue α := { queue with senders := queue.senders + 1 }

def addReceiver (queue : Queue α) : Queue α := { queue with receivers := queue.receivers + 1 }

def dropSender (queue : Queue α) : Queue α := { queue with senders := queue.senders - 1 }

/-- When the last receiver goes, what is in the slot is lost. -/
def dropReceiver (queue : Queue α) : Queue α :=
  { queue with
    receivers := queue.receivers - 1
    slot := if queue.receivers ≤ 1 then none else queue.slot }

end Queue

end ChunkedUpload
