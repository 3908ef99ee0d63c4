/-! The limit on uploads that run at the same time. Every upload holds a slot while it runs; whoever
finds no slot free waits, and slots are given in the order of arrival. -/
namespace ChunkedUpload

/-- A limiter. Those who hold a slot and those who wait are known by numbers. -/
structure Admission where
  max : Nat
  available : Nat
  holders : List Nat
  /-- In the order of arrival. -/
  waiting : List Nat
deriving DecidableEq, Repr

namespace Admission

/-- There is no limiter with more slots than this. -/
def maxSlots : Nat := 0x1FFFFFFFFFFFFFFF

/-- A limiter with so many slots, and with one at least. -/
def make? (slots : Nat) : Option Admission :=
  let max := Nat.max slots 1
  if maxSlots < max then none else some ⟨max, max, [], []⟩

/-- Gives out free slots, in the order of arrival. -/
def settle (limiter : Admission) : Admission :=
  let granted := limiter.waiting.take limiter.available
  { limiter with
    available := limiter.available - granted.length
    holders := limiter.holders ++ granted
    waiting := limiter.waiting.drop limiter.available }

def request (limiter : Admission) (id : Nat) : Admission :=
  settle { limiter with waiting := limiter.waiting ++ [id] }

/-- Gives a slot back. Whoever holds none gives none back. -/
def release (limiter : Admission) (id : Nat) : Admission :=
  if id ∈ limiter.holders then
    settle { limiter with
      available := limiter.available + 1
      holders := limiter.holders.erase id }
  else limiter

/-- Stops waiting. Whoever does not wait goes on as before. -/
def cancel (limiter : Admission) (id : Nat) : Admission :=
  settle { limiter with waiting := limiter.waiting.erase id }

/-- Leaves, whether with a slot or still without one. -/
def leave (limiter : Admission) (id : Nat) : Admission := (limiter.release id).cancel id

def holds (limiter : Admission) (id : Nat) : Bool := limiter.holders.contains id

end Admission

end ChunkedUpload
