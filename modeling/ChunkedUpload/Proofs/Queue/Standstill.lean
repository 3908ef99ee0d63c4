import ChunkedUpload.Proofs.Queue.History

/-! Where the calls come to rest. The calls cannot move forever unless somebody acts, and where none
of them can move, each of them waits for something that is really missing. -/
namespace ChunkedUpload

variable {α : Type}

/-- A move that a waiting call makes by itself. -/
def QueueMove.IsInner : QueueMove α → Prop
  | lock _ | serve _ => True
  | come .. | cancel _ | clone _ | drop _ => False

namespace QueueUsers

variable {users next : QueueUsers α} {move : QueueMove α} {sights : List (QueueSight α)} {id : Nat}

/-- No waiting call can move. -/
def Standstill (users : QueueUsers α) : Prop :=
  ∀ id, users.step? (.lock id) = none ∧ users.step? (.serve id) = none

namespace Standstill

variable (still : users.Standstill)
include still

theorem not_lock (stepped : Stepped users (.lock id) next sights) : False := by
  have none := (still id).1
  rw [step?_eq_some_iff.mpr stepped] at none
  contradiction

theorem not_serve (stepped : Stepped users (.serve id) next sights) : False := by
  have none := (still id).2
  rw [step?_eq_some_iff.mpr stepped] at none
  contradiction

/-- The first take of the line has the lock. -/
theorem holder (sound : users.Sound) (first : (users.calls.line false).head? = some id) :
    users.holder = some id := by
  cases holder : users.holder with
  | none => exact (still.not_lock (.lock holder first)).elim
  | some other => rw [← first, sound.holder other holder]

/-- A take stands still only where there is nothing to take. -/
theorem take_waits (sound : users.Sound) (first : (users.calls.line false).head? = some id) :
    users.calls.queue.slot = none ∧ 0 < users.calls.queue.senders := by
  have found := sound.find? (QueueCalls.take_of_first first)
  have turn : users.mayGo id (.take : QueueCall α) = true := by
    simp [mayGo, still.holder sound first]
  have free : users.calls.queue.slot = none := by
    cases slot : users.calls.queue.slot with
    | none => rfl
    | some item => exact (still.not_serve (.serve found turn (.taken slot))).elim
  refine ⟨free, Nat.pos_of_ne_zero fun closed => ?_⟩
  exact still.not_serve (.serve found turn (.ended free closed))

/-- A put stands still only where there is no room and somebody is left to make some. -/
theorem put_waits (sound : users.Sound) (first : (users.calls.line true).head? = some id) :
    users.calls.queue.slot ≠ none ∧ 0 < users.calls.queue.receivers := by
  obtain ⟨item, waits⟩ := QueueCalls.put_of_first first
  have found := sound.find? waits
  have turn : users.mayGo id (.put item) = true := by simp [mayGo, first]
  have taken : 0 < users.calls.queue.receivers :=
    Nat.pos_of_ne_zero fun closed => still.not_serve (.serve found turn (.refused closed))
  exact ⟨fun free => still.not_serve (.serve found turn (.queued taken free)), taken⟩

/-- Where calls are left waiting, they are all on one side, and what they wait for is missing. -/
theorem waits (sound : users.Sound) :
    (users.calls.line true ≠ [] → 0 < users.calls.queue.receivers ∧
      users.calls.queue.slot ≠ none ∧ users.calls.line false = []) ∧
    (users.calls.line false ≠ [] → 0 < users.calls.queue.senders ∧
      users.calls.queue.slot = none ∧ users.calls.line true = []) := by
  cases puts : users.calls.line true with
  | nil =>
    refine ⟨absurd rfl, fun waits => ?_⟩
    obtain ⟨id, later, takes⟩ := List.exists_cons_of_ne_nil waits
    obtain ⟨free, some_left⟩ := still.take_waits sound (by rw [takes]; rfl)
    exact ⟨some_left, free, rfl⟩
  | cons id later =>
    obtain ⟨full, some_left⟩ := still.put_waits sound (by rw [puts]; rfl)
    cases takes : users.calls.line false with
    | nil => exact ⟨fun _ => ⟨some_left, full, rfl⟩, absurd rfl⟩
    | cons other rest => exact absurd (still.take_waits sound (by rw [takes]; rfl)).1 full

end Standstill

/-- How often waiting calls can move: each can get the lock, and each can be served. -/
def work (users : QueueUsers α) : Nat :=
  2 * users.calls.waiting.length + if users.holder.isNone then 1 else 0

theorem work_step (inner : move.IsInner) (stepped : Stepped users move next sights) :
    next.work < users.work := by
  cases stepped with
  | come | cancel | clone | drop => exact inner.elim
  | lock free first =>
    rw [work, work, free]
    exact Nat.lt_succ_self _
  | @serve id call reply after found turn attempted =>
    have waits := List.mem_of_find?_eq_some found
    have fewer : (users.calls.waiting.filter fun entry => entry.1 != id).length <
        users.calls.waiting.length :=
      List.length_filter_lt_length_iff_exists.mpr ⟨_, waits, by simp⟩
    simp only [work, leave, QueueCalls.without]
    split <;> split <;> omega

theorem inner_moves_le {moves : List (QueueMove α)} (inner : ∀ move ∈ moves, move.IsInner)
    (run : runSteps? step? users moves = some (next, sights)) :
    moves.length ≤ 2 * users.calls.waiting.length + 1 := by
  have kept : StepKeeps (step? (α := α)) (fun _ _ => True) QueueMove.IsInner :=
    fun _ _ _ _ _ _ _ _ => trivial
  have bound := run_length_le work kept
    (fun _ _ _ _ _ _ inner stepped => work_step inner (step?_eq_some_iff.mp stepped)) moves users
    next [] sights trivial inner run
  have most : users.work ≤ 2 * users.calls.waiting.length + 1 := by
    unfold work
    split <;> omega
  omega

end QueueUsers

end ChunkedUpload
