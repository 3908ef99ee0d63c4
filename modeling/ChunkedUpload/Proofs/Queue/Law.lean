import ChunkedUpload.Proofs.Queue.Calls
import ChunkedUpload.Proofs.Queue.Cancelled

/-! The law of the queue, for every run of its calls. -/
namespace ChunkedUpload

variable {α : Type}

namespace QueueUsers

theorem standstill_fresh : (fresh : QueueUsers α).Standstill := fun _ => ⟨rfl, rfl⟩

/-- However the calls come, wait, give up and are served, and however handles are cloned and
dropped: what takes return are the accepted items in their order, each side is served in the order
of arrival, and a refusal and an end mean that the other side is gone. Without a call that gave up
the others would have seen the same. Between two acts the calls can move a few times only, and where
they stand still, each waits for what is missing. Calls that are let go on after each act until they
stand still have such a run. -/
theorem queue_law :
    (∀ (moves : List (QueueMove α)) (users : QueueUsers α) (sights : List (QueueSight α)),
      runSteps? step? fresh moves = some (users, sights) →
      Lawful sights users ∧
      (∀ id call, .came id call ∈ sights → .left id ∈ sights →
        ∃ next, runSteps? step? fresh (moves.flatMap (·.ofOthers id call.isPut)) =
          some ({ users with next := next }, sights.filter (·.about != id))) ∧
      (∀ more last seen, (∀ move ∈ more, move.IsInner) →
        runSteps? step? users more = some (last, seen) →
        more.length ≤ 2 * users.calls.waiting.length + 1) ∧
      (users.Standstill →
        (users.calls.line true ≠ [] → 0 < users.calls.queue.receivers ∧
          users.calls.queue.slot ≠ none ∧ users.calls.line false = []) ∧
        (users.calls.line false ≠ [] → 0 < users.calls.queue.senders ∧
          users.calls.queue.slot = none ∧ users.calls.line true = []))) ∧
    ∀ acts : List (QueueCalls.Act α), ∃ last,
      Leads fresh (QueueCalls.fresh.acts 0 acts).2 last ∧
      last.calls = (QueueCalls.fresh.acts 0 acts).1 ∧ last.Standstill := by
  refine ⟨fun moves users sights run => ?_, fun acts => ?_⟩
  · have kept := kept_of_run run
    exact ⟨kept.lawful, fun _ _ => unnoticed run, fun _ _ _ => inner_moves_le,
      fun still => still.waits kept.sound⟩
  · exact acts_lead sound_fresh (Nat.le_refl 0) standstill_fresh acts

/-- Three puts and four takes. The second put gives up while it waits for the slot, and the second
take while it has the lock; the last take is told that nothing will come. -/
def someMoves : List (QueueMove Nat) :=
  [.come 0 (.put 10), .serve 0, .come 1 (.put 11), .come 2 (.put 12), .clone false, .come 3 .take,
    .clone false, .come 4 .take, .lock 3, .serve 3, .cancel 1, .lock 4, .cancel 4, .serve 2,
    .drop true, .come 5 .take, .lock 5, .serve 5, .come 6 .take, .lock 6, .serve 6]

def someSights : List (QueueSight Nat) :=
  [.came 0 (.put 10), .served 0 (.put 10) .queued, .came 1 (.put 11), .came 2 (.put 12),
    .came 3 .take, .came 4 .take, .served 3 .take (.taken 10), .left 1, .left 4,
    .served 2 (.put 12) .queued, .came 5 .take, .served 5 .take (.taken 12), .came 6 .take,
    .served 6 .take .ended]

theorem two_of_three_items_returned :
    let users : QueueUsers Nat := ⟨⟨⟨none, 0, 3⟩, []⟩, none, 7⟩
    runSteps? step? fresh someMoves = some (users, someSights) ∧
      (accepted someSights).map Prod.snd = [10, 12] ∧ returned someSights = [10, 12] ∧
      11 ∉ returned someSights ∧
      ∃ next, runSteps? step? fresh (someMoves.flatMap (·.ofOthers 4 false)) =
        some ({ users with next := next }, someSights.filter (·.about != 4)) := by
  intro users
  have run : runSteps? step? fresh someMoves = some (users, someSights) := rfl
  obtain ⟨lawful, unnoticed, -⟩ := queue_law.1 someMoves users someSights run
  have all : (accepted someSights).map Prod.snd = returned someSights :=
    (lawful.ended 6 .take (by simp [someSights])).2.2.2
  have unreturned := (lawful.unreturned 1 11 (by simp [someSights]) (.inl (by simp [someSights]))).2
  exact ⟨run, rfl, all.symm, unreturned fun other came => by simpa [someSights] using came,
    unnoticed 4 .take (by simp [someSights]) (by simp [someSights])⟩

end QueueUsers

end ChunkedUpload
