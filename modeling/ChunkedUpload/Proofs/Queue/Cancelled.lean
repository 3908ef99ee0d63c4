import ChunkedUpload.Proofs.Queue.History

/-! A call that gives up leaves no trace. Had its handle only been held for as long as the call
waited, the other calls could have moved in just the same way, with the same replies. -/
namespace ChunkedUpload

variable {α : Type}

def QueueSight.about : QueueSight α → Nat
  | came id _ | left id | served id .. => id

/-- The moves of the others. A handle is cloned where the call came and dropped where it gave up. -/
def QueueMove.ofOthers (id : Nat) (side : Bool) : QueueMove α → List (QueueMove α)
  | come other call => if other = id then [clone side] else [come other call]
  | cancel other => if other = id then [drop side] else [cancel other]
  | lock other => if other = id then [] else [lock other]
  | move => [move]

namespace QueueUsers

variable {users next shadow : QueueUsers α} {move : QueueMove α} {moves : List (QueueMove α)}
  {sights : List (QueueSight α)} {id : Nat} {side : Bool}

/-- The same users without one of the calls, whose handle nobody has given back. -/
structure Shadows (id : Nat) (shadow users : QueueUsers α) : Prop where
  queue : shadow.calls.queue = users.calls.queue
  waiting : shadow.calls.waiting = users.calls.waiting.filter fun entry => entry.1 != id
  holder : shadow.holder = if users.holder = some id then none else users.holder
  next : shadow.next ≤ users.next

namespace Shadows

variable (shadows : Shadows id shadow users)
include shadows

theorem line (sending : Bool) :
    shadow.calls.line sending = (users.calls.line sending).filter (· != id) := by
  rw [← QueueCalls.line_without users.calls id sending users.calls.queue]
  simp only [QueueCalls.line, QueueCalls.without, shadows.waiting]

/-- Where somebody else had an idle handle, there is one still. -/
theorem idle {sending : Bool} (idle : users.calls.idle sending ≠ 0) :
    shadow.calls.idle sending ≠ 0 := by
  have fewer := List.length_filter_le (· != id) (users.calls.line sending)
  rw [QueueCalls.idle_eq] at idle ⊢
  rw [shadows.line, shadows.queue]
  omega

theorem find? {other : Nat} {call : QueueCall α} (different : other ≠ id)
    (found : users.calls.waiting.find? (·.1 == other) = some (other, call)) :
    shadow.calls.waiting.find? (·.1 == other) = some (other, call) := by
  rw [shadows.waiting, List.find?_filter, ← found]
  congr 1
  funext entry
  by_cases same : entry.1 = other
  · simp [same, different]
  · simp [same]

theorem first {sending : Bool} {other : Nat} (different : other ≠ id)
    (first : (users.calls.line sending).head? = some other) :
    (shadow.calls.line sending).head? = some other := by
  obtain ⟨later, line⟩ := List.head?_eq_some_iff.mp first
  rw [shadows.line, line, List.filter_cons_of_pos (by simpa using different), List.head?_cons]

theorem mayGo {other : Nat} {call : QueueCall α} (different : other ≠ id)
    (turn : users.mayGo other call = true) : shadow.mayGo other call = true := by
  cases call with
  | put item =>
    simp only [QueueUsers.mayGo, Bool.or_eq_true, beq_iff_eq] at turn ⊢
    rw [shadows.queue]
    exact turn.imp_right (shadows.first different)
  | take =>
    simp only [QueueUsers.mayGo, beq_iff_eq] at turn ⊢
    rw [shadows.holder, turn, if_neg (by simpa using different)]

/-- Another call comes to its end. -/
theorem leave (other : Nat) (queue : Queue α) :
    Shadows id (shadow.leave other (shadow.calls.without other queue))
      (users.leave other (users.calls.without other queue)) where
  queue := rfl
  waiting := by
    simp only [QueueUsers.leave, QueueCalls.without, shadows.waiting, List.filter_filter,
      Bool.and_comm]
  holder := by
    simp only [QueueUsers.leave, shadows.holder]
    split <;> split <;> simp_all
  next := shadows.next

/-- A handle is cloned where the call comes. -/
theorem come_own {call : QueueCall α} (unused : users.next ≤ id)
    (idle : users.calls.idle call.isPut ≠ 0) :
    ∃ after, runSteps? step? shadow [.clone call.isPut] = some (after, []) ∧
      Shadows id after ⟨users.calls.join id call, users.holder, id + 1⟩ := by
  refine ⟨_, run_single (.clone (shadows.idle idle)), ⟨?_, ?_, shadows.holder, ?_⟩⟩
  · rw [QueueCalls.queue_join, shadows.queue]
  · simp [QueueCalls.join, shadows.waiting]
  · exact Nat.le_succ_of_le (Nat.le_trans shadows.next unused)

theorem come_other {other : Nat} {call : QueueCall α} (different : other ≠ id)
    (unused : users.next ≤ other) (idle : users.calls.idle call.isPut ≠ 0) :
    ∃ after, runSteps? step? shadow [.come other call] = some (after, [.came other call]) ∧
      Shadows id after ⟨users.calls.join other call, users.holder, other + 1⟩ := by
  have later := Nat.le_trans shadows.next unused
  refine ⟨_, run_single (.come later (shadows.idle idle)), ⟨?_, ?_, shadows.holder, ?_⟩⟩
  · rw [QueueCalls.queue_join, QueueCalls.queue_join, shadows.queue]
  · simp [QueueCalls.join, shadows.waiting, different]
  · exact Nat.le_refl _

/-- The handle that was cloned is idle as long as the call waits. -/
theorem cancel_own {call : QueueCall α} (sound : users.Sound)
    (waits : (id, call) ∈ users.calls.waiting) :
    ∃ after, runSteps? step? shadow [.drop call.isPut] = some (after, []) ∧
      Shadows id after
        (users.leave id (users.calls.without id (users.calls.queue.dropHandle call.isPut))) := by
  have idle : shadow.calls.idle call.isPut ≠ 0 := by
    have shorter := sound.length_without waits call.isPut
    have enough := sound.handles call.isPut
    have stands := List.length_pos_of_mem (QueueCalls.mem_line.mpr ⟨call, waits, rfl⟩)
    rw [QueueCalls.idle_eq, shadows.queue, shadows.line, shorter, if_pos rfl]
    omega
  refine ⟨_, run_single (.drop idle), ⟨?_, ?_, ?_, shadows.next⟩⟩
  · simp [QueueUsers.leave, QueueCalls.without, shadows.queue]
  · simp [QueueUsers.leave, QueueCalls.without, shadows.waiting]
  · simp [QueueUsers.leave, shadows.holder]

theorem lock_other {other : Nat} (different : other ≠ id) (free : users.holder = none)
    (first : (users.calls.line false).head? = some other) :
    ∃ after, runSteps? step? shadow [.lock other] = some (after, []) ∧
      Shadows id after { users with holder := some other } := by
  have none_holds : shadow.holder = none := by rw [shadows.holder, free]; rfl
  refine ⟨_, run_single (.lock none_holds (shadows.first different first)),
    ⟨shadows.queue, shadows.waiting, ?_, shadows.next⟩⟩
  simp [different]

/-- The other moves can be made as well. -/
theorem step (sound : users.Sound)
    (sides : ∀ call, (id, call) ∈ users.calls.waiting ∨ move = .come id call → call.isPut = side)
    (unserved : move ≠ .serve id) (stepped : Stepped users move next sights) :
    ∃ after, runSteps? step? shadow (move.ofOthers id side) =
        some (after, sights.filter (·.about != id)) ∧ Shadows id after next := by
  cases stepped with
  | @come other call unused idle =>
    by_cases same : other = id
    · subst same
      obtain rfl := sides call (.inr rfl)
      simpa [QueueMove.ofOthers, QueueSight.about] using shadows.come_own unused idle
    · simpa [QueueMove.ofOthers, QueueSight.about, same] using shadows.come_other same unused idle
  | @cancel other call found =>
    by_cases same : other = id
    · subst same
      have waits := List.mem_of_find?_eq_some found
      obtain rfl := sides call (.inl waits)
      simpa [QueueMove.ofOthers, QueueSight.about] using shadows.cancel_own sound waits
    · have left := shadows.leave other (users.calls.queue.dropHandle call.isPut)
      have gone := run_single (.cancel (shadows.find? same found))
      rw [shadows.queue] at gone
      simpa [QueueMove.ofOthers, QueueSight.about, same] using ⟨_, gone, left⟩
  | clone idle =>
    refine ⟨_, run_single (.clone (shadows.idle idle)),
      ⟨?_, shadows.waiting, shadows.holder, shadows.next⟩⟩
    rw [shadows.queue]
  | drop idle =>
    refine ⟨_, run_single (.drop (shadows.idle idle)),
      ⟨?_, shadows.waiting, shadows.holder, shadows.next⟩⟩
    rw [shadows.queue]
  | @lock other free first =>
    by_cases same : other = id
    · subst same
      have none_holds : shadow.holder = none := by rw [shadows.holder, free]; rfl
      have still : Shadows other shadow { users with holder := some other } :=
        ⟨shadows.queue, shadows.waiting, by simp [none_holds], shadows.next⟩
      simpa [QueueMove.ofOthers, runSteps?] using still
    · simpa [QueueMove.ofOthers, same] using shadows.lock_other same free first
  | @serve other call reply after found turn attempted =>
    have different : other ≠ id := fun same => unserved (same ▸ rfl)
    rw [← shadows.queue] at attempted
    have served := run_single
      (.serve (shadows.find? different found) (shadows.mayGo different turn) attempted)
    simpa [QueueMove.ofOthers, QueueSight.about, different] using
      ⟨_, served, shadows.leave other after⟩

end Shadows

theorem waiting_step {call : QueueCall α} (stepped : Stepped users move next sights)
    (waits : (id, call) ∈ next.calls.waiting) :
    (id, call) ∈ users.calls.waiting ∨ move = .come id call := by
  cases stepped with
  | come unused idle =>
    refine (List.mem_append.mp waits).imp_right fun new => ?_
    cases List.mem_singleton.mp new
    rfl
  | cancel | serve => exact .inl (List.mem_filter.mp waits).1
  | clone | drop | lock => exact .inl waits

theorem came_of_step {call : QueueCall α} (stepped : Stepped users (.come id call) next sights) :
    .came id call ∈ sights := by
  cases stepped
  exact List.mem_cons_self

theorem served_of_step (stepped : Stepped users (.serve id) next sights) :
    ∃ call reply, .served id call reply ∈ sights := by
  cases stepped
  exact ⟨_, _, List.mem_cons_self⟩

theorem Shadows.run (shadows : Shadows id shadow users) (sound : users.Sound)
    (sides : ∀ call, (id, call) ∈ users.calls.waiting ∨ .came id call ∈ sights → call.isPut = side)
    (unserved : ∀ call reply, .served id call reply ∉ sights)
    (run : runSteps? step? users moves = some (next, sights)) :
    ∃ after, runSteps? step? shadow (moves.flatMap (·.ofOthers id side)) =
        some (after, sights.filter (·.about != id)) ∧ Shadows id after next := by
  induction moves generalizing users shadow sights with
  | nil =>
    cases run
    exact ⟨shadow, rfl, shadows⟩
  | cons move moves ih =>
    obtain ⟨mid, first, later, stepped, ran, rfl⟩ := runSteps_cons run
    have stepped := step?_eq_some_iff.mp stepped
    have own : ∀ call, (id, call) ∈ users.calls.waiting ∨ move = .come id call →
        call.isPut = side := by
      rintro call (waits | rfl)
      · exact sides call (.inl waits)
      · exact sides call (.inr (List.mem_append_left _ (came_of_step stepped)))
    have other : move ≠ .serve id := by
      rintro rfl
      obtain ⟨call, reply, served⟩ := served_of_step stepped
      exact unserved call reply (List.mem_append_left _ served)
    obtain ⟨here, moved, still⟩ := shadows.step sound own other stepped
    obtain ⟨after, further, last⟩ := ih still (sound.step stepped)
      (fun call known => known.elim (fun waits => own call (waiting_step stepped waits))
        fun came => sides call (.inr (List.mem_append_right _ came)))
      (fun call reply served => unserved call reply (List.mem_append_right _ served)) ran
    refine ⟨after, ?_, last⟩
    rw [List.flatMap_cons, List.filter_append]
    exact runSteps_append moved further

/-- Without a call that gave up, the others would have seen just the same. -/
theorem unnoticed {call : QueueCall α} (run : runSteps? step? fresh moves = some (users, sights))
    (came : .came id call ∈ sights) (left : .left id ∈ sights) :
    ∃ next, runSteps? step? fresh (moves.flatMap (·.ofOthers id call.isPut)) =
      some ({ users with next := next }, sights.filter (·.about != id)) := by
  have kept := kept_of_run run
  have lawful := kept.lawful
  have start : Shadows id (fresh : QueueUsers α) fresh := ⟨rfl, rfl, rfl, Nat.le_refl 0⟩
  have gone : id ∉ users.calls.waiting.map Prod.fst := fun waits =>
    (List.nodup_append.mp kept.counted.once).2.2 id
      (List.mem_filterMap.mpr ⟨_, left, rfl⟩) id waits rfl
  have sides : ∀ other, (id, other) ∈ (fresh : QueueUsers α).calls.waiting ∨
      .came id other ∈ sights → other.isPut = call.isPut := by
    rintro other (waits | also)
    · cases waits
    · rw [came_unique lawful.arrived came also]
  obtain ⟨after, ran, last⟩ := start.run sound_fresh sides
    (fun other reply served => nomatch eq_of_filterMap lawful.once left served rfl rfl) run
  have waiting : users.calls.waiting.filter (fun entry => entry.1 != id) = users.calls.waiting := by
    refine List.filter_eq_self.mpr fun entry waits => ?_
    exact bne_iff_ne.mpr fun same => gone (List.mem_map.mpr ⟨entry, waits, same⟩)
  have holder : users.holder ≠ some id := by
    intro holds
    obtain ⟨later, line⟩ := List.head?_eq_some_iff.mp (kept.sound.holder id holds)
    obtain ⟨other, waits, -⟩ := QueueCalls.mem_line.mp (line ▸ List.mem_cons_self)
    exact gone (List.mem_map.mpr ⟨_, waits, rfl⟩)
  obtain ⟨⟨queue, others⟩, lock, number⟩ := after
  obtain rfl : queue = users.calls.queue := last.queue
  obtain rfl : others = users.calls.waiting := last.waiting.trans waiting
  obtain rfl : lock = users.holder := last.holder.trans (if_neg holder)
  exact ⟨number, ran⟩

end QueueUsers

end ChunkedUpload
