import ChunkedUpload.Proofs.Run
import ChunkedUpload.Queue.Moves
import Mathlib.Data.List.Nodup

/-! What one move at a queue can be, and what all moves keep: each side has a handle for every call
that waits on it, the lock is with the first take of the line, and a slot that nobody can take from
is empty. -/
namespace ChunkedUpload

variable {α : Type}

namespace Queue

variable (queue : Queue α) (sending side : Bool)

theorem handles_addHandle :
    (queue.addHandle side).handles sending =
      queue.handles sending + if side = sending then 1 else 0 := by
  cases side <;> cases sending <;> rfl

theorem handles_dropHandle :
    (queue.dropHandle side).handles sending =
      queue.handles sending - if side = sending then 1 else 0 := by
  cases side <;> cases sending <;> rfl

theorem slot_addHandle : (queue.addHandle side).slot = queue.slot := by
  cases side <;> rfl

/-- What is in the slot stays there unless the last receiver goes. -/
theorem slot_dropHandle :
    (queue.dropHandle side).slot = queue.slot ∨
      (queue.dropHandle side).slot = none ∧ (queue.dropHandle side).receivers = 0 := by
  cases side with
  | true => exact .inl rfl
  | false =>
    by_cases last : queue.receivers ≤ 1
    · exact .inr ⟨if_pos last, Nat.sub_eq_zero_of_le last⟩
    · exact .inl (if_neg last)

theorem slot_dropHandle_none {queue : Queue α} (empty : queue.slot = none) :
    (queue.dropHandle side).slot = none := by
  rcases queue.slot_dropHandle side with same | ⟨none, -⟩
  · rw [same, empty]
  · exact none

theorem handles_dropHandle_zero {queue : Queue α} {sending : Bool}
    (gone : queue.handles sending = 0) : (queue.dropHandle side).handles sending = 0 := by
  rw [handles_dropHandle, gone, Nat.zero_sub]

theorem length_slot_le_capacity : queue.slot.toList.length ≤ capacity := by
  cases queue.slot with
  | none => exact Nat.zero_le _
  | some item => exact Nat.le_refl _

/-- An item is accepted as long as somebody may take it and the capacity is not reached. -/
theorem offer?_isSome_iff (item : α) : (queue.offer? item).isSome = true ↔
    queue.receivers ≠ 0 ∧ queue.slot.toList.length < capacity := by
  cases full : queue.slot <;> cases closed : queue.receivers <;>
    simp [offer?, isClosed, full, closed, capacity]

/-- A slot that nobody can take from is empty. -/
def Emptied (queue : Queue α) : Prop := queue.receivers = 0 → queue.slot = none

variable {queue}

theorem Emptied.addHandle (emptied : queue.Emptied) : (queue.addHandle side).Emptied := by
  cases side with
  | true => exact emptied
  | false => exact fun gone => absurd gone (Nat.succ_ne_zero _)

theorem Emptied.dropHandle (emptied : queue.Emptied) : (queue.dropHandle side).Emptied := by
  cases side with
  | true => exact emptied
  | false => exact fun gone => if_pos (Nat.le_of_sub_eq_zero gone)

end Queue

namespace QueueCalls

section Line

variable (calls : QueueCalls α) (id : Nat) (call : QueueCall α) (sending : Bool)

theorem queue_join : (calls.join id call).queue = calls.queue.addHandle call.isPut := by
  cases call <;> rfl

theorem line_join : (calls.join id call).line sending =
    calls.line sending ++ if call.isPut = sending then [id] else [] := by
  cases call <;> cases sending <;> simp [line, join, QueueCall.isPut]

theorem line_without (queue : Queue α) :
    (calls.without id queue).line sending = (calls.line sending).filter (· != id) := by
  simp only [line, without, List.filter_map, List.filter_filter, Function.comp_def]
  congr 2
  funext entry
  rw [Bool.and_comm]

theorem idle_eq :
    calls.idle sending = calls.queue.handles sending - (calls.line sending).length := by
  cases sending <;> simp [idle, idleSenders, idleReceivers, Queue.handles, line,
    List.countP_eq_length_filter]

variable {calls id call sending}

theorem handles_pos (idle : calls.idle sending ≠ 0) : 0 < calls.queue.handles sending := by
  rw [idle_eq] at idle
  omega

theorem mem_line :
    id ∈ calls.line sending ↔ ∃ call, (id, call) ∈ calls.waiting ∧ call.isPut = sending := by
  simp [line]

theorem put_of_first (first : (calls.line true).head? = some id) :
    ∃ item, (id, .put item) ∈ calls.waiting := by
  obtain ⟨call, waits, side⟩ := mem_line.mp (List.mem_of_mem_head? first)
  cases call with
  | put item => exact ⟨item, waits⟩
  | take => contradiction

theorem take_of_first (first : (calls.line false).head? = some id) :
    (id, .take) ∈ calls.waiting := by
  obtain ⟨call, waits, side⟩ := mem_line.mp (List.mem_of_mem_head? first)
  cases call with
  | put item => contradiction
  | take => exact waits

/-- Cancelling a call that waits gives its handle back. -/
theorem cancel_eq (found : calls.waiting.find? (·.1 == id) = some (id, call)) :
    calls.cancel id = calls.without id (calls.queue.dropHandle call.isPut) := by
  rw [cancel, found]
  cases call <;> rfl

end Line

/-- A call that can proceed, and what comes of it. -/
inductive Attempted (queue : Queue α) : QueueCall α → QueueReply α → Queue α → Prop
  | refused {item : α} (closed : queue.receivers = 0) :
      Attempted queue (.put item) (.refused item) (queue.dropHandle true)
  | queued {item : α} (taken : 0 < queue.receivers) (free : queue.slot = none) :
      Attempted queue (.put item) .queued ({ queue with slot := some item }.dropHandle true)
  | taken {item : α} (full : queue.slot = some item) :
      Attempted queue .take (.taken item) ({ queue with slot := none }.dropHandle false)
  | ended (free : queue.slot = none) (closed : queue.senders = 0) :
      Attempted queue .take .ended (queue.dropHandle false)

theorem attempt_eq_some_iff {queue after : Queue α} {call : QueueCall α} {reply : QueueReply α} :
    attempt queue call = some (reply, after) ↔ Attempted queue call reply after := by
  constructor
  · intro proceeds
    cases call with
    | put item =>
      by_cases closed : queue.receivers = 0
      · simp [attempt, Queue.isClosed, closed] at proceeds
        obtain ⟨rfl, rfl⟩ := proceeds
        exact .refused closed
      · cases slot : queue.slot <;>
          simp [attempt, Queue.isClosed, Queue.offer?, closed, slot] at proceeds
        obtain ⟨rfl, rfl⟩ := proceeds
        exact .queued (Nat.pos_of_ne_zero closed) slot
    | take =>
      cases slot : queue.slot with
      | none =>
        simp [attempt, Queue.take?, Queue.isFinished, slot] at proceeds
        obtain ⟨closed, rfl, rfl⟩ := proceeds
        exact .ended slot closed
      | some item =>
        simp [attempt, Queue.take?, slot] at proceeds
        obtain ⟨rfl, rfl⟩ := proceeds
        exact .taken slot
  · rintro (closed | ⟨taken, free⟩ | full | ⟨free, closed⟩)
    · simp [attempt, Queue.isClosed, closed, Queue.dropHandle]
    · simp [attempt, Queue.isClosed, Queue.offer?, free, Nat.ne_of_gt taken, Queue.dropHandle]
    · simp [attempt, Queue.take?, full, Queue.dropHandle]
    · simp [attempt, Queue.take?, Queue.isFinished, free, closed, Queue.dropHandle]

end QueueCalls

namespace QueueUsers

variable {users next : QueueUsers α} {move : QueueMove α} {sights : List (QueueSight α)} {id : Nat}

/-- A move, and what it changes. -/
inductive Stepped (users : QueueUsers α) :
    QueueMove α → QueueUsers α → List (QueueSight α) → Prop
  | come {id : Nat} {call : QueueCall α} (unused : users.next ≤ id)
      (idle : users.calls.idle call.isPut ≠ 0) :
      Stepped users (.come id call) ⟨users.calls.join id call, users.holder, id + 1⟩
        [.came id call]
  | cancel {id : Nat} {call : QueueCall α}
      (found : users.calls.waiting.find? (·.1 == id) = some (id, call)) :
      Stepped users (.cancel id)
        (users.leave id (users.calls.without id (users.calls.queue.dropHandle call.isPut)))
        [.left id]
  | clone {sending : Bool} (idle : users.calls.idle sending ≠ 0) :
      Stepped users (.clone sending)
        { users with calls.queue := users.calls.queue.addHandle sending } []
  | drop {sending : Bool} (idle : users.calls.idle sending ≠ 0) :
      Stepped users (.drop sending)
        { users with calls.queue := users.calls.queue.dropHandle sending } []
  | lock {id : Nat} (free : users.holder = none)
      (first : (users.calls.line false).head? = some id) :
      Stepped users (.lock id) { users with holder := some id } []
  | serve {id : Nat} {call : QueueCall α} {reply : QueueReply α} {after : Queue α}
      (found : users.calls.waiting.find? (·.1 == id) = some (id, call))
      (turn : users.mayGo id call = true)
      (attempted : QueueCalls.Attempted users.calls.queue call reply after) :
      Stepped users (.serve id) (users.leave id (users.calls.without id after))
        [.served id call reply]

theorem find?_id {waiting : List (Nat × QueueCall α)} {entry : Nat × QueueCall α}
    (found : waiting.find? (·.1 == id) = some entry) : entry.1 = id := by
  have same := List.find?_some found
  exact beq_iff_eq.mp same

theorem step?_eq_some_iff :
    users.step? move = some (next, sights) ↔ Stepped users move next sights := by
  constructor
  · intro stepped
    cases move with
    | come id call =>
      simp only [step?, Option.ite_none_right_eq_some, Option.some.injEq, Prod.mk.injEq] at stepped
      obtain ⟨⟨unused, idle⟩, rfl, rfl⟩ := stepped
      exact .come unused idle
    | cancel id =>
      simp only [step?, Option.map_eq_some_iff, Prod.mk.injEq] at stepped
      obtain ⟨⟨other, call⟩, found, rfl, rfl⟩ := stepped
      obtain rfl : other = id := find?_id found
      rw [QueueCalls.cancel_eq found]
      exact .cancel found
    | clone sending =>
      simp only [step?, Option.ite_none_left_eq_some, Option.some.injEq, Prod.mk.injEq] at stepped
      obtain ⟨idle, rfl, rfl⟩ := stepped
      exact .clone idle
    | drop sending =>
      simp only [step?, Option.ite_none_left_eq_some, Option.some.injEq, Prod.mk.injEq] at stepped
      obtain ⟨idle, rfl, rfl⟩ := stepped
      exact .drop idle
    | lock id =>
      simp only [step?, Option.ite_none_right_eq_some, Option.some.injEq, Prod.mk.injEq] at stepped
      obtain ⟨⟨free, first⟩, rfl, rfl⟩ := stepped
      exact .lock free first
    | serve id =>
      simp only [step?, Option.bind_eq_some_iff, Option.ite_none_right_eq_some,
        Option.map_eq_some_iff, Prod.mk.injEq] at stepped
      obtain ⟨⟨other, call⟩, found, turn, ⟨reply, after⟩, attempted, rfl, rfl⟩ := stepped
      obtain rfl : other = id := find?_id found
      exact .serve found turn (QueueCalls.attempt_eq_some_iff.mp attempted)
  · intro stepped
    cases stepped with
    | come unused idle => exact if_pos ⟨unused, idle⟩
    | cancel found => rw [step?, found, Option.map_some, QueueCalls.cancel_eq found]
    | clone idle => exact if_neg idle
    | drop idle => exact if_neg idle
    | lock free first => exact if_pos ⟨free, first⟩
    | serve found turn attempted =>
      rw [step?, found, Option.bind_some]
      dsimp only
      rw [if_pos turn, QueueCalls.attempt_eq_some_iff.mpr attempted]
      rfl

theorem run_single (stepped : Stepped users move next sights) :
    runSteps? step? users [move] = some (next, sights) := by
  simp [runSteps?, step?_eq_some_iff.mpr stepped]

/-- What holds between any two moves. -/
structure Sound (users : QueueUsers α) : Prop where
  sorted : (users.calls.waiting.map Prod.fst).Pairwise (· < ·)
  below : ∀ entry ∈ users.calls.waiting, entry.1 < users.next
  handles : ∀ sending, (users.calls.line sending).length ≤ users.calls.queue.handles sending
  holder : ∀ id, users.holder = some id → (users.calls.line false).head? = some id
  emptied : users.calls.queue.Emptied

theorem sound_fresh : Sound (fresh : QueueUsers α) where
  sorted := .nil
  below := fun _ member => nomatch member
  handles := fun _ => Nat.zero_le _
  holder := fun _ same => nomatch same
  emptied := fun _ => rfl

namespace Sound

variable {call : QueueCall α}

theorem nodup (sound : users.Sound) : (users.calls.waiting.map Prod.fst).Nodup :=
  sound.sorted.imp Nat.ne_of_lt

theorem line_sorted (sound : users.Sound) (sending : Bool) :
    (users.calls.line sending).Pairwise (· < ·) :=
  sound.sorted.sublist (List.filter_sublist.map Prod.fst)

theorem below_line (sound : users.Sound) {sending : Bool} (waits : id ∈ users.calls.line sending) :
    id < users.next := by
  obtain ⟨call, member, -⟩ := QueueCalls.mem_line.mp waits
  exact sound.below _ member

theorem unique (sound : users.Sound) {other : QueueCall α}
    (waits : (id, call) ∈ users.calls.waiting) (also : (id, other) ∈ users.calls.waiting) :
    call = other :=
  (Prod.mk.inj (List.inj_on_of_nodup_map sound.nodup waits also rfl)).2

theorem find? (sound : users.Sound) (waits : (id, call) ∈ users.calls.waiting) :
    users.calls.waiting.find? (·.1 == id) = some (id, call) := by
  have some_call : (users.calls.waiting.find? (·.1 == id)).isSome :=
    List.find?_isSome.mpr ⟨(id, call), waits, beq_self_eq_true id⟩
  obtain ⟨⟨other, also⟩, found⟩ := Option.isSome_iff_exists.mp some_call
  obtain rfl : other = id := find?_id found
  rw [found, sound.unique waits (List.mem_of_find?_eq_some found)]

/-- A call stands in the line of its own side only. -/
theorem mem_line_iff (sound : users.Sound) (waits : (id, call) ∈ users.calls.waiting)
    (sending : Bool) : id ∈ users.calls.line sending ↔ call.isPut = sending := by
  refine ⟨fun stands => ?_, fun side => QueueCalls.mem_line.mpr ⟨call, waits, side⟩⟩
  obtain ⟨other, also, side⟩ := QueueCalls.mem_line.mp stands
  rwa [sound.unique waits also]

/-- The line that a call leaves is shorter by one, and the other stands as before. -/
theorem length_without (sound : users.Sound) (waits : (id, call) ∈ users.calls.waiting)
    (sending : Bool) :
    ((users.calls.line sending).filter (· != id)).length =
      (users.calls.line sending).length - if call.isPut = sending then 1 else 0 := by
  have once : (users.calls.line sending).Nodup := (sound.line_sorted sending).imp Nat.ne_of_lt
  have stands := sound.mem_line_iff waits sending
  rw [← once.erase_eq_filter]
  by_cases side : call.isPut = sending
  · rw [List.length_erase_of_mem (stands.mpr side), if_pos side]
  · rw [List.erase_of_not_mem (mt stands.mp side), if_neg side, Nat.sub_zero]

theorem leave (sound : users.Sound) (waits : (id, call) ∈ users.calls.waiting) {queue : Queue α}
    (handles : ∀ sending, queue.handles sending = users.calls.queue.handles sending)
    (emptied : (queue.dropHandle call.isPut).Emptied) :
    (users.leave id (users.calls.without id (queue.dropHandle call.isPut))).Sound where
  sorted := sound.sorted.sublist (List.filter_sublist.map Prod.fst)
  below := fun entry member => sound.below entry (List.mem_filter.mp member).1
  handles := fun sending => by
    have enough := sound.handles sending
    have shorter := sound.length_without waits sending
    rw [← handles sending] at enough
    simp only [QueueUsers.leave, QueueCalls.line_without]
    rw [shorter, QueueCalls.without, Queue.handles_dropHandle]
    exact Nat.sub_le_sub_right enough _
  holder := fun other holds => by
    have held : users.holder = some other ∧ other ≠ id := by
      simp only [QueueUsers.leave] at holds
      split at holds
      · contradiction
      · rename_i free
        exact ⟨holds, fun same => free (same ▸ holds)⟩
    obtain ⟨later, line⟩ := List.head?_eq_some_iff.mp (sound.holder other held.1)
    simp only [QueueUsers.leave, QueueCalls.line_without]
    rw [line, List.filter_cons_of_pos (by simpa using held.2), List.head?_cons]
  emptied := emptied

end Sound

theorem Sound.come (sound : users.Sound) {call : QueueCall α} (unused : users.next ≤ id) :
    Sound ⟨users.calls.join id call, users.holder, id + 1⟩ where
  sorted := by
    simp only [QueueCalls.join, List.map_append, List.pairwise_append]
    refine ⟨sound.sorted, List.pairwise_singleton _ _, ?_⟩
    intro other waits new same
    obtain ⟨entry, member, rfl⟩ := List.mem_map.mp waits
    rw [List.mem_singleton.mp same]
    exact Nat.lt_of_lt_of_le (sound.below entry member) unused
  below := fun entry member => by
    rcases List.mem_append.mp member with earlier | new
    · exact Nat.lt_succ_of_lt (Nat.lt_of_lt_of_le (sound.below entry earlier) unused)
    · rw [List.mem_singleton.mp new]
      exact Nat.lt_succ_self id
  handles := fun sending => by
    have enough := sound.handles sending
    rw [QueueCalls.line_join, QueueCalls.queue_join, Queue.handles_addHandle, List.length_append]
    split <;> simpa using enough
  holder := fun other holds => by
    rw [QueueCalls.line_join, List.head?_append, sound.holder other holds, Option.some_or]
  emptied := by
    rw [QueueCalls.queue_join]
    exact sound.emptied.addHandle _

theorem Sound.step (sound : users.Sound) (stepped : Stepped users move next sights) :
    next.Sound := by
  cases stepped with
  | come unused idle => exact sound.come unused
  | clone idle =>
    refine ⟨sound.sorted, sound.below, fun sending => ?_, sound.holder, sound.emptied.addHandle _⟩
    rw [Queue.handles_addHandle]
    exact Nat.le_add_right_of_le (sound.handles sending)
  | @drop side idle =>
    refine ⟨sound.sorted, sound.below, fun sending => ?_, sound.holder, sound.emptied.dropHandle _⟩
    have enough := sound.handles sending
    rw [QueueCalls.idle_eq] at idle
    rw [Queue.handles_dropHandle]
    show (users.calls.line sending).length ≤ _
    split
    · rename_i same
      subst same
      omega
    · exact enough
  | lock free first =>
    exact ⟨sound.sorted, sound.below, sound.handles,
      fun other holds => Option.some.inj holds ▸ first, sound.emptied⟩
  | cancel found =>
    exact sound.leave (List.mem_of_find?_eq_some found) (fun _ => rfl)
      (sound.emptied.dropHandle _)
  | serve found turn attempted =>
    have waits := List.mem_of_find?_eq_some found
    cases attempted with
    | refused closed => exact sound.leave waits (fun _ => rfl) (sound.emptied.dropHandle _)
    | queued taken free =>
      exact sound.leave waits (fun _ => rfl) fun gone => absurd gone (Nat.ne_of_gt taken)
    | taken full =>
      let emptied : Queue α := { users.calls.queue with slot := none }
      have free : emptied.Emptied := fun _ => rfl
      exact sound.leave waits (fun _ => rfl) (free.dropHandle _)
    | ended free closed => exact sound.leave waits (fun _ => rfl) (sound.emptied.dropHandle _)

end QueueUsers

end ChunkedUpload
