import ChunkedUpload.Proofs.Queue.Steps
import Mathlib.Data.List.Pairwise

/-! The history of a queue: which calls came, which gave up, and what the others were told. Items
are handed on in the order in which they were accepted, and each side is served in the order of
arrival. -/
namespace ChunkedUpload

variable {α : Type}

namespace QueueSight

def came? : QueueSight α → Option Nat
  | came id _ => some id
  | left _ | served .. => none

/-- The call that has come to its end, with or without a reply. -/
def ends? : QueueSight α → Option Nat
  | came .. => none
  | left id | served id .. => some id

def accepted? : QueueSight α → Option (Nat × α)
  | served id (.put item) .queued => some (id, item)
  | _ => none

/-- What a take was told: its item, or that there will be none. -/
def answered? : QueueSight α → Option (Nat × Option α)
  | served id .take (.taken item) => some (id, some item)
  | served id .take .ended => some (id, none)
  | _ => none

end QueueSight

namespace QueueUsers

section Sights

variable (sights : List (QueueSight α))

def arrivals : List Nat := sights.filterMap QueueSight.came?

def endings : List Nat := sights.filterMap QueueSight.ends?

/-- The items that were accepted, with the calls that put them. -/
def accepted : List (Nat × α) := sights.filterMap QueueSight.accepted?

def answered : List (Nat × Option α) := sights.filterMap QueueSight.answered?

/-- The items that takes have returned. -/
def returned : List α := (answered sights).filterMap Prod.snd

variable {sights} {id : Nat}

theorem accepted_append (past : List (QueueSight α)) :
    accepted (past ++ sights) = accepted past ++ accepted sights :=
  List.filterMap_append

theorem answered_append (past : List (QueueSight α)) :
    answered (past ++ sights) = answered past ++ answered sights :=
  List.filterMap_append

theorem returned_append (past : List (QueueSight α)) :
    returned (past ++ sights) = returned past ++ returned sights := by
  rw [returned, answered_append, List.filterMap_append]
  rfl

theorem ends_of_accepted (done : id ∈ (accepted sights).map Prod.fst) : id ∈ endings sights := by
  obtain ⟨⟨other, item⟩, member, rfl⟩ := List.mem_map.mp done
  obtain ⟨sight, seen, same⟩ := List.mem_filterMap.mp member
  refine List.mem_filterMap.mpr ⟨sight, seen, ?_⟩
  unfold QueueSight.accepted? at same
  split at same
  · cases same
    rfl
  · contradiction

theorem ends_of_answered (done : id ∈ (answered sights).map Prod.fst) : id ∈ endings sights := by
  obtain ⟨⟨other, item⟩, member, rfl⟩ := List.mem_map.mp done
  obtain ⟨sight, seen, same⟩ := List.mem_filterMap.mp member
  refine List.mem_filterMap.mpr ⟨sight, seen, ?_⟩
  unfold QueueSight.answered? at same
  split at same
  · cases same
    rfl
  · cases same
    rfl
  · contradiction

end Sights

/-- Those served so far and then those in the line, all in the order of arrival. -/
def InTurn (done line : List Nat) : Prop := (done ++ line).Pairwise (· < ·)

namespace InTurn

variable {done line : List Nat} {id : Nat}

theorem come (turn : InTurn done line) (last : ∀ other ∈ done ++ line, other < id) :
    InTurn done (line ++ [id]) := by
  rw [InTurn, ← List.append_assoc, List.pairwise_append]
  exact ⟨turn, List.pairwise_singleton _ _, fun other member new same =>
    List.mem_singleton.mp same ▸ last other member⟩

theorem leave (turn : InTurn done line) (stays : Nat → Bool) {more : List Nat}
    (nobody : more = []) : InTurn (done ++ more) (line.filter stays) := by
  rw [nobody, List.append_nil]
  exact turn.sublist (List.filter_sublist.append_left done)

/-- The first of the line is served and leaves it. -/
theorem served (turn : InTurn done line) (first : line.head? = some id) :
    InTurn (done ++ [id]) (line.filter (· != id)) := by
  obtain ⟨later, rfl⟩ := List.head?_eq_some_iff.mp first
  rw [InTurn, List.filter_cons_of_neg (by simp), List.append_assoc, List.singleton_append]
  exact turn.sublist ((List.filter_sublist.cons_cons id).append_left done)

end InTurn

/-- The items that were accepted are those that were returned, with at most one more behind them. As
long as anybody can take it, it is in the slot. -/
def Handed (accepted returned : List α) (queue : Queue α) : Prop :=
  ∃ rest, accepted = returned ++ rest ∧ rest.length ≤ 1 ∧
    (0 < queue.receivers → rest = queue.slot.toList)

namespace Handed

variable {queue after : Queue α} {items given : List α} {item : α}

theorem keep (handed : Handed items given queue)
    (kept : 0 < after.receivers → 0 < queue.receivers ∧ after.slot = queue.slot) :
    Handed items given after := by
  obtain ⟨rest, same, few, held⟩ := handed
  refine ⟨rest, same, few, fun taken => ?_⟩
  obtain ⟨before, slot⟩ := kept taken
  rw [slot, held before]

theorem dropHandle (handed : Handed items given queue) (side : Bool) :
    Handed items given (queue.dropHandle side) := by
  refine handed.keep fun taken => ?_
  have fewer : (queue.dropHandle side).receivers ≤ queue.receivers := by
    cases side
    · exact Nat.sub_le _ _
    · exact Nat.le_refl _
  rcases queue.slot_dropHandle side with same | ⟨-, gone⟩
  · exact ⟨Nat.lt_of_lt_of_le taken fewer, same⟩
  · exact absurd gone (Nat.ne_of_gt taken)

theorem addHandle {side : Bool} (handed : Handed items given queue)
    (some_left : 0 < queue.handles side) : Handed items given (queue.addHandle side) := by
  refine handed.keep fun taken => ⟨?_, queue.slot_addHandle side⟩
  cases side
  · exact some_left
  · exact taken

theorem put (handed : Handed items given queue) (taken : 0 < queue.receivers)
    (free : queue.slot = none) :
    Handed (items ++ [item]) given { queue with slot := some item } := by
  obtain ⟨rest, rfl, few, held⟩ := handed
  obtain rfl : rest = [] := by rw [held taken, free]; rfl
  exact ⟨[item], by rw [List.append_nil], Nat.le_refl 1, fun _ => rfl⟩

theorem take (handed : Handed items given queue) (taken : 0 < queue.receivers)
    (full : queue.slot = some item) :
    Handed items (given ++ [item]) { queue with slot := none } := by
  obtain ⟨rest, rfl, few, held⟩ := handed
  obtain rfl : rest = [item] := by rw [held taken, full]; rfl
  exact ⟨[], by rw [List.append_nil], Nat.zero_le 1, fun _ => rfl⟩

end Handed

variable {users next : QueueUsers α} {move : QueueMove α} {past sights : List (QueueSight α)}
  {id : Nat} {call : QueueCall α}

/-- The calls that have come so far, each of which has one end at most. -/
structure Counted (past : List (QueueSight α)) (users : QueueUsers α) : Prop where
  sorted : (arrivals past).Pairwise (· < ·)
  below : ∀ id ∈ arrivals past, id < users.next
  known : ∀ entry ∈ users.calls.waiting, .came entry.1 entry.2 ∈ past
  own : ∀ id call reply, .served id call reply ∈ past → .came id call ∈ past
  once : (endings past ++ users.calls.waiting.map Prod.fst).Nodup
  spent : ∀ id ∈ endings past, id < users.next

theorem Counted.come (counted : Counted past users) (sound : users.Sound)
    (unused : users.next ≤ id) :
    Counted (past ++ [.came id call]) ⟨users.calls.join id call, users.holder, id + 1⟩ where
  sorted := by
    rw [arrivals, List.filterMap_append, List.pairwise_append]
    exact ⟨counted.sorted, List.pairwise_singleton _ _, fun other member new same =>
      List.mem_singleton.mp same ▸ Nat.lt_of_lt_of_le (counted.below other member) unused⟩
  below := fun other member => by
    rw [arrivals, List.filterMap_append] at member
    rcases List.mem_append.mp member with earlier | new
    · exact Nat.lt_succ_of_lt (Nat.lt_of_lt_of_le (counted.below other earlier) unused)
    · rw [List.mem_singleton.mp new]
      exact Nat.lt_succ_self id
  known := fun entry member => by
    rcases List.mem_append.mp member with earlier | new
    · exact List.mem_append_left _ (counted.known entry earlier)
    · rw [List.mem_singleton.mp new]
      exact List.mem_append_right _ List.mem_cons_self
  own := fun other call reply served => by
    rcases List.mem_append.mp served with earlier | new
    · exact List.mem_append_left _ (counted.own other call reply earlier)
    · cases List.mem_singleton.mp new
  once := by
    have new : id ∉ endings past ++ users.calls.waiting.map Prod.fst := by
      intro member
      rcases List.mem_append.mp member with spent | waits
      · exact absurd (counted.spent id spent) (Nat.not_lt_of_le unused)
      · obtain ⟨entry, stands, rfl⟩ := List.mem_map.mp waits
        exact absurd (sound.below entry stands) (Nat.not_lt_of_le unused)
    rw [endings, List.filterMap_append, ← endings]
    simp only [QueueCalls.join, List.map_append, List.filterMap_cons, QueueSight.ends?,
      List.filterMap_nil, List.append_nil, ← List.append_assoc]
    exact counted.once.append (List.nodup_singleton id)
      (List.disjoint_singleton.mpr new)
  spent := fun other member => by
    rw [endings, List.filterMap_append, ← endings] at member
    have earlier : other ∈ endings past := by simpa [QueueSight.ends?] using member
    exact Nat.lt_succ_of_lt (Nat.lt_of_lt_of_le (counted.spent other earlier) unused)

theorem Counted.leave (counted : Counted past users) (sound : users.Sound)
    (waits : (id, call) ∈ users.calls.waiting) (queue : Queue α) {sight : QueueSight α}
    (spent : sight = .left id ∨ ∃ reply, sight = .served id call reply) :
    Counted (past ++ [sight]) (users.leave id (users.calls.without id queue)) := by
  have known := counted.known _ waits
  have quiet : sight.came? = none := by rcases spent with rfl | ⟨_, rfl⟩ <;> rfl
  have ends : sight.ends? = some id := by rcases spent with rfl | ⟨_, rfl⟩ <;> rfl
  have same : arrivals (past ++ [sight]) = arrivals past := by
    simp [arrivals, quiet]
  have more : endings (past ++ [sight]) = endings past ++ [id] := by
    simp [endings, ends]
  refine ⟨same ▸ counted.sorted, same ▸ counted.below, fun entry member => ?_,
    fun other call reply served => ?_, ?_, fun other member => ?_⟩
  · exact List.mem_append_left _ (counted.known entry (List.mem_filter.mp member).1)
  · rcases List.mem_append.mp served with earlier | new
    · exact List.mem_append_left _ (counted.own other call reply earlier)
    · rcases spent with rfl | ⟨_, rfl⟩
      · cases List.mem_singleton.mp new
      · cases List.mem_singleton.mp new
        exact List.mem_append_left _ known
  · have stays : (users.leave id (users.calls.without id queue)).calls.waiting.map Prod.fst =
        (users.calls.waiting.map Prod.fst).erase id := by
      rw [sound.nodup.erase_eq_filter, List.filter_map]
      rfl
    have stands : id ∈ users.calls.waiting.map Prod.fst := List.mem_map.mpr ⟨_, waits, rfl⟩
    rw [more, stays, List.append_assoc]
    exact ((List.perm_cons_erase stands).append_left _).nodup_iff.mp counted.once
  · rw [more] at member
    rcases List.mem_append.mp member with earlier | new
    · exact counted.spent other earlier
    · rw [List.mem_singleton.mp new]
      exact sound.below _ waits

theorem Counted.step (counted : Counted past users) (sound : users.Sound)
    (stepped : Stepped users move next sights) : Counted (past ++ sights) next := by
  cases stepped with
  | come unused idle => exact counted.come sound unused
  | cancel found => exact counted.leave sound (List.mem_of_find?_eq_some found) _ (.inl rfl)
  | clone idle | drop idle | lock free first =>
    rw [List.append_nil]
    exact ⟨counted.sorted, counted.below, counted.known, counted.own, counted.once, counted.spent⟩
  | serve found turn attempted =>
    exact counted.leave sound (List.mem_of_find?_eq_some found) _ (.inr ⟨_, rfl⟩)

/-- A take that is served holds the lock, and a put that is accepted is the first of its line. -/
theorem first_of_mayGo {sending : Bool} (sound : users.Sound) (turn : users.mayGo id call = true)
    (side : call.isPut = sending) (taken : sending = true → 0 < users.calls.queue.receivers) :
    (users.calls.line sending).head? = some id := by
  cases call with
  | put item =>
    obtain rfl : true = sending := side
    have some_left := taken rfl
    simp only [mayGo, Queue.isClosed, Bool.or_eq_true, beq_iff_eq] at turn
    exact turn.resolve_left (Nat.ne_of_gt some_left)
  | take =>
    obtain rfl : false = sending := side
    exact sound.holder id (beq_iff_eq.mp turn)

theorem line_leave (queue : Queue α) (sending : Bool) :
    (users.leave id (users.calls.without id queue)).calls.line sending =
      (users.calls.line sending).filter (· != id) :=
  QueueCalls.line_without _ _ _ _

theorem handle_of_waiting (sound : users.Sound) (waits : (id, call) ∈ users.calls.waiting) :
    0 < users.calls.queue.handles call.isPut :=
  Nat.lt_of_lt_of_le
    (List.length_pos_of_mem (QueueCalls.mem_line.mpr ⟨call, waits, rfl⟩)) (sound.handles _)

theorem inTurn_come {done : List Nat} {sending : Bool} (sound : users.Sound)
    (turn : InTurn done (users.calls.line sending)) (unused : users.next ≤ id)
    (spent : ∀ other ∈ done, other < users.next) :
    InTurn done ((users.calls.join id call).line sending) := by
  rw [QueueCalls.line_join]
  split
  · refine turn.come fun other member => Nat.lt_of_lt_of_le ?_ unused
    rcases List.mem_append.mp member with earlier | stands
    · exact spent other earlier
    · exact sound.below_line stands
  · rwa [List.append_nil]

/-- The calls of both sides are served in turn. -/
def Orderly (past : List (QueueSight α)) (users : QueueUsers α) : Prop :=
  InTurn ((accepted past).map Prod.fst) (users.calls.line true) ∧
    InTurn ((answered past).map Prod.fst) (users.calls.line false)

theorem orderly_of_quiet (accepts : accepted sights = []) (answers : answered sights = [])
    (puts : InTurn ((accepted past).map Prod.fst) (next.calls.line true))
    (takes : InTurn ((answered past).map Prod.fst) (next.calls.line false)) :
    Orderly (past ++ sights) next := by
  rw [Orderly, accepted_append, answered_append, accepts, answers, List.append_nil,
    List.append_nil]
  exact ⟨puts, takes⟩

/-- A call leaves its line, with or without having been served. -/
theorem orderly_of_leave {queue : Queue α}
    (puts : InTurn ((accepted past).map Prod.fst ++ (accepted sights).map Prod.fst)
      ((users.calls.line true).filter (· != id)))
    (takes : InTurn ((answered past).map Prod.fst ++ (answered sights).map Prod.fst)
      ((users.calls.line false).filter (· != id))) :
    Orderly (past ++ sights) (users.leave id (users.calls.without id queue)) := by
  rw [Orderly, accepted_append, answered_append, List.map_append, List.map_append, line_leave,
    line_leave]
  exact ⟨puts, takes⟩

theorem Orderly.step (orderly : Orderly past users) (counted : Counted past users)
    (sound : users.Sound) (stepped : Stepped users move next sights) :
    Orderly (past ++ sights) next := by
  obtain ⟨puts, takes⟩ := orderly
  cases stepped with
  | come unused idle =>
    exact orderly_of_quiet rfl rfl
      (inTurn_come sound puts unused fun other done => counted.spent other (ends_of_accepted done))
      (inTurn_come sound takes unused fun other done => counted.spent other (ends_of_answered done))
  | clone idle | drop idle | lock free first => exact orderly_of_quiet rfl rfl puts takes
  | cancel found => exact orderly_of_leave (puts.leave _ rfl) (takes.leave _ rfl)
  | serve found turn attempted =>
    cases attempted with
    | refused closed => exact orderly_of_leave (puts.leave _ rfl) (takes.leave _ rfl)
    | queued taken free =>
      have first := first_of_mayGo sound turn rfl fun _ => taken
      exact orderly_of_leave (puts.served first) (takes.leave _ rfl)
    | taken full =>
      have first := first_of_mayGo sound turn rfl nofun
      exact orderly_of_leave (puts.leave _ rfl) (takes.served first)
    | ended free closed =>
      have first := first_of_mayGo sound turn rfl nofun
      exact orderly_of_leave (puts.leave _ rfl) (takes.served first)

theorem handed_of_quiet (accepts : accepted sights = []) (returns : returned sights = [])
    (handed : Handed ((accepted past).map Prod.snd) (returned past) next.calls.queue) :
    Handed ((accepted (past ++ sights)).map Prod.snd) (returned (past ++ sights))
      next.calls.queue := by
  rwa [accepted_append, returned_append, accepts, returns, List.append_nil, List.append_nil]

/-- The items go through the queue one by one. -/
theorem handed_step
    (handed : Handed ((accepted past).map Prod.snd) (returned past) users.calls.queue)
    (sound : users.Sound) (stepped : Stepped users move next sights) :
    Handed ((accepted (past ++ sights)).map Prod.snd) (returned (past ++ sights))
      next.calls.queue := by
  cases stepped with
  | come unused idle =>
    refine handed_of_quiet rfl rfl ?_
    rw [QueueCalls.queue_join]
    exact handed.addHandle (QueueCalls.handles_pos idle)
  | clone idle => exact handed_of_quiet rfl rfl (handed.addHandle (QueueCalls.handles_pos idle))
  | drop idle | cancel found => exact handed_of_quiet rfl rfl (handed.dropHandle _)
  | lock free first => exact handed_of_quiet rfl rfl handed
  | serve found turn attempted =>
    have held := handle_of_waiting sound (List.mem_of_find?_eq_some found)
    cases attempted with
    | refused closed | ended free closed => exact handed_of_quiet rfl rfl (handed.dropHandle _)
    | queued taken free =>
      rw [accepted_append, returned_append, List.map_append]
      exact (List.append_nil _).symm ▸ (handed.put taken free).dropHandle true
    | taken full =>
      rw [accepted_append, returned_append, List.map_append]
      exact (List.append_nil _).symm ▸ (handed.take held full).dropHandle false

/-- A side that has no handle left gets none any more. -/
theorem handles_eq_zero_step {side : Bool} (gone : users.calls.queue.handles side = 0)
    (stepped : Stepped users move next sights) : next.calls.queue.handles side = 0 := by
  cases stepped with
  | come unused idle =>
    have some_left := QueueCalls.handles_pos idle
    rw [QueueCalls.queue_join, Queue.handles_addHandle, gone, Nat.zero_add, if_neg]
    rintro rfl
    exact absurd gone (Nat.ne_of_gt some_left)
  | clone idle =>
    have some_left := QueueCalls.handles_pos idle
    rw [Queue.handles_addHandle, gone, Nat.zero_add, if_neg]
    rintro rfl
    exact absurd gone (Nat.ne_of_gt some_left)
  | drop idle | cancel found => exact Queue.handles_dropHandle_zero _ gone
  | lock free first => exact gone
  | serve found turn attempted =>
    cases attempted with
    | refused | queued | taken | ended => exact Queue.handles_dropHandle_zero _ gone

/-- Once nothing is left and nobody sends, nothing goes through the queue. -/
theorem quiet_step (sound : users.Sound) (gone : users.calls.queue.senders = 0)
    (empty : users.calls.queue.slot = none) (stepped : Stepped users move next sights) :
    accepted sights = [] ∧ returned sights = [] ∧ next.calls.queue.slot = none := by
  cases stepped with
  | come unused idle =>
    refine ⟨rfl, rfl, ?_⟩
    rw [QueueCalls.queue_join, Queue.slot_addHandle, empty]
  | clone idle => exact ⟨rfl, rfl, by rw [Queue.slot_addHandle, empty]⟩
  | drop idle | cancel found => exact ⟨rfl, rfl, Queue.slot_dropHandle_none _ empty⟩
  | lock free first => exact ⟨rfl, rfl, empty⟩
  | serve found turn attempted =>
    have held := handle_of_waiting sound (List.mem_of_find?_eq_some found)
    cases attempted with
    | refused | ended => exact ⟨rfl, rfl, Queue.slot_dropHandle_none _ empty⟩
    | queued taken free => exact absurd gone (Nat.ne_of_gt held)
    | taken full => cases empty.symm.trans full

/-- What a refusal and an end tell about the queue, then and later. -/
structure Closed (past : List (QueueSight α)) (users : QueueUsers α) : Prop where
  refused : ∀ id call item, .served id call (.refused item) ∈ past →
    call = .put item ∧ users.calls.queue.receivers = 0
  ended : ∀ id call, .served id call .ended ∈ past →
    call = .take ∧ users.calls.queue.senders = 0 ∧ users.calls.queue.slot = none ∧
      (accepted past).map Prod.snd = returned past

/-- When a take is told that nothing will come, all that was accepted has been returned. -/
theorem returned_of_empty
    (handed : Handed ((accepted past).map Prod.snd) (returned past) users.calls.queue)
    (taken : 0 < users.calls.queue.receivers) (empty : users.calls.queue.slot = none) :
    (accepted past).map Prod.snd = returned past := by
  obtain ⟨rest, same, -, held⟩ := handed
  rw [same, held taken, empty]
  exact List.append_nil _

theorem Closed.step (closed : Closed past users) (sound : users.Sound)
    (handed : Handed ((accepted past).map Prod.snd) (returned past) users.calls.queue)
    (stepped : Stepped users move next sights) : Closed (past ++ sights) next where
  refused := fun id call item served => by
    rcases List.mem_append.mp served with earlier | new
    · obtain ⟨own, gone⟩ := closed.refused id call item earlier
      have none_left : users.calls.queue.handles false = 0 := gone
      exact ⟨own, handles_eq_zero_step none_left stepped⟩
    · cases stepped with
      | serve found turn attempted =>
        cases List.mem_singleton.mp new
        cases attempted with
        | refused gone =>
          have none_left : users.calls.queue.handles false = 0 := gone
          exact ⟨rfl, Queue.handles_dropHandle_zero true none_left⟩
      | come | cancel => cases List.mem_singleton.mp new
      | clone | drop | lock => cases new
  ended := fun id call served => by
    rcases List.mem_append.mp served with earlier | new
    · obtain ⟨own, gone, empty, all⟩ := closed.ended id call earlier
      obtain ⟨accepts, returns, empty⟩ := quiet_step sound gone empty stepped
      have none_left : users.calls.queue.handles true = 0 := gone
      refine ⟨own, handles_eq_zero_step none_left stepped, empty, ?_⟩
      rw [accepted_append, returned_append, accepts, returns, List.append_nil, List.append_nil, all]
    · cases stepped with
      | serve found turn attempted =>
        have held := handle_of_waiting sound (List.mem_of_find?_eq_some found)
        cases List.mem_singleton.mp new
        cases attempted with
        | ended empty gone =>
          have none_left : users.calls.queue.handles true = 0 := gone
          refine ⟨rfl, Queue.handles_dropHandle_zero false none_left,
            Queue.slot_dropHandle_none _ empty, ?_⟩
          rw [accepted_append, returned_append, List.map_append]
          exact (List.append_nil _).trans
            ((returned_of_empty handed held empty).trans (List.append_nil _).symm)
      | come | cancel => cases List.mem_singleton.mp new
      | clone | drop | lock => cases new

theorem eq_of_filterMap {β γ : Type} {f : β → Option γ} {list : List β} {a b : β} {c : γ}
    (once : (list.filterMap f).Nodup) (left : a ∈ list) (right : b ∈ list) (first : f a = some c)
    (second : f b = some c) : a = b := by
  have symm : Std.Symm fun a b : β => ∀ x, f a = some x → ∀ y, f b = some y → x ≠ y :=
    ⟨fun _ _ apart x same y also => (apart y also x same).symm⟩
  by_contra different
  exact (List.pairwise_filterMap.mp once).forall left right different c first c second rfl

theorem came_unique (sorted : (arrivals past).Pairwise (· < ·)) {call other : QueueCall α}
    (seen : .came id call ∈ past) (also : .came id other ∈ past) : call = other := by
  have once : (arrivals past).Nodup := sorted.imp Nat.ne_of_lt
  cases eq_of_filterMap once seen also rfl rfl
  rfl

theorem mem_accepted {item : α} :
    (id, item) ∈ accepted past ↔ .served id (.put item) .queued ∈ past := by
  rw [accepted, List.mem_filterMap]
  constructor
  · rintro ⟨sight, seen, same⟩
    unfold QueueSight.accepted? at same
    split at same
    · cases same
      exact seen
    · contradiction
  · exact fun seen => ⟨_, seen, rfl⟩

/-- What is known of a queue after its calls have moved in any order. -/
structure Lawful (past : List (QueueSight α)) (users : QueueUsers α) : Prop where
  /-- Takes return the first of the accepted items, in order. At most one item more was accepted. -/
  handed : Handed ((accepted past).map Prod.snd) (returned past) users.calls.queue
  arrived : (arrivals past).Pairwise (· < ·)
  /-- Each side is served in the order of arrival, and those who wait came after those served. -/
  orderly : Orderly past users
  once : (endings past).Nodup
  own : ∀ id call reply, .served id call reply ∈ past → .came id call ∈ past
  /-- Nobody gets the item of a put that was not accepted, unless somebody else put it too. -/
  unreturned : ∀ id item, .came id (.put item) ∈ past →
    (.left id ∈ past ∨ .served id (.put item) (.refused item) ∈ past) →
    id ∉ (accepted past).map Prod.fst ∧
      ((∀ other, .came other (.put item) ∈ past → other = id) → item ∉ returned past)
  /-- A put is refused with its own item, when nobody is left to take it. -/
  refused : ∀ id call item, .served id call (.refused item) ∈ past →
    call = .put item ∧ users.calls.queue.receivers = 0
  /-- Nothing will come when nobody is left to put it and all that was accepted was returned. -/
  ended : ∀ id call, .served id call .ended ∈ past →
    call = .take ∧ users.calls.queue.senders = 0 ∧ users.calls.line true = [] ∧
      (accepted past).map Prod.snd = returned past

/-- All that moves keep. -/
structure Kept (past : List (QueueSight α)) (users : QueueUsers α) : Prop where
  sound : users.Sound
  counted : Counted past users
  orderly : Orderly past users
  handed : Handed ((accepted past).map Prod.snd) (returned past) users.calls.queue
  closed : Closed past users

theorem kept_fresh : Kept [] (fresh : QueueUsers α) where
  sound := sound_fresh
  counted := ⟨.nil, nofun, nofun, nofun, .nil, nofun⟩
  orderly := ⟨.nil, .nil⟩
  handed := ⟨[], rfl, Nat.zero_le 1, fun _ => rfl⟩
  closed := ⟨nofun, nofun⟩

theorem keeps_step : StepKeeps step? (Kept (α := α)) fun _ => True := by
  intro past users move next sights kept _ stepped
  have stepped := step?_eq_some_iff.mp stepped
  exact ⟨kept.sound.step stepped, kept.counted.step kept.sound stepped,
    kept.orderly.step kept.counted kept.sound stepped, handed_step kept.handed kept.sound stepped,
    kept.closed.step kept.sound kept.handed stepped⟩

theorem kept_of_run {moves : List (QueueMove α)}
    (run : runSteps? step? fresh moves = some (users, past)) : Kept past users :=
  run_holds keeps_step moves fresh users past kept_fresh (fun _ _ => trivial) run

namespace Kept

variable (kept : Kept past users)
include kept

theorem once : (endings past).Nodup := kept.counted.once.of_append_left

theorem unreturned {item : α} (came : .came id (.put item) ∈ past)
    (spent : .left id ∈ past ∨ .served id (.put item) (.refused item) ∈ past) :
    id ∉ (accepted past).map Prod.fst ∧
      ((∀ other, .came other (.put item) ∈ past → other = id) → item ∉ returned past) := by
  have unaccepted : id ∉ (accepted past).map Prod.fst := by
    intro done
    obtain ⟨⟨_, other⟩, member, rfl⟩ := List.mem_map.mp done
    have served := mem_accepted.mp member
    rcases spent with left | refused
    · cases eq_of_filterMap kept.once left served rfl rfl
    · cases eq_of_filterMap kept.once refused served rfl rfl
  refine ⟨unaccepted, fun alone given => ?_⟩
  obtain ⟨rest, same, -⟩ := kept.handed
  have taken : item ∈ (accepted past).map Prod.snd := same ▸ List.mem_append_left rest given
  obtain ⟨⟨other, _⟩, member, rfl⟩ := List.mem_map.mp taken
  have put := kept.counted.own _ _ _ (mem_accepted.mp member)
  exact unaccepted (List.mem_map.mpr ⟨_, member, alone other put⟩)

theorem ended (served : .served id call .ended ∈ past) :
    call = .take ∧ users.calls.queue.senders = 0 ∧ users.calls.line true = [] ∧
      (accepted past).map Prod.snd = returned past := by
  obtain ⟨own, gone, -, all⟩ := kept.closed.ended id call served
  have enough : (users.calls.line true).length ≤ users.calls.queue.senders :=
    kept.sound.handles true
  exact ⟨own, gone, List.eq_nil_of_length_eq_zero (Nat.le_zero.mp (gone ▸ enough)), all⟩

theorem lawful : Lawful past users where
  handed := kept.handed
  arrived := kept.counted.sorted
  orderly := kept.orderly
  once := kept.once
  own := kept.counted.own
  unreturned := fun _ _ => kept.unreturned
  refused := kept.closed.refused
  ended := fun _ _ => kept.ended

end Kept

end QueueUsers

end ChunkedUpload
