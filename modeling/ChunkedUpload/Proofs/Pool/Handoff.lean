import ChunkedUpload.Proofs.Pool.Use

/-! How far those who queue can be ahead of the workers. Any calls may come to a pool, at any time
and in any number; a waiting call may be dropped, and the producer may go away. What the queue has
taken and the session has not answered is at most one item for each worker and one more. -/
namespace ChunkedUpload

namespace Pool

section Backlog

variable {count : Nat} {log : List PoolNote} {pool : Pool}

theorem inFlight_eq (pool : Pool) : pool.inFlight = pool.sending.length := by
  rw [sending, List.length_filterMap_eq_countP, inFlight]
  congr 1
  funext worker
  cases worker <;> rfl

/-- At most one item lies between those that were queued and those that were taken. -/
theorem InOrder.between (order : InOrder log pool) : ∃ rest : Option Item,
    log.filterMap PoolNote.accepted? = log.filterMap PoolNote.taken? ++ rest.toList := by
  by_cases unmanned : pool.queue.receivers = 0
  · exact (order.lost unmanned).2
  · exact ⟨pool.queue.slot, order.kept unmanned⟩

theorem accepted_le (run : Run count log pool) :
    (log.filterMap PoolNote.accepted?).length ≤ (log.filterMap PoolNote.taken?).length + 1 := by
  obtain ⟨rest, between⟩ := (run_in_order run).between
  rw [between, List.length_append]
  cases rest <;> simp

/-- Every call of the session has ended or is in flight, at most one for each worker. -/
theorem calls_in_flight (run : Run count log pool) :
    (log.filterMap PoolNote.started?).length =
      (log.filterMap PoolNote.ended?).length + pool.inFlight ∧ pool.inFlight ≤ max count 1 := by
  constructor
  · rw [(run_counted run).calls.length_eq, List.length_append, List.length_map, inFlight_eq]
    exact Nat.add_comm _ _
  · rw [← workerCount_of_run run]
    exact List.countP_le_length

theorem parts_le (run : Run count log pool) :
    ((log.filterMap PoolNote.accepted?).filterMap Item.part?).length ≤
      (log.filterMap PoolNote.ended?).length + max count 1 + 1 := by
  obtain ⟨rest, between⟩ := (run_in_order run).between
  obtain ⟨calls, few⟩ := calls_in_flight run
  have last : (rest.toList.filterMap Item.part?).length ≤ 1 :=
    Nat.le_trans (List.length_filterMap_le _ _) (by cases rest <;> simp)
  rw [between, List.filterMap_append, taken_parts, List.length_append]
  omega

end Backlog

end Pool

inductive HandoffAct
  | enqueue (id : Nat) (item : Item)
  | shutdown (id : Nat)
  /-- A call that waits is dropped. -/
  | drop (id : Nat)
  /-- The producer goes away, and with it all calls that wait. -/
  | hangUp
  | move (move : PoolMove)

namespace PoolCalls

/-- One act at a pool, and what is seen of it. -/
def handoff? (calls : PoolCalls) : HandoffAct → Option (PoolCalls × List PoolSight)
  | .enqueue id item => some (calls.enqueue id item, [])
  | .shutdown id => some (calls.shutdown id, [])
  | .drop id =>
    some ({ calls with waiting := calls.waiting.filter fun entry => entry.1 != id }, [])
  | .hangUp => some (⟨{ calls.pool with queue := calls.pool.queue.dropSender }, []⟩, [])
  | .move move =>
    (calls.step? move).map fun (next, events) =>
      (next, PoolUse.handover calls.pool next.pool move ++ events.map .event)

section Handoff

variable {count : Nat} {calls next : PoolCalls} {pool : Pool} {log : List PoolNote}
  {sights seen : List PoolSight}

/-- The pool has a log that agrees with what was seen. -/
def Logged (count : Nat) (sights : List PoolSight) (pool : Pool) : Prop :=
  ∃ log, Pool.Run count log pool ∧ PoolUse.Agrees log sights

theorem Logged.same (logged : Logged count sights pool) (agrees : PoolUse.Agrees [] seen) :
    Logged count (sights ++ seen) pool := by
  obtain ⟨log, run, same⟩ := logged
  exact ⟨log, run, by simpa using same.append agrees⟩

theorem Logged.step (logged : Logged count sights pool) {note : PoolNote} {after : Pool}
    (step : Pool.Step pool note after) (agrees : PoolUse.Agrees [note] seen) :
    Logged count (sights ++ seen) after := by
  obtain ⟨log, run, same⟩ := logged
  exact ⟨log ++ [note], .step run step, same.append agrees⟩

theorem Logged.proceed (logged : Logged count sights calls.pool) {events : List PoolEvent}
    (proceeded : calls.proceed? = some (next, events)) :
    Logged count (sights ++ (PoolUse.handover calls.pool next.pool .proceed ++
      events.map .event)) next.pool := by
  rcases proceed_cases proceeded with
    ⟨id, item, rest, _, _, rfl, rfl⟩ | ⟨id, item, rest, pool, _, offered, rfl, rfl⟩ |
    ⟨id, left, rest, _, _, rfl, rfl⟩ | ⟨id, left, rest, pool, _, offered, rfl, rfl⟩
  · rw [PoolUse.handover_same]
    exact logged.same ⟨rfl, rfl, rfl, rfl, rfl, rfl⟩
  · rw [PoolUse.handover_offer offered]
    exact logged.step (Pool.step_of_offer offered) ⟨rfl, rfl, rfl, rfl, rfl, rfl⟩
  · rw [PoolUse.handover_same]
    exact logged.same ⟨rfl, rfl, rfl, rfl, rfl, rfl⟩
  · rw [PoolUse.handover_offer offered]
    exact logged.step (Pool.step_of_offer offered) ⟨rfl, rfl, rfl, rfl, rfl, rfl⟩

theorem Logged.move (logged : Logged count sights calls.pool) {move : PoolMove}
    {events : List PoolEvent} (moved : calls.step? move = some (next, events)) :
    Logged count (sights ++ (PoolUse.handover calls.pool next.pool move ++ events.map .event))
      next.pool := by
  cases move with
  | take worker =>
    obtain ⟨⟨pool, begun⟩, took, eq⟩ := Option.map_eq_some_iff.mp moved
    cases eq
    rw [PoolUse.handover]
    rcases Pool.step_of_take took with ⟨request, rfl, full, step⟩ | ⟨rfl, full, step⟩ |
      ⟨rfl, free, step⟩
    · rw [full]
      exact logged.step step ⟨rfl, rfl, rfl, rfl, rfl, rfl⟩
    · rw [full]
      exact logged.step step ⟨rfl, rfl, rfl, rfl, rfl, rfl⟩
    · rw [free]
      exact logged.step step ⟨rfl, rfl, rfl, rfl, rfl, rfl⟩
  | finish worker reply =>
    obtain ⟨⟨pool, request⟩, finished, eq⟩ := Option.map_eq_some_iff.mp moved
    cases eq
    exact logged.step (Pool.step_of_finish finished) ⟨rfl, rfl, rfl, rfl, rfl, rfl⟩
  | proceed => exact logged.proceed moved

theorem handoff_logged (count : Nat) :
    StepKeeps handoff? (fun sights calls => Logged count sights calls.pool) (fun _ => True) := by
  intro sights calls act next seen logged _ stepped
  cases act with
  | enqueue | shutdown | drop =>
    cases stepped
    exact logged.same ⟨rfl, rfl, rfl, rfl, rfl, rfl⟩
  | hangUp =>
    cases stepped
    exact logged.step .hangUp ⟨rfl, rfl, rfl, rfl, rfl, rfl⟩
  | move move =>
    obtain ⟨⟨calls, events⟩, moved, eq⟩ := Option.map_eq_some_iff.mp stepped
    cases eq
    exact logged.move moved

theorem run_logged {acts : List HandoffAct} {last : PoolCalls}
    (run : runSteps? handoff? (start count) acts = some (last, sights)) :
    Logged count sights last.pool := by
  have fresh : Logged count [] (start count).pool :=
    ⟨[], .start, ⟨rfl, rfl, rfl, rfl, rfl, rfl⟩⟩
  exact run_holds (handoff_logged count) acts _ _ _ fresh (fun _ _ => trivial) run

end Handoff

end PoolCalls

end ChunkedUpload
