import ChunkedUpload.Proofs.Pool.Steps
import Mathlib.Data.List.Count
import Mathlib.Data.List.Nodup

/-! What holds of every pool and its log: each worker that is left has its side of the queue, the
queue gives items out in their order, and every part that was taken is being sent or has its answer
counted. -/
namespace ChunkedUpload

section Workers

variable {workers : List Worker} {worker : Nat} {old : Worker}

theorem set_perm (found : workers[worker]? = some old) (new : Worker) :
    (old :: workers.set worker new).Perm (new :: workers) := by
  obtain ⟨inside, rfl⟩ := List.getElem?_eq_some_iff.mp found
  have before := List.getElem_cons_eraseIdx_perm inside
  have after := List.getElem_cons_eraseIdx_perm (l := workers.set worker new) (n := worker)
    (by simpa using inside)
  simp only [List.getElem_set_self, List.eraseIdx_set_eq] at after
  calc (workers[worker] :: workers.set worker new).Perm
        (workers[worker] :: new :: workers.eraseIdx worker) := after.symm.cons _
    _ |>.Perm (new :: workers[worker] :: workers.eraseIdx worker) := .swap _ _ _
    _ |>.Perm (new :: workers) := before.cons _

theorem countP_set_add (p : Worker → Bool) (found : workers[worker]? = some old) (new : Worker) :
    (workers.set worker new).countP p + (if p old then 1 else 0) =
      workers.countP p + if p new then 1 else 0 := by
  have same := (set_perm found new).countP_eq p
  simpa only [List.countP_cons] using same

theorem request_set_perm (found : workers[worker]? = some old) (new : Worker) :
    (old.request?.toList ++ (workers.set worker new).filterMap Worker.request?).Perm
      (new.request?.toList ++ workers.filterMap Worker.request?) := by
  have same := (set_perm found new).filterMap Worker.request?
  cases h : old.request? <;> cases h' : new.request? <;> simpa [h, h'] using same

end Workers

namespace Pool

/-- Workers that have not ended. -/
def remaining (pool : Pool) : Nat := pool.workers.countP fun worker => !worker.isGone

/-- A worker has its side of the queue until it ends, and ends only once. -/
structure Staffed (count : Nat) (log : List PoolNote) (pool : Pool) : Prop where
  size : pool.workers.length = max count 1
  receivers : pool.queue.receivers = pool.remaining
  once : (log.filterMap PoolNote.departed?).Nodup
  exited : ∀ worker ∈ log.filterMap PoolNote.departed?, pool.workers[worker]? = some .exited
  exits : pool.workers.countP (· = .exited) = (log.filterMap PoolNote.departed?).length
  senders : PoolNote.hungUp ∉ log → pool.queue.senders = 1 ∧
    log.filterMap PoolNote.departed? = log.filterMap PoolNote.dismissed?

theorem start_staffed (count : Nat) : Staffed count [] (Pool.start count) where
  size := by simp [start]
  receivers := by simp [start, remaining, Queue.fresh, Worker.isGone, List.countP_replicate]
  once := by simp
  exited := by simp
  exits := by simp [start, List.countP_replicate]
  senders := by simp [start, Queue.fresh]

section Staff

variable {count worker : Nat} {log : List PoolNote} {pool : Pool} {note : PoolNote}
  {old new last : Worker}

theorem Staffed.set (h : Staffed count log pool) (found : pool.workers[worker]? = some old)
    (here : old.isGone = false) (there : new.isGone = false) (silent : note.departed? = none)
    (dismissal : note.dismissed? = none) {next : Pool}
    (workers : next.workers = pool.workers.set worker new)
    (receivers : next.queue.receivers = pool.queue.receivers)
    (senders : next.queue.senders = pool.queue.senders) : Staffed count (log ++ [note]) next := by
  have left := countP_set_add (fun worker => !worker.isGone) found new
  have exits := countP_set_add (· = .exited) found new
  have oldStays : old ≠ .exited := by rintro rfl; contradiction
  have newStays : new ≠ .exited := by rintro rfl; contradiction
  simp only [here, there, oldStays, newStays, Bool.not_false, decide_false, if_true,
    Bool.false_eq_true, if_false, Nat.add_right_cancel_iff, Nat.add_zero] at left exits
  constructor
  · simpa [workers] using h.size
  · simp only [receivers, remaining, workers, left]
    exact h.receivers
  · simpa [silent] using h.once
  · intro other gone
    simp only [filterMap_snoc, silent, Option.toList_none, List.append_nil] at gone
    have still := h.exited other gone
    have apart : worker ≠ other := by
      rintro rfl
      rw [found] at still
      exact oldStays (Option.some.inj still)
    simpa [workers, List.getElem?_set_ne apart] using still
  · simpa [workers, exits, silent] using h.exits
  · intro connected
    simp only [List.mem_append, List.mem_singleton, not_or] at connected
    simpa [senders, silent, dismissal] using h.senders connected.1

theorem Staffed.retire (h : Staffed count log pool) (found : pool.workers[worker]? = some old)
    (here : old.isGone = false) (ended : last.isGone = true)
    (departs : note.departed? = if last = .exited then some worker else none)
    (dismissal : pool.queue.senders = 1 → note.dismissed? = note.departed?) :
    Staffed count (log ++ [note]) (pool.retire worker last) := by
  have left := countP_set_add (fun worker => !worker.isGone) found last
  have exits := countP_set_add (· = .exited) found last
  have oldStays : old ≠ .exited := by rintro rfl; contradiction
  simp only [here, ended, oldStays, Bool.not_false, Bool.not_true, decide_false, if_true,
    Bool.false_eq_true, if_false, Nat.add_zero] at left exits
  have inside : worker < pool.workers.length := (List.getElem?_eq_some_iff.mp found).1
  have absent : worker ∉ log.filterMap PoolNote.departed? := by
    intro gone
    have := h.exited worker gone
    rw [found] at this
    exact oldStays (Option.some.inj this)
  constructor
  · simpa using h.size
  · have := h.receivers
    simp only [retire_receivers, remaining, retire_workers] at this ⊢
    omega
  · rw [filterMap_snoc, departs]
    split
    · rw [Option.toList_some, ← List.concat_eq_append]
      exact List.Nodup.concat absent h.once
    · simpa using h.once
  · intro other gone
    rw [filterMap_snoc, departs, List.mem_append] at gone
    rcases gone with gone | gone
    · have apart : worker ≠ other := by rintro rfl; exact absent gone
      simpa [List.getElem?_set_ne apart] using h.exited other gone
    · split at gone
      · rename_i out
        simp only [Option.toList_some, List.mem_singleton] at gone
        subst gone
        simp [List.getElem?_set_self inside, out]
      · simp at gone
  · rw [filterMap_snoc, departs, retire_workers, exits, h.exits]
    by_cases out : last = .exited <;> simp [out]
  · intro connected
    simp only [List.mem_append, List.mem_singleton, not_or] at connected
    obtain ⟨senders, same⟩ := h.senders connected.1
    refine ⟨senders, ?_⟩
    rw [filterMap_snoc, filterMap_snoc, same, dismissal senders]

theorem Staffed.queue (h : Staffed count log pool) (silent : note.departed? = none)
    (dismissal : note.dismissed? = none) {queue : Queue Item}
    (receivers : queue.receivers = pool.queue.receivers)
    (senders : note ≠ .hungUp → queue.senders = pool.queue.senders) :
    Staffed count (log ++ [note]) { pool with queue := queue } := by
  constructor
  · exact h.size
  · exact receivers.trans h.receivers
  · simpa [silent] using h.once
  · simpa [silent] using h.exited
  · simpa [silent] using h.exits
  · intro connected
    simp only [List.mem_append, List.mem_singleton, not_or] at connected
    have kept := senders (Ne.symm connected.2)
    simpa [kept, silent, dismissal] using h.senders connected.1

theorem step_staffed {next : Pool} (step : Step pool note next) (h : Staffed count log pool) :
    Staffed count (log ++ [note]) next := by
  cases step with
  | accept => exact h.queue rfl rfl rfl (fun _ => rfl)
  | start idle _ => exact h.set idle rfl rfl rfl rfl rfl rfl rfl
  | dismiss idle _ =>
    have emptied : Staffed count log pool.emptied :=
      ⟨h.size, h.receivers, h.once, h.exited, h.exits, h.senders⟩
    exact emptied.retire idle rfl rfl rfl (fun _ => rfl)
  | desert idle _ orphaned => exact h.retire idle rfl rfl rfl (by omega)
  | deliver busy => exact h.set busy rfl rfl rfl rfl rfl rfl rfl
  | refuse busy => exact h.set busy rfl rfl rfl rfl rfl rfl rfl
  | crash busy => exact h.retire busy rfl rfl rfl (fun _ => rfl)
  | hangUp => exact h.queue rfl rfl rfl (by simp)

theorem run_staffed (run : Run count log pool) : Staffed count log pool := by
  induction run with
  | start => exact start_staffed count
  | step _ stepped ih => exact step_staffed stepped ih

theorem workerCount_of_run (run : Run count log pool) : pool.workerCount = max count 1 :=
  (run_staffed run).size

theorem Staffed.closed (staff : Staffed count log pool) :
    pool.queue.isClosed = pool.isStopped := by
  rw [Bool.eq_iff_iff, Queue.isClosed, beq_iff_eq, staff.receivers, remaining, List.countP_eq_zero,
    isStopped, List.all_eq_true]
  simp

theorem Staffed.manned (h : Staffed count log pool) (found : pool.workers[worker]? = some old)
    (here : old.isGone = false) : pool.queue.receivers ≠ 0 := by
  rw [h.receivers]
  have some_left : 0 < pool.remaining :=
    List.countP_pos_iff.mpr ⟨old, List.mem_of_getElem? found, by simp [here]⟩
  omega

end Staff

/-- Items leave the queue as they came. Only the item that is in the queue when the last worker ends
is lost. -/
structure InOrder (log : List PoolNote) (pool : Pool) : Prop where
  kept : pool.queue.receivers ≠ 0 → log.filterMap PoolNote.accepted? =
    log.filterMap PoolNote.taken? ++ pool.queue.slot.toList
  lost : pool.queue.receivers = 0 → pool.queue.slot = none ∧ ∃ rest : Option Item,
    log.filterMap PoolNote.accepted? = log.filterMap PoolNote.taken? ++ rest.toList

section Order

variable {count worker : Nat} {log : List PoolNote} {pool : Pool} {note : PoolNote}

theorem InOrder.same (h : InOrder log pool) {next : Pool} (nothing : note.accepted? = none)
    (untaken : note.taken? = none) (queue : next.queue = pool.queue) :
    InOrder (log ++ [note]) next := by
  constructor
  · intro manned
    rw [queue] at manned ⊢
    simpa [nothing, untaken] using h.kept manned
  · intro unmanned
    rw [queue] at unmanned ⊢
    simpa [nothing, untaken] using h.lost unmanned

/-- A worker that ends takes the item in the queue along if it was the last one. -/
theorem InOrder.retire (h : InOrder log pool) (manned : pool.queue.receivers ≠ 0)
    (nothing : note.accepted? = none) (untaken : note.taken? = none) (last : Worker) :
    InOrder (log ++ [note]) (pool.retire worker last) := by
  have before := h.kept manned
  constructor
  · intro others
    simp only [retire_receivers] at others
    have more : ¬ pool.queue.receivers ≤ 1 := by omega
    simpa [nothing, untaken, more] using before
  · intro alone
    simp only [retire_receivers] at alone
    have one : pool.queue.receivers ≤ 1 := by omega
    refine ⟨by simp [one], pool.queue.slot, ?_⟩
    simpa [nothing, untaken] using before

theorem step_in_order {next : Pool} (step : Step pool note next) (staff : Staffed count log pool)
    (h : InOrder log pool) : InOrder (log ++ [note]) next := by
  cases step with
  | accept manned free =>
    have before := h.kept manned
    refine ⟨fun _ => ?_, fun unmanned => absurd unmanned manned⟩
    simpa [PoolNote.accepted?, PoolNote.taken?, free] using before
  | start idle full =>
    have manned := staff.manned idle rfl
    have before := h.kept manned
    refine ⟨fun _ => ?_, fun unmanned => absurd unmanned manned⟩
    simpa [PoolNote.accepted?, PoolNote.taken?, full] using before
  | @dismiss worker idle full =>
    have before := h.kept (staff.manned idle rfl)
    have after : (log ++ [PoolNote.dismissed worker]).filterMap PoolNote.accepted? =
        (log ++ [PoolNote.dismissed worker]).filterMap PoolNote.taken? := by
      simpa [PoolNote.accepted?, PoolNote.taken?, full] using before
    refine ⟨fun _ => ?_, fun _ =>
      ⟨emptied_retire_slot pool worker .exited, none, ?_⟩⟩
    · rw [emptied_retire_slot]
      simpa using after
    · simpa using after
  | desert idle _ _ => exact h.retire (staff.manned idle rfl) rfl rfl .exited
  | deliver => exact h.same rfl rfl rfl
  | refuse => exact h.same rfl rfl rfl
  | crash busy => exact h.retire (staff.manned busy rfl) rfl rfl .crashed
  | hangUp =>
    constructor
    · intro manned
      simpa [PoolNote.accepted?, PoolNote.taken?, Queue.dropSender] using
        h.kept manned
    · intro unmanned
      simpa [PoolNote.accepted?, PoolNote.taken?, Queue.dropSender] using
        h.lost unmanned

theorem run_in_order (run : Run count log pool) : InOrder log pool := by
  induction run with
  | start =>
    refine ⟨fun _ => rfl, fun unmanned => ?_⟩
    simp only [start, Queue.fresh] at unmanned
    omega
  | step run stepped ih => exact step_in_order stepped (run_staffed run) ih

theorem InOrder.taken_isPrefix (h : InOrder log pool) :
    log.filterMap PoolNote.taken? <+: log.filterMap PoolNote.accepted? := by
  by_cases unmanned : pool.queue.receivers = 0
  · obtain ⟨_, rest, eq⟩ := h.lost unmanned
    exact ⟨rest.toList, eq.symm⟩
  · exact ⟨pool.queue.slot.toList, (h.kept unmanned).symm⟩

end Order

/-- Every part that was taken is being sent or has an answer, and every answer is counted. -/
structure Counted (log : List PoolNote) (pool : Pool) : Prop where
  calls : (log.filterMap PoolNote.started?).Perm
    (pool.sending ++ (log.filterMap PoolNote.ended?).map Prod.fst)
  delivered : pool.delivered = (log.filterMap PoolNote.ended?).countP fun call =>
    call.2 = .delivered
  failed : pool.failed = (log.filterMap PoolNote.ended?).countP fun call => call.2.isRefused
  crashed : pool.workers.countP (· = .crashed) = (log.filterMap PoolNote.ended?).countP fun call =>
    call.2 = .crashed

section Calls

variable {count worker : Nat} {log : List PoolNote} {pool : Pool} {note : PoolNote}
  {request : PartRequest} {old last : Worker}

theorem Counted.same (h : Counted log pool) {next : Pool} (unstarted : note.started? = none)
    (unended : note.ended? = none) (workers : next.workers = pool.workers)
    (delivered : next.delivered = pool.delivered) (failed : next.failed = pool.failed) :
    Counted (log ++ [note]) next := by
  constructor
  · simpa [sending, workers, unstarted, unended] using h.calls
  · simpa [delivered, unended] using h.delivered
  · simpa [failed, unended] using h.failed
  · simpa [workers, unended] using h.crashed

theorem Counted.leave (h : Counted log pool) (idle : pool.workers[worker]? = some .idle)
    (unstarted : note.started? = none) (unended : note.ended? = none) :
    Counted (log ++ [note]) (pool.retire worker .exited) := by
  have sent := request_set_perm idle .exited
  have crashes := countP_set_add (· = .crashed) idle .exited
  simp only [Worker.request?, Option.toList_none, List.nil_append] at sent
  constructor
  · simp only [List.filterMap_append, filterMap_single, unstarted, unended, Option.toList_none,
      List.append_nil]
    exact h.calls.trans (sent.symm.append_right _)
  · simpa [unended] using h.delivered
  · simpa [unended] using h.failed
  · simpa [unended, ← h.crashed] using crashes

theorem Counted.answer (h : Counted log pool) (busy : pool.workers[worker]? = some (.busy request))
    {reply : Reply} {next : Pool} (workers : next.workers = pool.workers.set worker last)
    (free : last.request? = none) (crash : last = .crashed ↔ reply = .crashed)
    (delivered : next.delivered = pool.delivered + if reply = .delivered then 1 else 0)
    (failed : next.failed = pool.failed + if reply.isRefused then 1 else 0) :
    Counted (log ++ [.ended worker request reply]) next := by
  have sent := request_set_perm busy last
  have crashes := countP_set_add (· = .crashed) busy last
  have part : (Worker.busy request).request? = some request := rfl
  simp only [part, free, Option.toList_some, Option.toList_none, List.nil_append,
    List.singleton_append] at sent
  constructor
  · simp only [List.filterMap_append, filterMap_single, PoolNote.started?, PoolNote.ended?,
      Option.toList_none, Option.toList_some, List.append_nil, List.map_append, List.map_cons,
      List.map_nil, sending, workers]
    have before := h.calls.trans
      (sent.symm.append_right ((log.filterMap PoolNote.ended?).map Prod.fst))
    rw [← List.append_assoc]
    exact before.trans (List.perm_append_singleton _ _).symm
  · simp [delivered, PoolNote.ended?, h.delivered, List.countP_singleton]
  · simp [failed, PoolNote.ended?, h.failed, List.countP_singleton]
  · simp only [reduceCtorEq, decide_false, Bool.false_eq_true, if_false, Nat.add_zero] at crashes
    simp [workers, crashes, PoolNote.ended?, h.crashed, List.countP_singleton, crash]

theorem step_counted {next : Pool} (step : Step pool note next) (h : Counted log pool) :
    Counted (log ++ [note]) next := by
  cases step with
  | accept => exact h.same rfl rfl rfl rfl rfl
  | @start worker request idle full =>
    have sent := request_set_perm idle (.busy request)
    have crashes := countP_set_add (· = .crashed) idle (.busy request)
    simp only [Worker.request?, Option.toList_none, Option.toList_some, List.nil_append,
      List.singleton_append] at sent
    constructor
    · simp only [List.filterMap_append, filterMap_single, PoolNote.started?, PoolNote.ended?,
        Option.toList_none, Option.toList_some, List.append_nil]
      exact (List.perm_append_singleton _ _).trans
        ((h.calls.cons request).trans (sent.symm.append_right _))
    · simpa [PoolNote.ended?] using h.delivered
    · simpa [PoolNote.ended?] using h.failed
    · simpa [PoolNote.ended?, ← h.crashed] using crashes
  | dismiss idle _ =>
    have emptied : Counted log pool.emptied := ⟨h.calls, h.delivered, h.failed, h.crashed⟩
    exact emptied.leave idle rfl rfl
  | desert idle _ _ => exact h.leave idle rfl rfl
  | deliver busy => exact h.answer busy rfl rfl (by simp) rfl rfl
  | refuse busy => exact h.answer busy rfl rfl (by simp) rfl rfl
  | crash busy => exact h.answer busy rfl rfl (by simp) rfl rfl
  | hangUp => exact h.same rfl rfl rfl rfl rfl

theorem run_counted (run : Run count log pool) : Counted log pool := by
  induction run with
  | start =>
    constructor
    · simp [start, sending, Worker.request?, List.filterMap_replicate]
    · rfl
    · rfl
    · simp [start, List.countP_replicate]
  | step _ stepped ih => exact step_counted stepped ih

end Calls

end Pool

end ChunkedUpload
