import ChunkedUpload.Proofs.Pool.Stopped
import Mathlib.Algebra.BigOperators.Group.List.Basic
import Mathlib.Algebra.GroupWithZero.Nat

/-! How long a pool can go on by itself, and that it does. Whatever a worker does lowers the load of
its pool; and as long as a worker is left that has something to take, or sends something, one of
them can move. -/
namespace ChunkedUpload

/-- How many steps of workers an item is worth. -/
def Item.weight : Item → Nat
  | .part _ => 2
  | .shutdown => 1

/-- How many steps a worker has before it, without what it may take. -/
def Worker.weight : Worker → Nat
  | .idle => 1
  | .busy _ => 2
  | .exited | .crashed => 0

namespace Pool

def slotWeight (slot : Option Item) : Nat := (slot.map Item.weight).getD 0

/-- What the workers have to do, if nothing more gets into the queue. -/
def load (pool : Pool) : Nat :=
  slotWeight pool.queue.slot + (pool.workers.map Worker.weight).sum

theorem load_start (count : Nat) : (start count).load = max count 1 := by
  simp [load, slotWeight, start, Queue.fresh, Worker.weight]

theorem load_le (pool : Pool) : pool.load ≤ 2 * pool.workerCount + 2 := by
  have slot : slotWeight pool.queue.slot ≤ 2 := by
    rcases pool.queue.slot with _ | _ | _ <;> simp [slotWeight, Item.weight]
  have workers : (pool.workers.map Worker.weight).sum ≤ 2 * pool.workers.length := by
    induction pool.workers with
    | nil => exact Nat.le_refl 0
    | cons worker rest ih =>
      have one : worker.weight ≤ 2 := by cases worker <;> simp [Worker.weight]
      simp only [List.map_cons, List.sum_cons, List.length_cons]
      omega
  simp only [load, workerCount]
  omega

theorem load_of_offer {pool next : Pool} {item : Item} (offered : pool.offer? item = some next) :
    next.load = pool.load + item.weight := by
  cases step_of_offer offered with
  | accept _ free =>
    simp only [load, slotWeight, free, Option.map_some, Option.getD_some, Option.map_none,
      Option.getD_none]
    omega

theorem weight_set {workers : List Worker} {worker : Nat} {old : Worker}
    (found : workers[worker]? = some old) (new : Worker) :
    old.weight + ((workers.set worker new).map Worker.weight).sum =
      new.weight + (workers.map Worker.weight).sum := by
  have same := ((set_perm found new).map Worker.weight).sum_eq
  simpa using same

theorem slotWeight_retire (pool : Pool) (worker : Nat) (last : Worker) :
    slotWeight (pool.retire worker last).queue.slot ≤ slotWeight pool.queue.slot := by
  rw [retire_slot]
  split
  · exact Nat.zero_le _
  · exact Nat.le_refl _

theorem step_load {pool next : Pool} {note : PoolNote} (step : Step pool note next)
    (unaccepted : note.accepted? = none) (working : note ≠ .hungUp) : next.load < pool.load := by
  cases step with
  | accept => contradiction
  | hangUp => contradiction
  | @start worker request idle full =>
    have weight := weight_set idle (.busy request)
    simp only [load, full, emptied_queue, slotWeight, Option.map_some, Option.map_none,
      Option.getD_some, Option.getD_none, Item.weight, Worker.weight] at weight ⊢
    omega
  | @dismiss worker idle full =>
    have weight := weight_set idle .exited
    have empty := emptied_retire_slot pool worker .exited
    simp only [load, full, empty, retire_workers, emptied_workers, slotWeight, Option.map_some,
      Option.map_none, Option.getD_some, Option.getD_none, Item.weight, Worker.weight] at weight ⊢
    omega
  | @desert worker idle =>
    have weight := weight_set idle .exited
    have slot := slotWeight_retire pool worker .exited
    simp only [load, retire_workers, Worker.weight] at weight ⊢
    omega
  | deliver busy =>
    have weight := weight_set busy .idle
    simp only [load, Worker.weight] at weight ⊢
    omega
  | refuse busy =>
    have weight := weight_set busy .idle
    simp only [load, Worker.weight] at weight ⊢
    omega
  | @crash worker request busy =>
    have weight := weight_set busy .crashed
    have slot := slotWeight_retire pool worker .crashed
    simp only [load, retire_workers, Worker.weight] at weight ⊢
    omega

theorem load_of_take {pool next : Pool} {worker : Nat} {begun : Option PartRequest}
    (took : pool.take? worker = some (next, begun)) : next.load < pool.load := by
  rcases step_of_take took with ⟨_, _, _, step⟩ | ⟨_, _, step⟩ | ⟨_, _, step⟩
  · exact step_load step rfl (by simp)
  · exact step_load step rfl (by simp)
  · exact step_load step rfl (by simp)

theorem load_of_finish {pool next : Pool} {worker : Nat} {reply : Reply} {request : PartRequest}
    (finished : pool.finish? worker reply = some (next, request)) : next.load < pool.load :=
  step_load (step_of_finish finished) rfl (by simp)

/-- A worker can take something, or whatever answer a worker gets it can go on with it. -/
def CanWork (pool : Pool) : Prop :=
  ∃ worker, (pool.take? worker).isSome ∨ ∀ reply, (pool.finish? worker reply).isSome

theorem canWork_of_busy {pool : Pool} {worker : Nat} {request : PartRequest}
    (busy : pool.workers[worker]? = some (.busy request)) : pool.CanWork := by
  refine ⟨worker, .inr fun reply => ?_⟩
  unfold finish?
  rw [busy]
  cases reply <;> rfl

/-- A worker that can end with some answer can end with any. -/
theorem finish?_isSome {pool : Pool} {worker : Nat} {reply : Reply}
    (finishes : (pool.finish? worker reply).isSome = true) (other : Reply) :
    (pool.finish? worker other).isSome = true := by
  unfold finish? at finishes ⊢
  cases busy : pool.workers[worker]? with
  | none => simp [busy] at finishes
  | some state =>
    cases state with
    | busy request => cases other <;> rfl
    | idle | exited | crashed => simp [busy] at finishes

theorem canWork_of_idle {pool : Pool} {worker : Nat} (idle : pool.workers[worker]? = some .idle)
    (full : pool.queue.slot.isSome = true) : pool.CanWork := by
  refine ⟨worker, .inl ?_⟩
  obtain ⟨item, slot⟩ := Option.isSome_iff_exists.mp full
  unfold take?
  rw [if_pos idle]
  cases item <;> simp [Queue.take?, slot]

theorem worker_of_live {pool : Pool} (live : pool.isStopped = false) :
    ∃ worker : Nat, pool.workers[worker]? = some .idle ∨
      ∃ request, pool.workers[worker]? = some (.busy request) := by
  rw [isStopped, List.all_eq_false] at live
  obtain ⟨now, member, here⟩ := live
  obtain ⟨worker, found⟩ := List.mem_iff_getElem?.mp member
  refine ⟨worker, ?_⟩
  cases now with
  | idle => exact .inl found
  | busy request => exact .inr ⟨request, found⟩
  | exited | crashed => simp [Worker.isGone] at here

theorem canWork_of_full {pool : Pool} (live : pool.isStopped = false)
    (full : pool.queue.slot.isSome = true) : pool.CanWork := by
  obtain ⟨worker, idle | ⟨request, busy⟩⟩ := worker_of_live live
  · exact canWork_of_idle idle full
  · exact canWork_of_busy busy

section Progress

variable {count sent : Nat} {log : List PoolNote} {pool : Pool} {parts : List PartRequest}

theorem canWork_of_slot (run : Run count log pool) (full : pool.queue.slot.isSome = true) :
    pool.CanWork := by
  refine canWork_of_full ?_ full
  by_contra gone
  have stopped : pool.isStopped = true := by simpa using gone
  have free := slot_of_stopped (run_staffed run) (run_in_order run) stopped
  rw [free] at full
  contradiction

/-- When every worker has been sent a shutdown item, they all end. -/
theorem canWork_of_dismissed (run : Run count log pool) (connected : PoolNote.hungUp ∉ log)
    (accepted : log.filterMap PoolNote.accepted? =
      parts.map Item.part ++ List.replicate (max count 1) Item.shutdown)
    (live : pool.isStopped = false) : pool.CanWork := by
  have staff := run_staffed run
  obtain ⟨worker, idle | ⟨request, busy⟩⟩ := worker_of_live live
  · by_cases full : pool.queue.slot.isSome = true
    · exact canWork_of_idle idle full
    · -- all items have been taken, so there are as many exits as workers
      have manned := staff.manned idle rfl
      have order := (run_in_order run).kept manned
      rw [Option.not_isSome_iff_eq_none.mp full, Option.toList_none, List.append_nil,
        accepted] at order
      have told := taken_shutdowns log
      rw [← order, shutdowns_of_items, ← (staff.senders connected).2, ← staff.exits,
        ← staff.size] at told
      have exited := List.countP_eq_length.mp told.symm .idle (List.mem_of_getElem? idle)
      simp at exited
  · exact canWork_of_busy busy

section Unstarted

variable {request : PartRequest} {rest : List PartRequest}

theorem unmoved_of_unstarted (run : Run count log pool) (connected : PoolNote.hungUp ∉ log)
    (accepted : log.filterMap PoolNote.accepted? =
      (request :: rest).map Item.part ++ List.replicate sent Item.shutdown)
    (unstarted : log.filterMap PoolNote.started? = []) :
    log.filterMap PoolNote.taken? = [] ∧ pool.isStopped = false ∧ pool.sending = [] := by
  have staff := run_staffed run
  have counted := run_counted run
  have calls := counted.calls
  rw [unstarted, List.nil_perm, List.append_eq_nil_iff, List.map_eq_nil_iff] at calls
  obtain ⟨idle, unended⟩ := calls
  obtain ⟨k, _, taken, started, dismissed⟩ := taken_so_far (run_in_order run) accepted
  have first : k = 0 := by
    rw [unstarted, eq_comm, List.take_eq_nil_iff] at started
    simpa using started
  subst first
  refine ⟨by simpa using taken, ?_, idle⟩
  -- nobody was told to stop and no call has crashed
  by_contra gone
  have stopped : pool.isStopped = true := by simpa using gone
  have all := exits_of_stopped staff stopped
  have crashed := counted.crashed
  rw [unended] at crashed
  rw [staff.exits, (staff.senders connected).2, dismissed, crashed] at all
  simp at all
  omega

theorem takes_first (run : Run count log pool) (connected : PoolNote.hungUp ∉ log)
    (accepted : log.filterMap PoolNote.accepted? =
      (request :: rest).map Item.part ++ List.replicate sent Item.shutdown)
    (unstarted : log.filterMap PoolNote.started? = []) :
    ∃ worker next, pool.take? worker = some (next, some request) := by
  obtain ⟨untaken, live, idle⟩ := unmoved_of_unstarted run connected accepted unstarted
  obtain ⟨worker, free | ⟨other, busy⟩⟩ := worker_of_live live
  · have kept := (run_in_order run).kept ((run_staffed run).manned free rfl)
    rw [untaken, accepted, List.nil_append] at kept
    cases slot : pool.queue.slot with
    | none => simp [slot] at kept
    | some item =>
      rw [slot] at kept
      obtain rfl : Item.part request = item := (List.cons.inj kept).1
      exact ⟨worker, by simp [take?, free, Queue.take?, slot]⟩
  · have member : other ∈ pool.sending :=
      List.mem_filterMap.mpr ⟨_, List.mem_of_getElem? busy, rfl⟩
    rw [idle] at member
    cases member

end Unstarted

end Progress

end Pool

end ChunkedUpload
