import ChunkedUpload.Proofs.Pool.Accounts

/-! A pool whose workers have all ended, after parts and then shutdown items were put into its
queue. What the workers took is a beginning of that. If one of them ended without a crash then no
part was left over, so nothing is lost without a crash being counted. -/
namespace ChunkedUpload

/-- The requests of the calls that were answered with a delivery. -/
def deliveredCalls (calls : List (PartRequest × Reply)) : List PartRequest :=
  (calls.filter fun call => call.2 = .delivered).map Prod.fst

theorem length_deliveredCalls (calls : List (PartRequest × Reply)) :
    (deliveredCalls calls).length = calls.countP fun call => call.2 = .delivered := by
  rw [deliveredCalls, List.length_map, List.countP_eq_length_filter]

theorem countP_replies (calls : List (PartRequest × Reply)) :
    (calls.countP fun call => call.2 = .delivered) + ((calls.countP fun call => call.2.isRefused) +
      calls.countP fun call => call.2 = .crashed) = calls.length := by
  induction calls with
  | nil => rfl
  | cons call rest ih =>
    obtain ⟨request, reply⟩ := call
    cases reply <;> simp [List.countP_cons] <;> omega

theorem deliveredCalls_all {calls : List (PartRequest × Reply)}
    (all : (calls.countP fun call => call.2 = .delivered) = calls.length) :
    deliveredCalls calls = calls.map Prod.fst := by
  rw [deliveredCalls, List.filter_eq_self.mpr]
  simpa using List.countP_eq_length.mp all

theorem parts_of_items (parts : List PartRequest) (n : Nat) :
    (parts.map Item.part ++ List.replicate n Item.shutdown).filterMap Item.part? = parts := by
  have same : Item.part? ∘ Item.part = some := rfl
  simp [List.filterMap_append, List.filterMap_map, same, Item.part?]

theorem shutdowns_of_items (parts : List PartRequest) (n : Nat) :
    (parts.map Item.part ++ List.replicate n Item.shutdown).count Item.shutdown = n := by
  have none_there : (parts.map Item.part).count Item.shutdown = 0 := by
    rw [List.count_eq_zero]
    simp
  rw [List.count_append, none_there, List.count_replicate_self, Nat.zero_add]

theorem taken_parts (log : List PoolNote) :
    (log.filterMap PoolNote.taken?).filterMap Item.part? = log.filterMap PoolNote.started? := by
  rw [List.filterMap_filterMap]
  congr 1
  funext note
  cases note <;> rfl

theorem taken_shutdowns (log : List PoolNote) :
    (log.filterMap PoolNote.taken?).count .shutdown =
      (log.filterMap PoolNote.dismissed?).length := by
  induction log with
  | nil => rfl
  | cons note rest ih =>
    cases note <;> simp [List.filterMap_cons, PoolNote.taken?, PoolNote.dismissed?, ih]

namespace Pool

section Stopped

variable {count sent : Nat} {log : List PoolNote} {pool : Pool} {parts : List PartRequest}

theorem Counted.summary_delivered (h : Counted log pool) :
    pool.summary.delivered = (log.filterMap PoolNote.ended?).countP fun call =>
      call.2 = .delivered := h.delivered

theorem Counted.summary_failed (h : Counted log pool) :
    pool.summary.failed = ((log.filterMap PoolNote.ended?).countP fun call => call.2.isRefused) +
      (log.filterMap PoolNote.ended?).countP fun call => call.2 = .crashed := by
  rw [← h.failed, ← h.crashed]
  rfl

/-- How far the workers have come in the queue, and what that means for parts and workers. -/
theorem taken_so_far (order : InOrder log pool) (accepted : log.filterMap PoolNote.accepted? =
      parts.map Item.part ++ List.replicate sent Item.shutdown) :
    ∃ k ≤ parts.length + sent,
      log.filterMap PoolNote.taken? = (parts.take k).map Item.part ++
        List.replicate (min (k - parts.length) sent) Item.shutdown ∧
      log.filterMap PoolNote.started? = parts.take k ∧
      (log.filterMap PoolNote.dismissed?).length = min (k - parts.length) sent := by
  have taken := order.taken_isPrefix
  rw [accepted] at taken
  have short := taken.length_le
  simp only [List.length_append, List.length_map, List.length_replicate] at short
  have cut : log.filterMap PoolNote.taken? =
      (parts.take (log.filterMap PoolNote.taken?).length).map Item.part ++
        List.replicate (min ((log.filterMap PoolNote.taken?).length - parts.length) sent)
          Item.shutdown := by
    have eq := List.prefix_iff_eq_take.mp taken
    rwa [List.take_append, List.length_map, ← List.map_take, List.take_replicate] at eq
  generalize (log.filterMap PoolNote.taken?).length = k at short cut
  refine ⟨k, short, cut, ?_, ?_⟩
  · rw [← taken_parts, cut, parts_of_items]
  · rw [← taken_shutdowns, cut, shutdowns_of_items]

theorem started_isPrefix (order : InOrder log pool) (accepted : log.filterMap PoolNote.accepted? =
      parts.map Item.part ++ List.replicate sent Item.shutdown) :
    log.filterMap PoolNote.started? <+: parts := by
  obtain ⟨k, _, _, started, _⟩ := taken_so_far order accepted
  rw [started]
  exact List.take_prefix k parts

theorem remaining_of_stopped (stopped : pool.isStopped = true) : pool.remaining = 0 := by
  simp only [isStopped, List.all_eq_true] at stopped
  simpa [remaining] using stopped

theorem sending_of_stopped (stopped : pool.isStopped = true) : pool.sending = [] := by
  simp only [isStopped, List.all_eq_true] at stopped
  rw [sending, List.filterMap_eq_nil_iff]
  intro worker member
  have gone := stopped worker member
  cases worker <;> first | rfl | contradiction

theorem slot_of_stopped (staff : Staffed count log pool) (order : InOrder log pool)
    (stopped : pool.isStopped = true) : pool.queue.slot = none :=
  (order.lost (staff.receivers.trans (remaining_of_stopped stopped))).1

theorem calls_of_stopped (counted : Counted log pool) (stopped : pool.isStopped = true) :
    (log.filterMap PoolNote.started?).Perm ((log.filterMap PoolNote.ended?).map Prod.fst) := by
  simpa [sending_of_stopped stopped] using counted.calls

theorem exits_of_stopped (staff : Staffed count log pool) (stopped : pool.isStopped = true) :
    pool.workers.countP (· = .exited) + pool.workers.countP (· = .crashed) = max count 1 := by
  rw [← staff.size]
  simp only [isStopped, List.all_eq_true] at stopped
  generalize pool.workers = workers at stopped
  induction workers with
  | nil => rfl
  | cons worker rest ih =>
    have rest_gone := ih fun other member => stopped other (by simp [member])
    have gone := stopped worker (by simp)
    cases worker <;> simp_all [Worker.isGone] <;> omega

theorem all_started (order : InOrder log pool) (accepted : log.filterMap PoolNote.accepted? =
      parts.map Item.part ++ List.replicate sent Item.shutdown)
    (told : 0 < (log.filterMap PoolNote.dismissed?).length) :
    log.filterMap PoolNote.started? = parts := by
  obtain ⟨k, _, _, started, dismissed⟩ := taken_so_far order accepted
  have far : parts.length ≤ k := by omega
  rw [started, List.take_of_length_le far]

/-- Without a crash each worker has taken a shutdown item of its own, after all the parts. -/
theorem stopped_without_crash (run : Run count log pool) (stopped : pool.isStopped = true)
    (connected : PoolNote.hungUp ∉ log) (accepted : log.filterMap PoolNote.accepted? =
      parts.map Item.part ++ List.replicate sent Item.shutdown) (few : sent ≤ max count 1)
    (calm : ∀ call ∈ log.filterMap PoolNote.ended?, call.2 ≠ .crashed) :
    sent = max count 1 ∧
    log.filterMap PoolNote.taken? = log.filterMap PoolNote.accepted? ∧
    log.filterMap PoolNote.started? = parts ∧
    (log.filterMap PoolNote.dismissed?).Nodup ∧
    (log.filterMap PoolNote.dismissed?).length = max count 1 ∧
    ∀ worker ∈ pool.workers, worker = .exited := by
  have staff := run_staffed run
  have order := run_in_order run
  have none_crashed : pool.workers.countP (· = .crashed) = 0 := by
    rw [(run_counted run).crashed, List.countP_eq_zero]
    simpa using calm
  have all_exited := exits_of_stopped staff stopped
  have same := (staff.senders connected).2
  have told : (log.filterMap PoolNote.dismissed?).length = max count 1 := by
    rw [← same, ← staff.exits]
    omega
  obtain ⟨k, short, taken, started, dismissed⟩ := taken_so_far order accepted
  have sent_all : sent = max count 1 := by omega
  have far : parts.length + sent ≤ k := by omega
  refine ⟨sent_all, ?_, ?_, same ▸ staff.once, told, ?_⟩
  · rw [taken, accepted, List.take_of_length_le (by omega), Nat.min_eq_right (by omega)]
  · rw [started, List.take_of_length_le (by omega)]
  · have full : pool.workers.countP (· = .exited) = pool.workers.length := by
      rw [staff.size]
      omega
    simpa using List.countP_eq_length.mp full

theorem kept_of_calm (run : Run count log pool)
    (calm : ∀ call ∈ log.filterMap PoolNote.ended?, call.2 ≠ .crashed) :
    log.filterMap PoolNote.accepted? =
      log.filterMap PoolNote.taken? ++ pool.queue.slot.toList := by
  induction run with
  | start => rfl
  | step _ stepped ih =>
    have before := ih fun call member => calm call (by
      rw [List.filterMap_append]
      exact List.mem_append_left _ member)
    rw [filterMap_snoc, filterMap_snoc, before]
    cases stepped with
    | accept _ free | desert _ free => simp [free, PoolNote.accepted?, PoolNote.taken?]
    | start _ full => simp [full, PoolNote.accepted?, PoolNote.taken?]
    | dismiss _ full =>
      rw [emptied_retire_slot, full]
      simp [PoolNote.accepted?, PoolNote.taken?]
    | deliver | refuse | hangUp => simp [PoolNote.accepted?, PoolNote.taken?, Queue.dropSender]
    | @crash _ request => exact absurd rfl (calm (request, .crashed) (by simp [PoolNote.ended?]))

theorem started_of_calm (run : Run count log pool) (stopped : pool.isStopped = true)
    (accepted : log.filterMap PoolNote.accepted? =
      parts.map Item.part ++ List.replicate sent Item.shutdown)
    (calm : ∀ call ∈ log.filterMap PoolNote.ended?, call.2 ≠ .crashed) :
    log.filterMap PoolNote.started? = parts := by
  have kept := kept_of_calm run calm
  rw [slot_of_stopped (run_staffed run) (run_in_order run) stopped, Option.toList_none,
    List.append_nil, accepted] at kept
  rw [← taken_parts, ← kept, parts_of_items]

theorem failed_eq_zero_iff (run : Run count log pool) (stopped : pool.isStopped = true)
    (connected : PoolNote.hungUp ∉ log) (accepted : log.filterMap PoolNote.accepted? =
      parts.map Item.part ++ List.replicate sent Item.shutdown) :
    pool.summary.failed = 0 ↔
      (deliveredCalls (log.filterMap PoolNote.ended?)).Perm parts := by
  have staff := run_staffed run
  have order := run_in_order run
  have counted := run_counted run
  have calls := calls_of_stopped counted stopped
  have replies := countP_replies (log.filterMap PoolNote.ended?)
  rw [counted.summary_failed]
  constructor
  · intro none_failed
    have all_exited := exits_of_stopped staff stopped
    have told : 0 < (log.filterMap PoolNote.dismissed?).length := by
      rw [← (staff.senders connected).2, ← staff.exits]
      have crashes := counted.crashed
      omega
    rw [deliveredCalls_all (by omega), ← all_started order accepted told]
    exact calls.symm
  · intro delivered
    have ended := calls.length_eq
    have most := (started_isPrefix order accepted).length_le
    have total := delivered.length_eq
    rw [length_deliveredCalls] at total
    rw [List.length_map] at ended
    omega

end Stopped

end Pool

end ChunkedUpload
