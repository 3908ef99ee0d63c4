import ChunkedUpload.Proofs.Pool.Use

/-! What a pool has done when the order to stop has been carried out. Without a crash every part
that was queued has been sent once, in the order of the queue, and each worker has been told to stop
by a shutdown item of its own. -/
namespace ChunkedUpload

namespace Pool

theorem alone {workers : List Worker} {worker : Nat} {now : Worker} (one : workers.length = 1)
    (found : workers[worker]? = some now) : worker = 0 ∧ workers = [now] := by
  obtain ⟨only, rfl⟩ := List.length_eq_one_iff.mp one
  obtain ⟨inside, same⟩ := List.getElem?_eq_some_iff.mp found
  simp only [List.length_singleton, Nat.lt_one_iff] at inside
  subst inside
  exact ⟨rfl, by simpa using same⟩

/-- A single worker sends one part after the other. -/
theorem run_sequential {count : Nat} {log : List PoolNote} {pool : Pool} (run : Run count log pool)
    (one : max count 1 = 1) : log.filterMap PoolNote.session? =
      (log.filterMap PoolNote.ended?).flatMap (fun call =>
        [PoolEvent.started call.1, PoolEvent.ended call.1 call.2]) ++
      pool.sending.map PoolEvent.started := by
  induction run with
  | start => simp [start, sending, Worker.request?, List.filterMap_replicate]
  | @step log pool next note run stepped ih =>
    have size := (run_staffed run).size.trans one
    simp only [List.filterMap_append, filterMap_single, ih, List.flatMap_append]
    cases stepped with
    | accept => simp [PoolNote.session?, PoolNote.ended?, sending]
    | start idle _ =>
      obtain ⟨rfl, workers⟩ := alone size idle
      simp [PoolNote.session?, PoolNote.ended?, sending, workers, Worker.request?]
    | dismiss idle _ =>
      obtain ⟨rfl, workers⟩ := alone size idle
      simp [PoolNote.session?, PoolNote.ended?, sending, workers, Worker.request?]
    | desert idle _ _ =>
      obtain ⟨rfl, workers⟩ := alone size idle
      simp [PoolNote.session?, PoolNote.ended?, sending, workers, Worker.request?]
    | deliver busy =>
      obtain ⟨rfl, workers⟩ := alone size busy
      simp [PoolNote.session?, PoolNote.ended?, sending, workers, Worker.request?]
    | refuse busy =>
      obtain ⟨rfl, workers⟩ := alone size busy
      simp [PoolNote.session?, PoolNote.ended?, sending, workers, Worker.request?]
    | crash busy =>
      obtain ⟨rfl, workers⟩ := alone size busy
      simp [PoolNote.session?, PoolNote.ended?, sending, workers, Worker.request?]
    | hangUp => simp [PoolNote.session?, PoolNote.ended?, sending]

end Pool

namespace PoolUse

section Stopped

variable {count : Nat} {sights : List PoolSight} {use : PoolUse} {summary : PoolSummary}

/-- Once the order to stop has been answered, the pool is as it was at the answer. -/
theorem Sound.answered (h : Sound count sights use)
    (returned : summary ∈ sights.filterMap PoolSight.stopped?) :
    use.calls.pool.isStopped = true ∧ summary = use.calls.pool.summary ∧
    ∃ log sent, Pool.Run count log use.calls.pool ∧ PoolNote.hungUp ∉ log ∧ Agrees log sights ∧
      sent ≤ max count 1 ∧ log.filterMap PoolNote.accepted? =
        (use.acceptedParts sights).map Item.part ++ List.replicate sent Item.shutdown := by
  obtain ⟨log, run, connected, agrees⟩ := h.traced
  cases stopping : use.stopping with
  | false =>
    obtain ⟨_, _, unstopped⟩ := h.feeding stopping
    rw [unstopped] at returned
    contradiction
  | true =>
    obtain ⟨sent, few, all, ⟨_, _, _, _, unstopped⟩ | ⟨_, gone, same⟩⟩ := h.closing stopping
    · rw [unstopped] at returned
      contradiction
    · exact ⟨gone, same summary returned, log, sent, run, connected, agrees, few,
        agrees.accepted.symm.trans all⟩

end Stopped

/-- When the order to stop has been carried out and no call of the session crashed, the session has
seen every accepted part once and nothing else. -/
theorem shutdown_sends_each_once (count : Nat) (acts : List PoolAct) (last : PoolUse)
    (sights : List PoolSight) (summary : PoolSummary)
    (run : runSteps? step? (start count) acts = some (last, sights))
    (calm : ∀ call ∈ sights.filterMap PoolSight.ended?, call.2 ≠ .crashed)
    (returned : summary ∈ sights.filterMap PoolSight.stopped?) :
    let parts := last.acceptedParts sights
    let ended := sights.filterMap PoolSight.ended?
    let told := sights.filterMap PoolSight.dismissed?
    -- the calls of the session
    sights.filterMap PoolSight.started? = parts ∧ (ended.map Prod.fst).Perm parts ∧
    (max count 1 = 1 → sights.filterMap PoolSight.session? =
      ended.flatMap fun call => [PoolEvent.started call.1, PoolEvent.ended call.1 call.2]) ∧
    -- the queue
    (sights.filterMap PoolSight.taken?).map Prod.snd = sights.filterMap PoolSight.accepted? ∧
    sights.filterMap PoolSight.accepted? =
      parts.map Item.part ++ List.replicate (max count 1) Item.shutdown ∧
    last.calls.pool.queue.slot = none ∧
    -- the counts
    summary.delivered = (ended.countP fun call => call.2 = .delivered) ∧
    summary.failed = (ended.countP fun call => call.2.isRefused) ∧
    summary.delivered + summary.failed = parts.length ∧
    -- the workers
    told.Nodup ∧ told.length = max count 1 ∧ (∀ worker ∈ told, worker < max count 1) ∧
    ∀ worker ∈ last.calls.pool.workers, worker = .exited := by
  intro parts ended told
  obtain ⟨gone, rfl, log, sent, ran, connected, agrees, few, accepted⟩ :=
    (run_sound run).answered returned
  have counted := Pool.run_counted ran
  have staff := Pool.run_staffed ran
  have order := Pool.run_in_order ran
  have same : ended = log.filterMap PoolNote.ended? := agrees.ended
  have who : told = log.filterMap PoolNote.dismissed? := agrees.dismissed
  have answers : ∀ call ∈ log.filterMap PoolNote.ended?, call.2 ≠ .crashed := same ▸ calm
  obtain ⟨rfl, taken, started, once, many, exited⟩ :=
    Pool.stopped_without_crash ran gone connected accepted few answers
  have calls := Pool.calls_of_stopped counted gone
  have none_crashed : (ended.countP fun call => call.2 = .crashed) = 0 := by
    rw [List.countP_eq_zero]
    intro call member
    simpa using calm call member
  have delivered : last.calls.pool.summary.delivered =
      (ended.countP fun call => call.2 = .delivered) := same ▸ counted.summary_delivered
  have failed : last.calls.pool.summary.failed = (ended.countP fun call => call.2.isRefused) := by
    rw [counted.summary_failed, ← same, none_crashed, Nat.add_zero]
  have sent_once : (ended.map Prod.fst).Perm parts := by
    rw [started] at calls
    exact same ▸ calls.symm
  refine ⟨agrees.started.trans started, sent_once, fun one => ?_,
    agrees.taken.trans (taken.trans agrees.accepted.symm), agrees.accepted.trans accepted,
    Pool.slot_of_stopped staff order gone, delivered, failed, ?_, who ▸ once, who ▸ many, ?_,
    exited⟩
  · rw [agrees.session, Pool.run_sequential ran one, Pool.sending_of_stopped gone, same]
    simp
  · have replies := countP_replies ended
    have length := sent_once.length_eq
    rw [List.length_map] at length
    omega
  · intro worker member
    rw [who, ← (staff.senders connected).2] at member
    rw [← staff.size]
    exact (List.getElem?_eq_some_iff.mp (staff.exited worker member)).1

/-- Two workers, three parts, one of which is refused while the third still waits for room. -/
theorem shutdown_after_refusal :
    let part : UInt32 → PartRequest := fun i => ⟨9, i, none, ByteArray.empty⟩
    let acts : List PoolAct := [.enqueue (part 0), .move .proceed, .move (.take 1),
      .enqueue (part 1), .move .proceed, .enqueue (part 2), .move (.take 0), .move .proceed,
      .move (.finish 0 (.refused (.rpc 400 "FILE_PART_INVALID"))), .move (.take 0),
      .move (.finish 1 .delivered), .shutdown, .move .proceed, .move (.finish 0 .delivered),
      .move (.take 0), .move .proceed, .move (.take 1), .move .proceed]
    ∃ last sights, runSteps? step? (start 2) acts = some (last, sights) ∧
      (∀ call ∈ sights.filterMap PoolSight.ended?, call.2 ≠ .crashed) ∧
      ⟨2, 1⟩ ∈ sights.filterMap PoolSight.stopped? ∧
      sights.filterMap PoolSight.started? = [part 0, part 1, part 2] := by
  intro part acts
  refine ⟨_, _, rfl, by decide, by decide, ?_⟩
  have each := shutdown_sends_each_once 2 acts _ _ ⟨2, 1⟩ rfl (by decide) (by decide)
  exact each.1.trans (by decide)

end PoolUse

end ChunkedUpload
