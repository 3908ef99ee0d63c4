import ChunkedUpload.Proofs.Upload.Interrupted
import ChunkedUpload.Proofs.Upload.Token

/-! The parts that the counts of a pool leave out. Whatever a worker has taken is counted, as
delivered or as failed. The part that is in the queue when the last of all workers crashes is gone
with them: nobody sends it, and it is in neither count. -/
namespace ChunkedUpload

namespace Pool

/-- The balance of a pool that has stopped: `parts` got into its queue, `started` are the calls that
its workers began, `ended` their answers, and `lost` was left in the queue. -/
structure Balance (parts started : List PartRequest) (ended : List (PartRequest × Reply))
    (lost : Option PartRequest) (pool : Pool) : Prop where
  queue : parts = started ++ lost.toList
  calls : (ended.map Prod.fst).Perm started
  delivered : pool.summary.delivered = (deliveredCalls ended).length
  total : pool.summary.delivered + pool.summary.failed + lost.toList.length = parts.length
  crashed : lost.isSome = true → ∀ worker ∈ pool.workers, worker = .crashed

section Stopped

variable {count sent : Nat} {log : List PoolNote} {pool : Pool} {parts : List PartRequest}

theorem untaken_of_stopped (staff : Staffed count log pool) (order : InOrder log pool)
    (stopped : pool.isStopped = true) (accepted : log.filterMap PoolNote.accepted? =
      parts.map Item.part ++ List.replicate sent Item.shutdown) :
    ∃ lost : Option PartRequest, parts = log.filterMap PoolNote.started? ++ lost.toList := by
  obtain ⟨_, rest, left⟩ := order.lost (staff.receivers.trans (remaining_of_stopped stopped))
  have parts_left := congrArg (List.filterMap Item.part?) left
  rw [accepted, parts_of_items, List.filterMap_append, taken_parts] at parts_left
  refine ⟨rest.bind Item.part?, parts_left.trans ?_⟩
  cases rest with
  | none => rfl
  | some item => cases item <;> rfl

theorem crashed_of_untaken (run : Run count log pool) (stopped : pool.isStopped = true)
    (connected : PoolNote.hungUp ∉ log) (accepted : log.filterMap PoolNote.accepted? =
      parts.map Item.part ++ List.replicate sent Item.shutdown)
    (short : log.filterMap PoolNote.started? ≠ parts) :
    ∀ worker ∈ pool.workers, worker = .crashed := by
  have staff := run_staffed run
  have none_told : (log.filterMap PoolNote.dismissed?).length = 0 := by
    by_contra told
    exact short (all_started (run_in_order run) accepted (Nat.pos_of_ne_zero told))
  have exits := exits_of_stopped staff stopped
  rw [staff.exits, (staff.senders connected).2, none_told, Nat.zero_add, ← staff.size] at exits
  simpa using List.countP_eq_length.mp exits

theorem balance_of_stopped (run : Run count log pool) (stopped : pool.isStopped = true)
    (connected : PoolNote.hungUp ∉ log) (accepted : log.filterMap PoolNote.accepted? =
      parts.map Item.part ++ List.replicate sent Item.shutdown) :
    ∃ lost, Balance parts (log.filterMap PoolNote.started?) (log.filterMap PoolNote.ended?) lost
      pool := by
  have counted := run_counted run
  have calls := calls_of_stopped counted stopped
  obtain ⟨lost, queue⟩ := untaken_of_stopped (run_staffed run) (run_in_order run) stopped accepted
  have delivered : pool.summary.delivered = (log.filterMap PoolNote.ended?).countP
      fun call => call.2 = .delivered := counted.summary_delivered
  refine ⟨lost, queue, calls.symm, ?_, ?_, fun left => ?_⟩
  · rw [delivered, length_deliveredCalls]
  · have replies := countP_replies (log.filterMap PoolNote.ended?)
    have ended := calls.length_eq
    have length := congrArg List.length queue
    rw [List.length_map] at ended
    rw [List.length_append] at length
    have failed := counted.summary_failed
    omega
  · apply crashed_of_untaken run stopped connected accepted
    intro all
    rw [all, List.self_eq_append_right] at queue
    rw [Option.toList_eq_nil_iff.mp queue] at left
    contradiction

end Stopped

end Pool

namespace Dispatch

theorem Tracked.balance {events : List Event} {dispatch : Dispatch} {log : List PoolNote}
    {sent : Nat} (h : Tracked events dispatch log sent) {outcome : DispatchOutcome}
    {summary : PoolSummary} (phase : dispatch.producer = .finished outcome summary) :
    summary = dispatch.pool.summary ∧
    ∃ lost, Pool.Balance (events.filterMap Event.queued?) (events.filterMap Event.started?)
      (events.filterMap Event.ended?) lost dispatch.pool := by
  have place := h.place
  rw [phase] at place
  obtain ⟨gone, same⟩ := place
  have connected := h.connected (by simp [phase])
  rw [h.followed.started, h.followed.ended]
  exact ⟨same, Pool.balance_of_stopped h.followed.run gone connected h.accepted⟩

/-- A loop that failed can tell why. -/
def Explained (dispatch : Dispatch) : Prop :=
  ∀ error, dispatch.producer.outcome? = some (.failed error) → error.isFault = true

section Explained

variable {job : UploadJob} {events : List Event} {dispatch after : Dispatch} {move : Move}

theorem explained_of_none (unfinished : dispatch.producer.outcome? = none) :
    dispatch.Explained := by
  intro error found
  rw [unfinished] at found
  contradiction

theorem explained_of_leave {outcome : DispatchOutcome}
    (fault : ∀ error, outcome = .failed error → error.isFault = true) :
    (dispatch.leave outcome).Explained := by
  intro error found
  exact fault error (Option.some.inj found)

theorem step_explained (step : Step job dispatch move events after) (h : dispatch.Explained) :
    after.Explained := by
  cases step with
  | sought | filled | stalled | queued | notified | deserted => exact explained_of_none rfl
  | unsought _ sought =>
    obtain ⟨⟨_, rfl, _⟩, _⟩ := Source.seekToPart_error sought
    exact explained_of_leave (by rintro _ ⟨⟩; rfl)
  | ended =>
    unfold endOfInput
    split
    · exact explained_of_leave (by rintro _ ⟨⟩; rfl)
    · exact explained_of_leave (by rintro _ ⟨⟩)
  | broken | refused => exact explained_of_leave (by rintro _ ⟨⟩; rfl)
  | resent | aborted => exact explained_of_leave (by rintro _ ⟨⟩)
  | stopped phase | unneeded phase | told phase | joined phase =>
    intro error found
    exact h error (by rw [phase]; exact found)
  | took | finished => exact h

/-- The error that counts lost parts is given when the source has ended and the pool has counted
failures. -/
theorem Explained.failed_of_partsFailed (h : dispatch.Explained) {failed : Nat}
    (answer : dispatch.result? job = some (.returned (.error (.partsFailed failed)))) :
    ∃ outcome summary, dispatch.producer = .finished outcome summary ∧
      summary.failed = failed ∧ 0 < failed := by
  rcases answer_cases answer with ⟨_, resumed⟩ | ⟨outcome, summary, phase, given⟩ | ⟨_, crashed⟩
  · cases resumed
  · refine ⟨outcome, summary, phase, ?_⟩
    have value := (Result.returned.inj given).symm
    cases outcome with
    | exhausted checksum =>
      simp only [Upload.conclude, Upload.degrade] at value
      split at value
      · rename_i some_failed
        split at value <;> cases value
        exact ⟨rfl, some_failed⟩
      · cases value
    | cancelled => cases value
    | failed error =>
      -- the loop's own failures are of another kind
      have fault := h error (by rw [phase]; rfl)
      simp only [Upload.conclude, Upload.degrade] at value
      split at value <;> cases value
      cases fault
    | resumeQueued => cases value
  · cases crashed

end Explained

end Dispatch

theorem Upload.Refusal.ne_partsFailed {job : UploadJob} {Allowed : Move → Prop}
    {error : UploadError} (refusal : Refusal job Allowed error) (failed : Nat) :
    error ≠ .partsFailed failed := by
  rintro rfl
  cases refusal with
  | unopened _ unopened => cases Source.ofInput_fault unopened
  | unplanned _ _ unplanned => cases UploadPlan.make_fault unplanned

/-- Whichever calls crash, and whenever: the counts of a stopped pool are short by one part at most,
the last that got into the queue, and only if every worker has crashed. The same holds of the count
in the error that an upload gives for lost parts. -/
theorem counts_short_by_lost_part (count : Nat) (acts : List PoolAct) (job : UploadJob)
    (cancelled : Bool) (moves : List Move) :
    (∀ (last : PoolUse) (sights : List PoolSight) (summary : PoolSummary),
      runSteps? PoolUse.step? (PoolUse.start count) acts = some (last, sights) →
      summary ∈ sights.filterMap PoolSight.stopped? →
      let parts := last.acceptedParts sights
      let started := sights.filterMap PoolSight.started?
      let ended := sights.filterMap PoolSight.ended?
      ∃ lost : Option PartRequest, parts = started ++ lost.toList ∧
        (ended.map Prod.fst).Perm started ∧
        summary.delivered = (deliveredCalls ended).length ∧
        summary.delivered + summary.failed + lost.toList.length = parts.length ∧
        (lost.isSome = true → ∀ worker ∈ last.calls.pool.workers, worker = .crashed)) ∧
    ∀ (last : Upload) (events : List Event) (failed : Nat),
      (Upload.begin job cancelled).run? moves = some (last, events) →
      last.result = some (.returned (.error (.partsFailed failed))) →
      let queued := events.filterMap Event.queued?
      let started := events.filterMap Event.started?
      let ended := events.filterMap Event.ended?
      ∃ (lost : Option PartRequest) (dispatch : Dispatch), queued = started ++ lost.toList ∧
        (ended.map Prod.fst).Perm started ∧ 0 < failed ∧
        (deliveredCalls ended).length + failed + lost.toList.length = queued.length ∧
        last.stage = .dispatching dispatch ∧
        (lost.isSome = true → ∀ worker ∈ dispatch.pool.workers, worker = .crashed) := by
  constructor
  · intro last sights summary run returned parts started ended
    obtain ⟨gone, rfl, log, sent, ran, connected, agrees, _, accepted⟩ :=
      (PoolUse.run_sound run).answered returned
    have began : started = log.filterMap PoolNote.started? := agrees.started
    have done : ended = log.filterMap PoolNote.ended? := agrees.ended
    rw [began, done]
    obtain ⟨lost, balance⟩ := Pool.balance_of_stopped ran gone connected accepted
    exact ⟨lost, balance.queue, balance.calls, balance.delivered, balance.total, balance.crashed⟩
  · intro last events failed run answer queued started ended
    have standing := Upload.run_standing
      (P := fun past dispatch => Dispatch.Working job (fun _ => True) past dispatch ∧
        dispatch.Explained)
      (fun _ _ _ endpoint opening opened =>
        ⟨Dispatch.start_working endpoint opening opened, Dispatch.explained_of_none rfl⟩)
      (fun _ _ _ _ _ holds _ step =>
        ⟨Dispatch.step_working step holds.1, Dispatch.step_explained step holds.2⟩)
      (fun _ _ => trivial) run
    rcases standing.answer_cases answer with
      ⟨dispatch, stage, ⟨working, explained⟩, given⟩ | ⟨_, error, _, refusal, same⟩
    · obtain ⟨outcome, summary, phase, rfl, some_failed⟩ := explained.failed_of_partsFailed given
      obtain ⟨_, _, tracked⟩ := working.tracked
      obtain ⟨rfl, lost, balance⟩ := tracked.balance phase
      refine ⟨lost, dispatch, balance.queue, balance.calls, some_failed, ?_, stage,
        balance.crashed⟩
      rw [← balance.delivered]
      exact balance.total
    · cases same
      exact absurd rfl (refusal.ne_partsFailed failed)

/-- The call of the first part crashes while the second part is in the queue. -/
def crashActs : List PoolAct :=
  let part : UInt32 → PartRequest := fun i => ⟨9, i, none, ByteArray.empty⟩
  [.enqueue (part 0), .move .proceed, .move (.take 0), .enqueue (part 1), .move .proceed,
    .shutdown, .move (.finish 0 .crashed), .move .proceed]

/-- One worker whose call crashes with a part behind it, and an upload whose only call crashes. -/
theorem counts_short_after_crash :
    let job := plainJob (Stream.ofBytes ⟨#[65]⟩)
    let moves : List Move := [.enter, .openInput FileSystem.empty, .locate (.ok 2),
      .connect (.ok ()), .seek, .read, .enqueue, .take 0, .notify, .read, .finish 0 .crashed,
      .stop, .join]
    (∃ last sights, runSteps? PoolUse.step? (PoolUse.start 1) crashActs = some (last, sights) ∧
      ⟨0, 1⟩ ∈ sights.filterMap PoolSight.stopped? ∧ ∃ lost : Option PartRequest,
        last.acceptedParts sights = sights.filterMap PoolSight.started? ++ lost.toList ∧
        lost.toList.length = 1) ∧
    ∃ last events, (Upload.begin job false).run? moves = some (last, events) ∧
      last.result = some (.returned (.error (.partsFailed 1))) ∧
      ∃ lost : Option PartRequest,
        (deliveredCalls (events.filterMap Event.ended?)).length + 1 + lost.toList.length = 1 := by
  intro job moves
  obtain ⟨of_pool, of_upload⟩ := counts_short_by_lost_part 1 crashActs job false moves
  constructor
  · refine ⟨_, _, rfl, by decide, ?_⟩
    obtain ⟨lost, queue, _, _, total, _⟩ := of_pool _ _ ⟨0, 1⟩ rfl (by decide)
    exact ⟨lost, queue, Nat.add_left_cancel total⟩
  · have outcome : (((Upload.begin job false).run? moves).bind fun ran =>
        (ran.1.result.bind Result.error?).map fun error =>
          (error, (ran.2.filterMap Event.queued?).length)) = some (.partsFailed 1, 1) := by
      decide +kernel
    obtain ⟨⟨last, events⟩, run, later⟩ := Option.bind_eq_some_iff.mp outcome
    obtain ⟨error, given, counts⟩ := Option.map_eq_some_iff.mp later
    obtain ⟨result, answer, failed⟩ := Option.bind_eq_some_iff.mp given
    rw [Result.eq_of_error failed] at answer
    obtain ⟨rfl, one⟩ := Prod.mk.inj counts
    obtain ⟨lost, _, _, _, _, total, _⟩ := of_upload last events _ run answer
    exact ⟨last, events, run, answer, lost, total.trans one⟩

/-- The part that is in the queue when the only worker crashes is neither delivered nor counted as
failed. -/
theorem queued_part_uncounted :
    ¬ ∀ (count : Nat) (acts : List PoolAct) (last : PoolUse) (sights : List PoolSight)
        (summary : PoolSummary),
      runSteps? PoolUse.step? (PoolUse.start count) acts = some (last, sights) →
      summary ∈ sights.filterMap PoolSight.stopped? →
      summary.delivered + summary.failed = (last.acceptedParts sights).length := by
  intro all
  exact absurd (all 1 crashActs _ _ ⟨0, 1⟩ rfl (by decide)) (by decide)

end ChunkedUpload
