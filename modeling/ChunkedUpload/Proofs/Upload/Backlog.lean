import ChunkedUpload.Proofs.Plan
import ChunkedUpload.Proofs.Pool.Handoff
import ChunkedUpload.Proofs.Upload.Loss

/-! How far an upload reads ahead of the session. The parts that it has queued and that have not
been answered are at most one for each worker and one more, whatever the size of the file. -/
namespace ChunkedUpload

namespace Dispatch

variable {job : UploadJob} {Allowed : Move → Prop} {events : List Event} {dispatch : Dispatch}

theorem Tracked.backlog {log : List PoolNote} {sent workers : Nat}
    (tracked : Tracked events dispatch log sent)
    (few : max dispatch.plan.workerCount 1 ≤ workers) :
    (events.filterMap Event.queued?).length ≤
      (events.filterMap Event.ended?).length + workers + 1 ∧
    (events.filterMap Event.started?).length ≤
      (events.filterMap Event.ended?).length + workers := by
  have run := tracked.followed.run
  have parts := Pool.parts_le run
  obtain ⟨calls, flying⟩ := Pool.calls_in_flight run
  rw [tracked.accepted, parts_of_items] at parts
  rw [tracked.followed.started, tracked.followed.ended]
  omega

theorem Working.one_worker (working : Working job Allowed events dispatch)
    (small : isBigFile dispatch.plan.fileSize = false ∨ job.resume.isSome = true) :
    max dispatch.plan.workerCount 1 = 1 := by
  obtain ⟨_, source, _, opened, _⟩ := working.origin
  have mode := UploadPlan.make_mode opened.planned
  rw [← UploadPlan.make_fileSize opened.planned] at mode
  rw [UploadPlan.workerCount, mode]
  rcases small with small | resend
  · cases job.resume <;> simp [UploadMode.select, small, UploadMode.workerCount, smallFileWorkers]
  · obtain ⟨part, again⟩ := Option.isSome_iff_exists.mp resend
    simp [UploadMode.select, again, UploadMode.workerCount, smallFileWorkers]

end Dispatch

theorem Upload.Standing.unqueued {job : UploadJob} {Allowed : Move → Prop}
    {P : List Event → Dispatch → Prop} {past : List Event} {upload : Upload}
    (standing : Standing job Allowed P past upload)
    (before : ∀ dispatch, upload.stage ≠ .dispatching dispatch) :
    past.filterMap Event.queued? = [] := by
  obtain ⟨_, here⟩ := standing
  split at here
  · rw [here.1, List.filterMap_nil]
  · rw [here.1, List.filterMap_nil]
  · rw [here.1]
    rfl
  · rw [here.1]
    rfl
  · rename_i dispatch stage
    exact absurd stage (before dispatch)
  · exact here.1

/-- Whatever calls come to a pool and are dropped again, and however the session behaves: the queue
is at most one item ahead of the workers, no more calls of the session are in flight than there are
workers, and the parts accepted and not ended are at most one more than that. So an upload never has
more than five parts that it has queued and that have not ended, and no more than two if the file is
small or a part is sent again. -/
theorem handoff_bounded :
    (∀ (count : Nat) (acts : List HandoffAct) (last : PoolCalls) (sights : List PoolSight),
      runSteps? PoolCalls.handoff? (PoolCalls.start count) acts = some (last, sights) →
      let accepted := sights.filterMap PoolSight.accepted?
      let started := sights.filterMap PoolSight.started?
      let ended := sights.filterMap PoolSight.ended?
      accepted.length ≤ (sights.filterMap PoolSight.taken?).length + 1 ∧
      started.length = ended.length + last.pool.inFlight ∧
      last.pool.inFlight ≤ max count 1 ∧
      (accepted.filterMap Item.part?).length ≤ ended.length + max count 1 + 1) ∧
    ∀ (job : UploadJob) (cancelled : Bool) (moves : List Move) (last : Upload)
        (events : List Event), (Upload.begin job cancelled).run? moves = some (last, events) →
      let queued := events.filterMap Event.queued?
      let started := events.filterMap Event.started?
      let ended := events.filterMap Event.ended?
      queued.length ≤ ended.length + 5 ∧ started.length ≤ ended.length + 4 ∧
      ∀ dispatch, last.stage = .dispatching dispatch →
        (isBigFile dispatch.plan.fileSize = false ∨ job.resume.isSome = true) →
        queued.length ≤ ended.length + 2 ∧ started.length ≤ ended.length + 1 := by
  constructor
  · intro count acts last sights run accepted started ended
    obtain ⟨log, ran, agrees⟩ := PoolCalls.run_logged run
    have taken : (sights.filterMap PoolSight.taken?).length =
        (log.filterMap PoolNote.taken?).length := by
      rw [← agrees.taken, List.length_map]
    have calls := Pool.calls_in_flight ran
    rw [taken, show accepted = _ from agrees.accepted, show started = _ from agrees.started,
      show ended = _ from agrees.ended]
    exact ⟨Pool.accepted_le ran, calls.1, calls.2, Pool.parts_le ran⟩
  · intro job cancelled moves last events run queued started ended
    have standing := Upload.run_working (fun _ _ => trivial : ∀ move ∈ moves, True) run
    have working : ∀ dispatch, last.stage = .dispatching dispatch →
        Dispatch.Working job (fun _ => True) events dispatch := by
      intro dispatch stage
      obtain ⟨_, here⟩ := standing
      simp only [stage] at here
      exact here.1
    by_cases before : ∀ dispatch, last.stage ≠ .dispatching dispatch
    · rw [show queued = [] from standing.unqueued before,
        show started = [] from standing.unstarted before]
      exact ⟨Nat.zero_le _, Nat.zero_le _, fun dispatch stage => absurd stage (before dispatch)⟩
    · obtain ⟨dispatch, stage⟩ := not_forall.mp before
      obtain ⟨_, _, tracked⟩ := (working dispatch (not_not.mp stage)).tracked
      obtain ⟨ahead, flying⟩ := tracked.backlog dispatch.plan.workers_le
      refine ⟨ahead, flying, fun other here small => ?_⟩
      obtain ⟨_, _, tracked⟩ := (working other here).tracked
      exact tracked.backlog (Nat.le_of_eq ((working other here).one_worker small))

/-- A worker that is sending, one part in the queue behind it and one whose caller has given up; and
a part that is sent again and on its way. -/
theorem two_parts_for_one_worker :
    let part : UInt32 → Item := fun i => .part ⟨9, i, none, ByteArray.empty⟩
    let acts : List HandoffAct := [.enqueue 0 (part 0), .move .proceed, .move (.take 0),
      .enqueue 1 (part 1), .enqueue 2 (part 2), .move .proceed, .drop 2]
    let job := { plainJob (Stream.ofBytes ⟨#[65]⟩) with resume := some ⟨7, 0⟩ }
    (∃ last sights,
      runSteps? PoolCalls.handoff? (PoolCalls.start 1) acts = some (last, sights) ∧
      sights.filterMap PoolSight.accepted? = [part 0, part 1] ∧ last.waiting = [] ∧
      (sights.filterMap PoolSight.accepted?).length ≤
        (sights.filterMap PoolSight.taken?).length + 1 ∧
      ((sights.filterMap PoolSight.accepted?).filterMap Item.part?).length ≤
        (sights.filterMap PoolSight.ended?).length + 1 + 1) ∧
    ∃ last events dispatch, (Upload.begin job false).run? (onePartMoves.take 8) =
        some (last, events) ∧ last.stage = .dispatching dispatch ∧ job.resume.isSome = true ∧
      (events.filterMap Event.queued?).length = 1 ∧
      (events.filterMap Event.queued?).length ≤ (events.filterMap Event.ended?).length + 2 := by
  intro part acts job
  obtain ⟨pools, uploads⟩ := handoff_bounded
  constructor
  · have ran : ∃ last sights,
        runSteps? PoolCalls.handoff? (PoolCalls.start 1) acts = some (last, sights) ∧
        sights.filterMap PoolSight.accepted? = [part 0, part 1] ∧ last.waiting = [] :=
      ⟨_, _, rfl, rfl, rfl⟩
    obtain ⟨last, sights, run, accepted, idle⟩ := ran
    obtain ⟨buffered, _, _, parts⟩ := pools 1 acts last sights run
    exact ⟨last, sights, run, accepted, idle, buffered, parts⟩
  · have ran : (((Upload.begin job false).run? (onePartMoves.take 8)).bind fun seen =>
        seen.1.fileId?.map fun _ => (seen.2.filterMap Event.queued?).length) = some 1 := by
      decide +kernel
    obtain ⟨⟨last, events⟩, run, later⟩ := Option.bind_eq_some_iff.mp ran
    obtain ⟨fileId, sends, queued⟩ := Option.map_eq_some_iff.mp later
    unfold Upload.fileId? at sends
    split at sends
    · rename_i dispatch stage
      obtain ⟨_, _, bounds⟩ := uploads job false _ last events run
      exact ⟨last, events, dispatch, run, stage, rfl, queued, (bounds dispatch stage (.inr rfl)).1⟩
    · contradiction

end ChunkedUpload
