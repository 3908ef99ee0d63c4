import ChunkedUpload.Proofs.Pool.Shutdown
import ChunkedUpload.Proofs.Upload.Feeding

/-! Calls of the session that crash. A crash takes a worker along, and when the last one goes then
what is left in the queue is lost. None of this goes unnoticed: the counts of the pool tell of it,
and an upload that gives a reference back has delivered every part it queued. -/
namespace ChunkedUpload

def Result.reference? : Result → Option FileReference
  | .returned (.ok reference) => reference
  | _ => none

theorem Result.eq_of_reference {result : Result} {reference : FileReference}
    (given : result.reference? = some reference) : result = .returned (.ok (some reference)) := by
  unfold reference? at given
  split at given
  · rw [given]
  · contradiction

namespace Upload

theorem degrade_ne_reference (job : UploadJob) (error : UploadError) (reference : FileReference) :
    degrade job error ≠ .ok (some reference) := by
  unfold degrade
  split <;> simp

/-- Only a source that has ended, with no failure counted, makes a reference. -/
theorem conclude_eq_reference {job : UploadJob} {plan : UploadPlan} {name : String}
    {summary : PoolSummary} {outcome : DispatchOutcome} {reference : FileReference}
    (value : conclude job plan name summary outcome = .ok (some reference)) :
    ∃ checksum, outcome = .exhausted checksum ∧ summary.failed = 0 ∧
      plan.reference name checksum = some reference := by
  cases outcome with
  | exhausted checksum =>
    simp only [conclude] at value
    split at value
    · exact absurd value (degrade_ne_reference job _ reference)
    · rename_i none_failed
      exact ⟨checksum, rfl, by omega, Except.ok.inj value⟩
  | cancelled => cases value
  | failed error => exact absurd value (degrade_ne_reference job error reference)
  | resumeQueued => cases value

end Upload

namespace Dispatch

variable {job : UploadJob} {dispatch : Dispatch} {reference : FileReference}

theorem finished_of_reference
    (answer : dispatch.result? job = some (.returned (.ok (some reference)))) :
    ∃ checksum summary, dispatch.producer = .finished (.exhausted checksum) summary ∧
      summary.failed = 0 ∧
      dispatch.plan.reference dispatch.source.name checksum = some reference := by
  rcases answer_cases answer with ⟨_, none_given⟩ | ⟨outcome, summary, phase, given⟩ | ⟨_, crashed⟩
  · cases none_given
  · obtain ⟨checksum, rfl, none_failed, made⟩ :=
      Upload.conclude_eq_reference (Result.returned.inj given).symm
    exact ⟨checksum, summary, phase, none_failed, made⟩
  · cases crashed

end Dispatch

theorem Upload.Standing.dispatch_of_reference {job : UploadJob} {Allowed : Move → Prop}
    {P : List Event → Dispatch → Prop} {events : List Event} {last : Upload}
    {reference : FileReference} (standing : Standing job Allowed P events last)
    (answer : last.result = some (.returned (.ok (some reference)))) :
    ∃ dispatch checksum summary, last.stage = .dispatching dispatch ∧ P events dispatch ∧
      dispatch.producer = .finished (.exhausted checksum) summary ∧ summary.failed = 0 ∧
      dispatch.plan.reference dispatch.source.name checksum = some reference := by
  rcases standing.answer_cases answer with ⟨dispatch, stage, holds, given⟩ | ⟨_, _, _, _, refused⟩
  · obtain ⟨checksum, summary, finished⟩ := Dispatch.finished_of_reference given
    exact ⟨dispatch, checksum, summary, stage, holds, finished⟩
  · cases refused

theorem Dispatch.Tracked.delivered {events : List Event} {dispatch : Dispatch}
    {log : List PoolNote} {sent : Nat} (h : Tracked events dispatch log sent)
    {outcome : DispatchOutcome} {summary : PoolSummary}
    (phase : dispatch.producer = .finished outcome summary) (none_failed : summary.failed = 0) :
    (deliveredCalls (events.filterMap Event.ended?)).Perm (events.filterMap Event.queued?) := by
  have place := h.place
  have connected := h.connected (by simp [phase])
  rw [phase] at place
  obtain ⟨gone, rfl⟩ := place
  rw [h.followed.ended]
  exact (Pool.failed_eq_zero_iff h.followed.run gone connected h.accepted).mp none_failed

/-- Whichever calls crash, and whenever: what a pool has lost it has counted, and an upload never
gives a reference back when a part it queued was not delivered. -/
theorem nothing_lost_in_silence :
    (∀ (count : Nat) (acts : List PoolAct) (last : PoolUse) (sights : List PoolSight)
        (summary : PoolSummary),
      runSteps? PoolUse.step? (PoolUse.start count) acts = some (last, sights) →
      summary ∈ sights.filterMap PoolSight.stopped? →
      let parts := last.acceptedParts sights
      let started := sights.filterMap PoolSight.started?
      let ended := sights.filterMap PoolSight.ended?
      summary.delivered = (ended.countP fun call => call.2 = .delivered) ∧
      summary.failed = (ended.countP fun call => call.2.isRefused) +
        (ended.countP fun call => call.2 = .crashed) ∧
      started <+: parts ∧ (ended.map Prod.fst).Perm started ∧
      (summary.failed = 0 ↔ (deliveredCalls ended).Perm parts)) ∧
    ∀ (job : UploadJob) (cancelled : Bool) (moves : List Move) (last : Upload)
        (events : List Event) (reference : FileReference),
      (Upload.begin job cancelled).run? moves = some (last, events) →
      last.result = some (.returned (.ok (some reference))) →
      (deliveredCalls (events.filterMap Event.ended?)).Perm (events.filterMap Event.queued?) := by
  constructor
  · intro count acts last sights summary run returned parts started ended
    obtain ⟨gone, rfl, log, sent, ran, connected, agrees, few, accepted⟩ :=
      (PoolUse.run_sound run).answered returned
    have counted := Pool.run_counted ran
    have began : started = log.filterMap PoolNote.started? := agrees.started
    have done : ended = log.filterMap PoolNote.ended? := agrees.ended
    rw [began, done]
    exact ⟨counted.summary_delivered, counted.summary_failed,
      Pool.started_isPrefix (Pool.run_in_order ran) accepted,
      (Pool.calls_of_stopped counted gone).symm,
      Pool.failed_eq_zero_iff ran gone connected accepted⟩
  · intro job cancelled moves last events reference run answer
    have standing := Upload.run_working (fun _ _ => trivial : ∀ move ∈ moves, True) run
    obtain ⟨_, _, summary, _, working, phase, none_failed, _⟩ :=
      standing.dispatch_of_reference answer
    obtain ⟨_, _, tracked⟩ := working.tracked
    exact tracked.delivered phase none_failed

/-- The moves of an upload of one part with nothing in its way. -/
def onePartMoves : List Move :=
  [.enter, .openInput FileSystem.empty, .locate (.ok 2), .connect (.ok ()), .seek, .read, .enqueue,
    .take 0, .notify, .read, .finish 0 .delivered, .stop, .take 0, .stop, .join]

/-- The upload of a stream to which nothing special is asked. -/
def plainJob (stream : Stream) : UploadJob :=
  ⟨.stream stream (some "a"), .tier .standard, none, none, 7, true⟩

/-- A call that crashes with a part behind it in the queue, and an upload of a single byte. -/
theorem nothing_lost_after_a_crash :
    let part : UInt32 → PartRequest := fun i => ⟨9, i, none, ByteArray.empty⟩
    let acts : List PoolAct := [.enqueue (part 0), .move .proceed, .move (.take 0),
      .enqueue (part 1), .move .proceed, .shutdown, .move (.finish 0 .crashed), .move .proceed]
    let job := plainJob (Stream.ofBytes ⟨#[65]⟩)
    (∃ last sights, runSteps? PoolUse.step? (PoolUse.start 1) acts = some (last, sights) ∧
      ⟨0, 1⟩ ∈ sights.filterMap PoolSight.stopped? ∧
      last.acceptedParts sights = [part 0, part 1] ∧
      ¬ (deliveredCalls (sights.filterMap PoolSight.ended?)).Perm (last.acceptedParts sights)) ∧
    ∃ last events reference, (Upload.begin job false).run? onePartMoves = some (last, events) ∧
      last.result = some (.returned (.ok (some reference))) ∧
      (deliveredCalls (events.filterMap Event.ended?)).Perm [⟨7, 0, none, ⟨#[65]⟩⟩] := by
  intro part acts job
  constructor
  · refine ⟨_, _, rfl, by decide, by decide, fun all => ?_⟩
    have counts := nothing_lost_in_silence.1 1 acts _ _ ⟨0, 1⟩ rfl (by decide)
    exact absurd (counts.2.2.2.2.mpr all) (by decide)
  · have outcome : (((Upload.begin job false).run? onePartMoves).bind fun ran =>
        (ran.1.result.bind Result.reference?).map fun _ => ran.2.filterMap Event.queued?) =
        some [⟨7, 0, none, ⟨#[65]⟩⟩] := by decide +kernel
    obtain ⟨⟨last, events⟩, run, later⟩ := Option.bind_eq_some_iff.mp outcome
    obtain ⟨reference, given, queued⟩ := Option.map_eq_some_iff.mp later
    obtain ⟨result, answer, made⟩ := Option.bind_eq_some_iff.mp given
    rw [Result.eq_of_reference made] at answer
    have delivered :=
      nothing_lost_in_silence.2 job false onePartMoves last events reference run answer
    rw [queued] at delivered
    exact ⟨last, events, reference, run, answer, delivered⟩

end ChunkedUpload
