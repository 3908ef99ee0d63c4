import ChunkedUpload.Proofs.Upload.Leaving
import ChunkedUpload.Proofs.Upload.Whole

/-! The workers and the producer of an upload that nothing disturbs come to their end. Each of their
steps lowers a rank; and as long as the caller has nothing, one of them can make a step. -/
namespace ChunkedUpload

namespace Dispatch

/-- How many steps the producer has before it, and what it will put into the queue is worth. -/
def producerRank (dispatch : Dispatch) : Nat :=
  let parts := dispatch.plan.totalParts.toNat - dispatch.nextPart.toNat
  let stop := 2 * dispatch.pool.workerCount + 2
  match dispatch.producer with
  | .seeking => 5 * parts + stop + 2
  | .reading => 5 * parts + stop + 1
  | .queueing _ => 5 * parts + stop
  | .notifying => 5 * parts + stop + 2
  | .stopping left _ => 2 * left + 2
  | .joining _ => 1
  | .stalled | .finished _ _ | .abandoned => 0

def rank (dispatch : Dispatch) : Nat := dispatch.producerRank + dispatch.pool.load

section Rank

variable {job : UploadJob} {files : FileSystem} {bytes : ByteArray} {name : String}
  {events more : List Event} {dispatch after : Dispatch} {move : Move}

theorem Undisturbed.next (h : Undisturbed job files bytes name events dispatch)
    (whole : job.Whole files bytes name) (feeding : dispatch.producer.isFeeding = true) :
    dispatch.nextPart.toNat = (events.filterMap Event.queued?).length ∧
    dispatch.plan.totalParts.toNat = partsFor bytes.size := by
  have few := partsFor_lt whole.few
  have queued : (events.filterMap Event.queued?).length ≤ partsFor bytes.size := by
    have short := h.made_length
    rw [made, List.length_append] at short
    omega
  constructor
  · rw [h.working.fed.next feeding, h.plan]
    simp only [UploadPlan.ofBytes, UInt32.zero_add]
    exact UInt32.toNat_ofNat_of_lt' (Nat.lt_of_le_of_lt queued few)
  · rw [h.plan]
    exact UInt32.toNat_ofNat_of_lt' few

theorem Undisturbed.waiting (h : Undisturbed job files bytes name events dispatch)
    (whole : job.Whole files bytes name) {request : PartRequest}
    (phase : dispatch.producer = .queueing request) :
    dispatch.nextPart.toNat < dispatch.plan.totalParts.toNat := by
  obtain ⟨next, total⟩ := h.next whole (by rw [phase]; rfl)
  have short := h.made_length
  rw [made, phase, List.length_append] at short
  rw [next, total]
  exact short

theorem step_rank (whole : job.Whole files bytes name) (smooth : move.Smooth files)
    (step : Step job dispatch move more after)
    (h : Undisturbed job files bytes name events dispatch) : after.rank < dispatch.rank := by
  have later := step_working step h.working
  obtain ⟨_, _, tracked⟩ := h.working.tracked
  obtain ⟨_, _, tracked'⟩ := later.tracked
  have plan := (step_moved step).1
  have count : after.pool.workerCount = dispatch.pool.workerCount := by
    rw [Pool.workerCount_of_run tracked.followed.run,
      Pool.workerCount_of_run tracked'.followed.run, plan]
  cases step with
  | sought phase | filled phase | stalled phase | notified phase =>
    simp only [rank, producerRank, phase]
    omega
  | unsought phase | broken phase =>
    simp only [rank, producerRank, leave, phase]
    omega
  | ended phase =>
    unfold endOfInput
    split <;> simp only [rank, producerRank, leave, phase] <;> omega
  | refused phase =>
    have waiting := h.waiting whole phase
    simp only [rank, producerRank, leave, phase]
    omega
  | queued phase offered =>
    have waiting := h.waiting whole phase
    have load := Pool.load_of_offer offered
    have next : (dispatch.nextPart + 1).toNat = dispatch.nextPart.toNat + 1 := by
      have small := dispatch.plan.totalParts.toNat_lt
      rw [UInt32.toNat_add]
      exact Nat.mod_eq_of_lt (Nat.lt_of_le_of_lt waiting small)
    -- a part is worth two steps of a worker and three of the producer
    simp only [rank, producerRank, phase, next, count, load, Item.weight] at count ⊢
    omega
  | resent phase offered =>
    have waiting := h.waiting whole phase
    have load := Pool.load_of_offer offered
    simp only [rank, producerRank, leave, phase, load, Item.weight] at count ⊢
    omega
  | deserted phase =>
    have load : dispatch.desert.pool.load = dispatch.pool.load := rfl
    simp only [rank, load, producerRank, phase]
    simp only [desert]
    omega
  | aborted => exact absurd rfl smooth.2.2
  | stopped phase | unneeded phase | joined phase =>
    simp only [rank, producerRank, phase]
    omega
  | told phase offered =>
    have load := Pool.load_of_offer offered
    simp only [rank, producerRank, phase, load, Item.weight]
    omega
  | took took =>
    have load := Pool.load_of_take took
    simp only [rank, producerRank] at count ⊢
    rw [count]
    omega
  | finished finished =>
    have load := Pool.load_of_finish finished
    simp only [rank, producerRank] at count ⊢
    rw [count]
    omega

end Rank

section Able

variable {job : UploadJob} {files : FileSystem} {bytes : ByteArray} {name : String}
  {events : List Event} {dispatch : Dispatch} {upload : Upload}

theorem Undisturbed.able (h : Undisturbed job files bytes name events dispatch)
    (whole : job.Whole files bytes name) (same : upload.job = job)
    (awake : upload.cancelled = false) (unanswered : dispatch.result? job = none) :
    Able files upload dispatch := by
  have producer := h.producer
  cases phase : dispatch.producer with
  | seeking => exact ⟨.seek, trivial, by simp [Upload.dispatchStep?, phase]⟩
  | reading => exact ⟨.read, trivial, by simp [Upload.dispatchStep?, phase, awake]⟩
  | stalled | abandoned =>
    rw [phase] at producer
    contradiction
  | queueing request =>
    rcases h.working.enqueue_or_work (h.open_queue (by rw [phase]; rfl)) request with room | work
    · exact ⟨.enqueue, trivial, by simpa [Upload.dispatchStep?, phase, awake] using room⟩
    · exact able_of_canWork work
  | notifying =>
    have returns := whole.report dispatch
    exact ⟨.notify, trivial, by simp [Upload.dispatchStep?, phase, awake, same, returns]⟩
  | stopping left outcome => exact h.working.able_of_stopping phase
  | joining outcome => exact h.working.able_of_joining phase
  | finished outcome summary =>
    simp [result?, phase] at unanswered

end Able

end Dispatch

end ChunkedUpload
