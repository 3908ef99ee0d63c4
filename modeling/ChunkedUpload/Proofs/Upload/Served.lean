import ChunkedUpload.Proofs.Upload.Interrupted
import ChunkedUpload.Proofs.Upload.Whole

/-! The upload of a whole file whose input gives all its bytes, whatever else happens to it. At any
time the session has seen the first parts of the file; and with the reference each of them has been
delivered. -/
namespace ChunkedUpload

/-- A new file with these bytes is to be uploaded. -/
structure UploadJob.Afresh (job : UploadJob) (files : FileSystem) (bytes : ByteArray)
    (name : String) : Prop where
  serves : job.input.Serves files bytes name
  few : bytes.size ≤ (2 ^ 32 - 1) * partSize
  whole : job.resume = none

/-- The input is opened among these files. -/
def Move.Opens (files : FileSystem) : Move → Prop
  | openInput found => found = files
  | _ => True

/-- Wherever the job opens its input it finds these bytes, and is told how many they are. -/
structure UploadJob.Brings (job : UploadJob) (Allowed : Move → Prop) (bytes : ByteArray) :
    Prop where
  few : bytes.size ≤ (2 ^ 32 - 1) * partSize
  opens : ∀ files source, Allowed (.openInput files) →
    (Source.ofInput files job.input job.limit.bytes).1 = .ok source →
    source.Carries bytes ∧ source.size.toNat = bytes.size

theorem Source.ofInput_some_bytes {files : FileSystem} {input : Input} {limit : UInt64}
    {source : Source} (opened : (ofInput files input limit).1 = .ok source) :
    0 < source.size.toNat := by
  obtain ⟨stream, _, _, _, measured⟩ := ofInput_ok opened
  obtain ⟨rfl, some_bytes, _⟩ := ofStream_ok measured
  exact Nat.pos_of_ne_zero fun zero => some_bytes (UInt64.toNat_inj.mp zero)

section Served

variable {job : UploadJob} {files : FileSystem} {bytes : ByteArray} {name : String}
  {Allowed : Move → Prop} {events : List Event} {dispatch : Dispatch}

theorem UploadJob.brings_of_serves (few : bytes.size ≤ (2 ^ 32 - 1) * partSize)
    (serves : ∀ files, Allowed (.openInput files) → job.input.Serves files bytes name) :
    job.Brings Allowed bytes where
  few := few
  opens := by
    intro files source opening opened
    obtain ⟨honest, sized, _⟩ := (serves files opening).of_opened opened
    exact ⟨⟨honest.holds, honest.serving.steady⟩, sized⟩

theorem UploadJob.Afresh.brings (h : job.Afresh files bytes name) :
    job.Brings (Move.Opens files) bytes := by
  have serves : ∀ found, (Move.openInput found).Opens files →
      job.input.Serves found bytes name := by
    rintro found rfl
    exact h.serves
  exact UploadJob.brings_of_serves h.few serves

theorem Dispatch.Working.brought (working : Working job Allowed events dispatch)
    (whole : job.resume = none) (brings : job.Brings Allowed bytes) :
    dispatch.source.Carries bytes ∧ dispatch.plan = UploadPlan.ofBytes bytes job.freshId ∧
    0 < bytes.size := by
  obtain ⟨_, source, opening, opened, moved⟩ := working.origin
  obtain ⟨carries, sized⟩ := brings.opens _ source opening opened.opened
  have planned := opened.planned
  rw [whole, UploadPlan.make_ofBytes sized] at planned
  exact ⟨carries.moved moved, (Except.ok.inj planned).symm,
    sized ▸ Source.ofInput_some_bytes opened.opened⟩

namespace Upload

variable {upload : Upload}
  (standing : Standing job Allowed (Dispatch.Known job Allowed) events upload)
  (whole : job.resume = none) (brings : job.Brings Allowed bytes)

include standing whole brings

theorem Standing.started_isPrefix :
    events.filterMap Event.started? <+: wholeRequests bytes job.freshId := by
  refine standing.started (· <+: wholeRequests bytes job.freshId) List.nil_prefix
    fun dispatch ⟨working, _⟩ => ?_
  obtain ⟨carries, plan, _⟩ := working.brought whole brings
  exact working.started_isPrefix.trans (working.fed.made_isPrefix carries plan)

theorem Standing.delivered {reference : FileReference}
    (answer : upload.result = some (.returned (.ok (some reference)))) :
    0 < bytes.size ∧ reference.fileId = job.freshId ∧
    reference.parts = UInt32.ofNat (partsFor bytes.size) ∧
    ((events.filterMap Event.ended?).map Prod.fst).Perm (events.filterMap Event.started?) ∧
    (deliveredCalls (events.filterMap Event.ended?)).Perm (wholeRequests bytes job.freshId) := by
  obtain ⟨dispatch, checksum, summary, _, ⟨working, _⟩, phase, none_failed, made⟩ :=
    standing.dispatch_of_reference answer
  obtain ⟨carries, plan, some_bytes⟩ := working.brought whole brings
  obtain ⟨_, fileId, parts, _⟩ := UploadPlan.reference_eq made
  obtain ⟨_, calls, _⟩ := working.finished phase
  obtain ⟨_, _, tracked⟩ := working.tracked
  have delivered := tracked.delivered phase none_failed
  rw [(working.fed.queued_all carries plan phase).1] at delivered
  rw [plan] at fileId parts
  exact ⟨some_bytes, fileId, parts, calls, delivered⟩

end Upload

end Served

end ChunkedUpload
