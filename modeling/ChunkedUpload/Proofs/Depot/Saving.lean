import ChunkedUpload.Proofs.Depot.Serving

/-! A whole file that goes into a store. Whoever has its reference finds every part stored, and
nothing is being written any more. -/
namespace ChunkedUpload

theorem wholeRequests_distinct {bytes : ByteArray} (few : bytes.size ≤ (2 ^ 32 - 1) * partSize)
    (fileId : Int64) : ((wholeRequests bytes fileId).map PartRequest.place).Nodup := by
  refine List.Nodup.of_map (fun place => place.2.toNat) ?_
  rw [List.map_map]
  exact (wholeRequests_numbered few fileId).symm ▸ List.nodup_range

namespace Depot

/-- Nothing is being written, and the files are in order. -/
structure Rests (depot : Depot) : Prop where
  idle : depot.writings = []
  sound : depot.files.Sound

variable {store : Store} {bytes : ByteArray} {name : String} {job : UploadJob}
  {call uploader : Nat} {cancelled : Bool} {first last : Depot} {acts : List DepotAct}
  {events : List Event} {reference : FileReference}

/-- What is known of the upload of a whole file. -/
abbrev Known (job : UploadJob) (files : FileSystem) : List Event → Upload → Prop :=
  Upload.Standing job (Move.Opens files) (Dispatch.Known job (Move.Opens files))

theorem course_of_afresh {files : FileSystem} (h : job.Afresh files bytes name) :
    Course (wholeRequests bytes job.freshId) files (Move.Opens files) (Known job files) where
  kept := Upload.step_known
  standing _ _ standing := ⟨_, _, _, standing⟩
  started _ _ standing := (standing.started_isPrefix h.whole h.brings).sublist
  distinct := wholeRequests_distinct h.few job.freshId
  calm move calm := by
    cases move with
    | openInput found => exact calm
    | _ => exact trivial

theorem stored_of_reference (rests : first.Rests) (new : first.all.call? call = none)
    (h : job.Afresh first.files bytes name) (own : ∀ act ∈ acts, act.IsOf call)
    (run : runSteps? (step? store) first (.act (.save call uploader job cancelled) :: acts) =
      some (last, events))
    (given : ((last.all.call? call).bind fun call => call.upload.result) =
      some (.returned (.ok (some reference)))) :
    last.Rests ∧ 0 < bytes.size ∧ reference.fileId = job.freshId ∧
    reference.parts = UInt32.ofNat (partsFor bytes.size) ∧
    (∀ request ∈ wholeRequests bytes job.freshId, store.Has last.files request) ∧
    ∀ fileId, store.Tidy first.files fileId → store.Tidy last.files fileId := by
  have course := course_of_afresh h
  obtain ⟨next, begun, later, stepped, ran, rfl⟩ := runSteps_cons run
  obtain ⟨rfl, _, serving⟩ :=
    Serving.start (Known job first.files) rests.sound rests.idle new ⟨rfl, rfl, rfl⟩ stepped
  have served := run_keeps (step_serving course) acts _ _ _ _ serving
    (fun act member => ⟨own act member, fun _ => trivial⟩) ran
  obtain ⟨upload, found, standing, _⟩ := served.upload
  rw [found] at given
  obtain ⟨some_bytes, fileId, parts, ended, delivered⟩ := standing.delivered h.whole h.brings given
  refine ⟨⟨served.kept.idle ended, served.kept.sound⟩, some_bytes, fileId, parts,
    fun request asked => served.kept.stored request asked (.inr (.inr ?_)), served.kept.tidy⟩
  obtain ⟨⟨_, reply⟩, member, rfl⟩ := List.mem_map.mp (delivered.mem_iff.mpr asked)
  obtain ⟨there, answer⟩ := List.mem_filter.mp member
  obtain rfl : reply = .delivered := by simpa using answer
  exact there

end Depot

end ChunkedUpload
