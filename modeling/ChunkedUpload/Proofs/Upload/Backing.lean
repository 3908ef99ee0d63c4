import ChunkedUpload.Proofs.Upload.Fidelity
import Mathlib.Algebra.BigOperators.Group.List.Basic

/-! What stands behind a reference. The number of its parts comes from the size that was measured
when the source was opened, the parts from what the source gave later; nobody compares the two. The
reference is backed by its parts just in case they agree. -/
namespace ChunkedUpload

/-- The answered requests are one for each part of the reference, and joined in the order of their
parts they have this size. -/
def FileReference.Backed (reference : FileReference) (size : Nat) (answered : List PartRequest) :
    Prop :=
  ∃ ordered : List PartRequest, ordered.Perm answered ∧
    ordered.map PartRequest.part = (List.range reference.parts.toNat).map UInt32.ofNat ∧
    (joined ordered).size = size

theorem Numbered.parts {plan : UploadPlan} {requests : List PartRequest}
    (numbered : Numbered plan requests) (first : plan.startPart = 0) :
    requests.map PartRequest.part = (List.range requests.length).map UInt32.ofNat := by
  apply List.ext_getElem?
  intro i
  rw [List.getElem?_map, List.getElem?_map]
  cases found : requests[i]? with
  | none =>
    rw [List.getElem?_eq_none_iff] at found
    rw [List.getElem?_eq_none (by simpa using found)]
    rfl
  | some request =>
    have inside := (List.getElem?_eq_some_iff.mp found).1
    have part := congrArg PartRequest.part (numbered i request found).1
    rw [first, UploadPlan.request, UInt32.zero_add] at part
    rw [List.getElem?_range inside, Option.map_some, Option.map_some, part]

theorem backed_iff {plan : UploadPlan} {requests answered : List PartRequest}
    (numbered : Numbered plan requests) (first : plan.startPart = 0)
    (same : answered.Perm requests) (reference : FileReference) (size : Nat) :
    reference.Backed size answered ↔
      requests.length = reference.parts.toNat ∧ payloadSize requests = size := by
  constructor
  · rintro ⟨ordered, perm, parts, whole⟩
    have sizes : payloadSize ordered = payloadSize requests :=
      ((perm.trans same).map fun request : PartRequest => request.payload.size).sum_eq
    have count := congrArg List.length parts
    rw [List.length_map, List.length_map, List.length_range, (perm.trans same).length_eq] at count
    rw [size_joined, sizes] at whole
    exact ⟨count, whole⟩
  · rintro ⟨count, whole⟩
    refine ⟨requests, same.symm, ?_, ?_⟩
    · rw [numbered.parts first, count]
    · rw [size_joined, whole]

/-- What was queued for a reference, and when that is what the reference stands for: as many parts
as were planned have been queued and as many bytes as were measured have been read. A stream that
gives a byte with each read while it has one must hold what it reported, with a number of parts
that fits into 32 bits. -/
theorem reference_backed_iff (job : UploadJob) (cancelled : Bool) (moves : List Move)
    (last : Upload) (events : List Event) (reference : FileReference)
    (run : (Upload.begin job cancelled).run? moves = some (last, events))
    (answer : last.result = some (.returned (.ok (some reference)))) :
    ∃ dispatch, last.stage = .dispatching dispatch ∧
    let size := dispatch.plan.fileSize.toNat
    let queued := events.filterMap Event.queued?
    let answered := deliveredCalls (events.filterMap Event.ended?)
    answered.Perm queued ∧
    queued.map PartRequest.part = (List.range queued.length).map UInt32.ofNat ∧
    payloadSize queued = dispatch.source.stream.position ∧
    (reference.Backed size answered ↔
      queued.length = reference.parts.toNat ∧ dispatch.source.stream.position = size) ∧
    ∀ stream name, job.input = .stream stream name → size = stream.reportedSize.toNat ∧
      (stream.Steady → (reference.Backed size answered ↔
        stream.content.size = size ∧ partsFor size < 2 ^ 32)) := by
  have standing := Upload.run_working (fun _ _ => trivial : ∀ move ∈ moves, True) run
  obtain ⟨dispatch, checksum, summary, stage, working, phase, none_failed, given⟩ :=
    standing.dispatch_of_reference answer
  obtain ⟨_, _, tracked⟩ := working.tracked
  obtain ⟨files, source, _, opened, moved⟩ := working.origin
  obtain ⟨whole, _, parts, _⟩ := UploadPlan.reference_eq given
  obtain ⟨_, plan⟩ := UploadPlan.make_whole opened.planned whole
  have first : dispatch.plan.startPart = 0 := by rw [plan]
  have outcome : dispatch.producer.outcome? = some (.exhausted checksum) := by
    rw [phase]
    rfl
  have made : Dispatch.made events dispatch = _ := Dispatch.made_of_none (by rw [phase]; rfl)
  have numbered := working.fed.numbered
  have position := working.fed.position (Producer.isInStep_of_outcome outcome)
  have begins : (0 : UInt32).toNat = 0 := rfl
  rw [made] at numbered position
  rw [first, begins, Nat.zero_mul, Nat.zero_add] at position
  have same := tracked.delivered phase none_failed
  have backed := backed_iff numbered first same reference dispatch.plan.fileSize.toNat
  rw [← position] at backed
  refine ⟨dispatch, stage, same, numbered.parts first, position.symm, backed, ?_⟩
  intro stream name input
  have found := opened.opened
  rw [input] at found
  obtain ⟨rfl, _, _⟩ := Source.ofStream_ok found
  have size : dispatch.plan.fileSize = stream.reportedSize := by rw [plan]
  refine ⟨by rw [size], fun steady => ?_⟩
  have steadily : dispatch.source.stream.Steady := by
    rw [Stream.Steady, moved.reply]
    exact steady
  obtain ⟨spent, count⟩ := working.fed.covered phase first steadily
  have count_parts : reference.parts.toNat = partsFor dispatch.plan.fileSize.toNat % 2 ^ 32 := by
    rw [parts, plan]
    exact toNat_totalParts _
  rw [backed, spent, count, count_parts, moved.content]
  constructor
  · rintro ⟨counted, held⟩
    refine ⟨held, ?_⟩
    rw [← held] at counted ⊢
    exact counted ▸ Nat.mod_lt _ (by decide)
  · rintro ⟨held, few⟩
    exact ⟨by rw [Nat.mod_eq_of_lt few, ← held], held⟩

/-- A stream that has the two parts that it reports. -/
theorem two_parts_backed :
    let stream := twoPartStream
    ∃ moves last events reference,
      (Upload.begin (plainJob stream) false).run? moves = some (last, events) ∧
      last.result = some (.returned (.ok (some reference))) ∧ reference.parts = 2 ∧
      reference.Backed (partSize + 1) (deliveredCalls (events.filterMap Event.ended?)) := by
  intro stream
  obtain ⟨moves, last, events, _, run, _, answer⟩ := Upload.exists_delivered 1 whole_twoParts
  obtain ⟨dispatch, _, _, _, _, _, streams⟩ :=
    reference_backed_iff (plainJob stream) false moves last events _ run answer
  obtain ⟨size, steadily⟩ := streams stream (some "a") rfl
  have held : dispatch.plan.fileSize.toNat = partSize + 1 :=
    size.trans (serves_twoParts.reported.trans size_twoParts)
  have steady : stream.Steady := serves_twoParts.serving.steady
  rw [held] at steadily
  refine ⟨moves, last, events, _, run, answer, ?_, (steadily steady).mpr ⟨rfl, by decide⟩⟩
  rw [wholeReference, partsFor_twoParts]
  rfl

/-- A stream that reports two parts and has one byte: the reference counts two parts, and one was
sent. -/
theorem truncated_stream_unbacked :
    let stream := { Stream.ofBytes ⟨#[65]⟩ with reportedSize := 600000 }
    ∃ last events reference,
      (Upload.begin (plainJob stream) false).run? onePartMoves = some (last, events) ∧
      last.result = some (.returned (.ok (some reference))) ∧
      ¬ reference.Backed 600000 (deliveredCalls (events.filterMap Event.ended?)) := by
  intro stream
  have outcome : (((Upload.begin (plainJob stream) false).run? onePartMoves).bind
      fun ran => (ran.1.result.bind Result.reference?).map fun reference =>
        (reference.parts.toNat, (deliveredCalls (ran.2.filterMap Event.ended?)).length)) =
      some (2, 1) := by decide +kernel
  obtain ⟨⟨last, events⟩, run, later⟩ := Option.bind_eq_some_iff.mp outcome
  obtain ⟨reference, given, counts⟩ := Option.map_eq_some_iff.mp later
  obtain ⟨result, answer, made⟩ := Option.bind_eq_some_iff.mp given
  rw [Result.eq_of_reference made] at answer
  refine ⟨last, events, reference, run, answer, ?_⟩
  rintro ⟨ordered, perm, parts, _⟩
  obtain ⟨two, one⟩ : reference.parts.toNat = 2 ∧
      (deliveredCalls (events.filterMap Event.ended?)).length = 1 := Prod.mk.inj counts
  have count := congrArg List.length parts
  rw [List.length_map, List.length_map, List.length_range, perm.length_eq] at count
  omega

end ChunkedUpload
