import ChunkedUpload.Proofs.Upload.Calm
import ChunkedUpload.Proofs.Upload.Pieces

/-! What a session sees of an upload that nothing disturbs, and what the caller gets. -/
namespace ChunkedUpload

def wholeRequest (bytes : ByteArray) (fileId : Int64) (i : Nat) : PartRequest where
  fileId := fileId
  part := UInt32.ofNat i
  total := if bigFileThreshold < bytes.size then some (UInt32.ofNat (partsFor bytes.size)) else none
  payload := bytes.extract (i * partSize) (min ((i + 1) * partSize) bytes.size)

/-- What the file has at this part. -/
def pieceOf (bytes : ByteArray) (part : UInt32) : ByteArray :=
  bytes.extract (part.toNat * partSize) (min ((part.toNat + 1) * partSize) bytes.size)

/-- The requests that send a whole file, part by part. -/
def wholeRequests (bytes : ByteArray) (fileId : Int64) : List PartRequest :=
  (List.range (partsFor bytes.size)).map (wholeRequest bytes fileId)

theorem wholeRequest_mem {bytes : ByteArray} (fileId : Int64) {i : Nat}
    (inside : i < partsFor bytes.size) : wholeRequest bytes fileId i ∈ wholeRequests bytes fileId :=
  List.mem_map_of_mem (List.mem_range.mpr inside)

theorem wholeRequests_numbered {bytes : ByteArray} (few : bytes.size ≤ (2 ^ 32 - 1) * partSize)
    (fileId : Int64) : (wholeRequests bytes fileId).map (fun request => request.part.toNat) =
      List.range (partsFor bytes.size) := by
  rw [wholeRequests, List.map_map]
  refine (List.map_congr_left fun i inside => ?_).trans (List.map_id _)
  exact UInt32.toNat_ofNat_of_lt' (Nat.lt_trans (List.mem_range.mp inside) (partsFor_lt few))

def wholeReference (bytes : ByteArray) (fileId : Int64) (name : String) : FileReference where
  fileId := fileId
  parts := UInt32.ofNat (partsFor bytes.size)
  name := name
  checksum := if bigFileThreshold < bytes.size then none else some (Checksum.ofBytes bytes)

theorem extract_min (bytes : ByteArray) (start stop : Nat) :
    bytes.extract start (min stop bytes.size) = bytes.extract start stop := by
  ext1
  rw [ByteArray.data_extract, ByteArray.data_extract, Array.extract_eq_extract_right]
  simp only [ByteArray.size_data]
  omega

theorem joined_take (bytes : ByteArray) (fileId : Int64) (count : Nat) :
    joined ((List.range count).map (wholeRequest bytes fileId)) =
      bytes.extract 0 (count * partSize) := by
  induction count with
  | zero => rw [Nat.zero_mul, ByteArray.extract_same]; rfl
  | succ count ih =>
    have grows : count * partSize ≤ (count + 1) * partSize := Nat.mul_le_mul_right _ (by omega)
    rw [List.range_succ, List.map_append, List.map_singleton, joined_snoc, ih, wholeRequest,
      extract_min, ByteArray.extract_append_extract, Nat.zero_min, Nat.max_eq_right grows]

theorem joined_wholeRequests (bytes : ByteArray) (fileId : Int64) :
    joined (wholeRequests bytes fileId) = bytes := by
  rw [wholeRequests, joined_take, ← extract_min, Nat.min_eq_right (partsFor_covers bytes.size),
    ByteArray.extract_zero_size]

section TwoParts

/-- A full part and one byte more. -/
def twoParts : ByteArray := ⟨Array.replicate (partSize + 1) 65⟩

theorem size_twoParts : twoParts.size = partSize + 1 := Array.size_replicate

theorem partsFor_twoParts : partsFor twoParts.size = 2 := by
  rw [size_twoParts]
  decide

theorem small_twoParts : ¬ bigFileThreshold < twoParts.size := by
  rw [size_twoParts]
  decide

/-- It gives as much as it is asked for. -/
def twoPartStream : Stream := Stream.ofContent ⟨partSize + 1, fun _ => 65⟩

theorem serves_twoParts : twoPartStream.Serves twoParts where
  holds := ⟨size_twoParts.symm, fun _ inside => (Array.getElem_replicate inside).symm⟩
  reported := by
    rw [size_twoParts]
    decide
  serving := Stream.serving_ofContent _
  seeking := fun _ => rfl

theorem extract_twoParts (start stop : Nat) :
    twoParts.extract start stop = ⟨Array.replicate (min stop (partSize + 1) - start) 65⟩ := by
  ext1
  rw [ByteArray.data_extract, twoParts, Array.extract_replicate]

theorem wholeRequest_twoParts (fileId : Int64) (i : Nat) :
    wholeRequest twoParts fileId i = ⟨fileId, UInt32.ofNat i, none,
      ⟨Array.replicate (min ((i + 1) * partSize) (partSize + 1) - i * partSize) 65⟩⟩ := by
  rw [wholeRequest, extract_min, extract_twoParts, if_neg small_twoParts]

theorem wholeRequests_twoParts (fileId : Int64) : wholeRequests twoParts fileId =
    [⟨fileId, 0, none, ⟨Array.replicate partSize 65⟩⟩, ⟨fileId, 1, none, ⟨#[65]⟩⟩] := by
  simp only [wholeRequests, partsFor_twoParts, wholeRequest_twoParts, List.range_succ,
    List.range_zero, List.nil_append, List.cons_append, List.map_cons, List.map_nil]
  rfl

end TwoParts

namespace Dispatch

section Requests

variable {job : UploadJob} {files : FileSystem} {bytes : ByteArray} {name : String}
  {events : List Event} {dispatch : Dispatch}

theorem wholeRequests_eq_pieces (bytes : ByteArray) (fileId : Int64) :
    wholeRequests bytes fileId =
      (UploadPlan.ofBytes bytes fileId).pieces bytes (partsFor bytes.size) := by
  refine List.map_congr_left fun i _ => ?_
  rw [wholeRequest, extract_min, UploadPlan.piece, UploadPlan.request, UploadPlan.ofBytes]
  split <;> rfl

theorem Fed.made_isPrefix (h : Fed events dispatch) (carries : dispatch.source.Carries bytes)
    {fileId : Int64} (plan : dispatch.plan = UploadPlan.ofBytes bytes fileId) :
    made events dispatch <+: wholeRequests bytes fileId := by
  have first : dispatch.plan.startPart = 0 := by rw [plan]; rfl
  have few := h.made_few first carries
  rw [wholeRequests_eq_pieces, h.made_pieces first carries, plan, ← UploadPlan.pieces_take _ _ few]
  exact List.take_prefix _ _

theorem Undisturbed.carries (h : Undisturbed job files bytes name events dispatch) :
    dispatch.source.Carries bytes := ⟨h.honest.holds, h.honest.serving.steady⟩

theorem Undisturbed.made_isPrefix (h : Undisturbed job files bytes name events dispatch) :
    made events dispatch <+: wholeRequests bytes job.freshId :=
  h.working.fed.made_isPrefix h.carries h.plan

theorem Undisturbed.made_length (h : Undisturbed job files bytes name events dispatch) :
    (made events dispatch).length ≤ partsFor bytes.size := by
  have short := h.made_isPrefix.length_le
  rwa [wholeRequests, List.length_map, List.length_range] at short

theorem Undisturbed.started_isPrefix (h : Undisturbed job files bytes name events dispatch) :
    events.filterMap Event.started? <+: wholeRequests bytes job.freshId :=
  h.working.started_isPrefix.trans h.made_isPrefix

/-- What the caller gets of an upload that nothing has disturbed. -/
def Expected (job : UploadJob) (bytes : ByteArray) (name : String) (refused : Nat) :
    Except UploadError (Option FileReference) :=
  if refused = 0 then .ok (some (wholeReference bytes job.freshId name))
  else if job.failOnPartError then .error (.partsFailed refused) else .ok none

theorem exhausted_of_answer (undisturbed : dispatch.producer.isUndisturbed = true)
    {result : Result} (answer : dispatch.result? job = some result) :
    ∃ sum summary, dispatch.producer = .finished (.exhausted sum) summary ∧
      result = .returned (Upload.conclude job dispatch.plan dispatch.source.name summary
        (.exhausted sum)) := by
  rcases answer_cases answer with ⟨queued, _⟩ | ⟨outcome, summary, phase, given⟩ | ⟨phase, _⟩
  · obtain ⟨_, other⟩ := Producer.exhausted_of_undisturbed undisturbed queued
    cases other
  · obtain ⟨sum, rfl⟩ := Producer.exhausted_of_undisturbed undisturbed (by rw [phase]; rfl)
    exact ⟨sum, summary, phase, given⟩
  · rw [phase] at undisturbed
    contradiction

theorem Fed.queued_all (h : Fed events dispatch) (carries : dispatch.source.Carries bytes)
    {fileId : Int64} (plan : dispatch.plan = UploadPlan.ofBytes bytes fileId)
    {sum : Option String} {summary : PoolSummary}
    (phase : dispatch.producer = .finished (.exhausted sum) summary) :
    events.filterMap Event.queued? = wholeRequests bytes fileId ∧
    made events dispatch = wholeRequests bytes fileId := by
  have made : made events dispatch = _ := made_of_none (by rw [phase]; rfl)
  have first : dispatch.plan.startPart = 0 := by rw [plan]; rfl
  obtain ⟨_, count⟩ := h.covered phase first carries.steady
  have begins := h.made_isPrefix carries plan
  rw [carries.holds.size] at count
  rw [made] at begins ⊢
  have whole := begins.eq_of_length
    (by rw [count, wholeRequests, List.length_map, List.length_range])
  exact ⟨whole, whole⟩

theorem conclude_expected (job : UploadJob) (bytes : ByteArray) (name : String)
    (summary : PoolSummary) {sum : Option String}
    (digest : sum = if (UploadPlan.ofBytes bytes job.freshId).mode.computesChecksum then
      some (Checksum.ofBytes bytes) else none) :
    Upload.conclude job (UploadPlan.ofBytes bytes job.freshId) name summary (.exhausted sum) =
      Expected job bytes name summary.failed := by
  unfold Expected
  by_cases none_failed : summary.failed = 0
  · simp only [Upload.conclude, none_failed, Nat.lt_irrefl, if_false, if_true, digest]
    unfold wholeReference UploadPlan.reference UploadPlan.ofBytes
    by_cases big : bigFileThreshold < bytes.size
    · simp [big]
    · simp [big, UploadMode.computesChecksum]
  · have some_failed : 0 < summary.failed := Nat.pos_of_ne_zero none_failed
    simp only [Upload.conclude, some_failed, none_failed, if_false, if_true]
    rfl

/-- When the caller has something then the whole file has been sent and answered. -/
theorem Undisturbed.finished (h : Undisturbed job files bytes name events dispatch)
    {result : Result} (answer : dispatch.result? job = some result) :
    events.filterMap Event.started? = wholeRequests bytes job.freshId ∧
    ((events.filterMap Event.ended?).map Prod.fst).Perm (wholeRequests bytes job.freshId) ∧
    result = .returned (Expected job bytes name
      ((events.filterMap Event.ended?).countP fun call => call.2.isRefused)) := by
  obtain ⟨sum, summary, phase, rfl⟩ := exhausted_of_answer h.producer answer
  obtain ⟨queued, made⟩ := h.working.fed.queued_all h.carries h.plan phase
  obtain ⟨log, sent, tracked⟩ := h.working.tracked
  obtain ⟨_, calls, _, complete⟩ := tracked.finished phase
  have started := (complete h.answered).trans queued
  have digest := (h.working.fed.ended sum (by rw [phase]; rfl)).2
  rw [made, summed_hex, joined_wholeRequests, h.plan] at digest
  rw [started] at calls
  rw [h.plan, h.honest.name, conclude_expected job bytes name _ digest,
    tracked.failed phase h.answered]
  exact ⟨started, calls, rfl⟩

end Requests

end Dispatch

end ChunkedUpload
