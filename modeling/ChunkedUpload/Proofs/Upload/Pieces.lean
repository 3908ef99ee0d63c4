import ChunkedUpload.Proofs.Plan
import ChunkedUpload.Proofs.Upload.Feeding

/-! The pieces that a plan cuts out of the bytes of a source. Whatever the source says about its
size, the requests made of it are the first of these pieces. -/
namespace ChunkedUpload

/-- The stream that is measured and read, if there is one. -/
def Input.opened? (files : FileSystem) : Input → Option Stream
  | .path place handle => (files.read place).toOption.map handle
  | .stream given _ => some given

/-- The input has these bytes. It gives some of them with each read that it answers, if there are
more, since a read of no bytes is taken as the end of the input; but it need not answer, and may
report any size. -/
inductive Input.Carries (files : FileSystem) : Input → ByteArray → Prop
  | path {path : Path} {handle : ByteArray → Stream} {stream : Stream} {bytes : ByteArray}
      (found : Source.openPath files path handle = .ok stream)
      (holds : stream.content.Holds bytes) (steady : stream.Steady) :
      Carries files (.path path handle) bytes
  | stream {stream : Stream} {name : Option String} {bytes : ByteArray}
      (holds : stream.content.Holds bytes) (steady : stream.Steady) :
      Carries files (.stream stream name) bytes

theorem Source.openPath_ok {files : FileSystem} {path : Path} {handle : ByteArray → Stream}
    {stream : Stream} (opened : openPath files path handle = .ok stream) :
    ∃ bytes, files.read path = .ok bytes ∧ stream = handle bytes := by
  unfold openPath at opened
  split at opened
  · contradiction
  · split at opened
    · contradiction
    · split at opened
      · rename_i bytes found
        cases opened
        exact ⟨bytes, found, rfl⟩
      · contradiction

theorem Source.ofInput_ok {files : FileSystem} {input : Input} {limit : UInt64} {source : Source}
    (opened : (ofInput files input limit).1 = .ok source) :
    ∃ stream name owned, input.opened? files = some stream ∧
      (ofStream stream name owned limit).1 = .ok source := by
  cases input with
  | path path handle =>
    cases found : openPath files path handle with
    | error error =>
      simp only [ofInput, found] at opened
      contradiction
    | ok stream =>
      obtain ⟨bytes, read, rfl⟩ := openPath_ok found
      simp only [ofInput, found] at opened
      exact ⟨_, _, true, by rw [Input.opened?, read]; rfl, opened⟩
  | stream stream name => exact ⟨stream, _, false, rfl, opened⟩

/-- The source has these bytes and gives some of them with each read, if there are more. -/
structure Source.Carries (source : Source) (bytes : ByteArray) : Prop where
  holds : source.stream.content.Holds bytes
  steady : source.stream.Steady

theorem Source.Carries.moved {source after : Source} {bytes : ByteArray}
    (carries : source.Carries bytes) (moved : source.Moved after) : after.Carries bytes where
  holds := by rw [moved.content]; exact carries.holds
  steady := by rw [Stream.Steady, moved.reply]; exact carries.steady

theorem Input.Carries.opened {files : FileSystem} {input : Input} {bytes : ByteArray}
    {limit : UInt64} {source : Source} (carries : input.Carries files bytes)
    (opened : (Source.ofInput files input limit).1 = .ok source) : source.Carries bytes := by
  cases carries with
  | path found holds steady =>
    simp only [Source.ofInput, found] at opened
    obtain ⟨rfl, _, _⟩ := Source.ofStream_ok opened
    exact ⟨holds, steady⟩
  | stream holds steady =>
    obtain ⟨rfl, _, _⟩ := Source.ofStream_ok opened
    exact ⟨holds, steady⟩

namespace UploadPlan

/-- The request for one part of these bytes. -/
def piece (plan : UploadPlan) (bytes : ByteArray) (i : Nat) : PartRequest :=
  plan.request (UInt32.ofNat i) (bytes.extract (i * partSize) ((i + 1) * partSize))

def pieces (plan : UploadPlan) (bytes : ByteArray) (count : Nat) : List PartRequest :=
  (List.range count).map (plan.piece bytes)

section Pieces

variable (plan : UploadPlan) (bytes : ByteArray)

theorem pieces_take {count j : Nat} (few : j ≤ count) :
    (plan.pieces bytes count).take j = plan.pieces bytes j := by
  rw [pieces, ← List.map_take, List.take_range, Nat.min_eq_left few, pieces]

theorem pieces_numbered {count : Nat} (few : count ≤ 2 ^ 32) :
    (plan.pieces bytes count).map (fun request => request.part.toNat) = List.range count := by
  rw [pieces, List.map_map]
  refine (List.map_congr_left fun i inside => ?_).trans (List.map_id _)
  exact UInt32.toNat_ofNat_of_lt' (Nat.lt_of_lt_of_le (List.mem_range.mp inside) few)

theorem piece_full {i : Nat} (full : (i + 1) * partSize ≤ bytes.size) :
    (plan.piece bytes i).payload.size = partSize := by
  simp only [piece, request, ByteArray.size_extract]
  rw [Nat.min_eq_left full, Nat.succ_mul, Nat.add_sub_cancel_left]

end Pieces

end UploadPlan

namespace Dispatch

variable {events : List Event} {dispatch : Dispatch} {bytes : ByteArray}

theorem Fed.made_piece (h : Fed events dispatch) (first : dispatch.plan.startPart = 0)
    (carries : dispatch.source.Carries bytes) {i : Nat} {request : PartRequest}
    (found : (made events dispatch)[i]? = some request) :
    request = dispatch.plan.piece bytes i ∧ i * partSize < bytes.size := by
  obtain ⟨same, some_payload, _⟩ := h.numbered i request found
  have payload := h.sliced carries.steady i request found
  have begins : (0 : UInt32).toNat = 0 := rfl
  rw [first, begins, Nat.zero_add, carries.holds.slice, ← Nat.succ_mul] at payload
  constructor
  · rw [same, payload, first, UInt32.zero_add]
    rfl
  · rw [payload, ByteArray.size_extract] at some_payload
    omega

theorem Fed.made_pieces (h : Fed events dispatch) (first : dispatch.plan.startPart = 0)
    (carries : dispatch.source.Carries bytes) :
    made events dispatch = dispatch.plan.pieces bytes (made events dispatch).length := by
  apply List.ext_getElem?
  intro i
  cases found : (made events dispatch)[i]? with
  | none =>
    have beyond := List.getElem?_eq_none_iff.mp found
    rw [UploadPlan.pieces, List.getElem?_eq_none (by simpa using beyond)]
  | some request =>
    have inside := (List.getElem?_eq_some_iff.mp found).1
    rw [UploadPlan.pieces, List.getElem?_map, List.getElem?_range inside, Option.map_some,
      (h.made_piece first carries found).1]

theorem Fed.made_inside (h : Fed events dispatch) (first : dispatch.plan.startPart = 0)
    (carries : dispatch.source.Carries bytes) {i : Nat}
    (inside : i < (made events dispatch).length) : i * partSize < bytes.size :=
  (h.made_piece first carries (List.getElem?_eq_getElem inside)).2

theorem Fed.made_few (h : Fed events dispatch) (first : dispatch.plan.startPart = 0)
    (carries : dispatch.source.Carries bytes) :
    (made events dispatch).length ≤ partsFor bytes.size := by
  by_contra more
  have last := h.made_inside first carries (Nat.lt_of_not_le more)
  exact absurd (partsFor_covers bytes.size) (Nat.not_le_of_lt last)

/-- A steady source that has been read from its beginning to its end has been cut into as many
parts as cover it. -/
theorem Fed.covered (h : Fed events dispatch) {checksum : Option String} {summary : PoolSummary}
    (phase : dispatch.producer = .finished (.exhausted checksum) summary)
    (first : dispatch.plan.startPart = 0) (steady : dispatch.source.stream.Steady) :
    dispatch.source.stream.position = dispatch.source.stream.content.size ∧
    (events.filterMap Event.queued?).length = partsFor dispatch.source.stream.content.size := by
  have made : made events dispatch = _ := made_of_none (by rw [phase]; rfl)
  have outcome : dispatch.producer.outcome? = some (.exhausted checksum) := by
    rw [phase]
    rfl
  have step := Producer.isInStep_of_outcome outcome
  have spent := (h.ended checksum outcome).1 steady
  have reached := h.reached steady step
  have position := h.position step
  rw [made, first] at reached position
  have begins : (0 : UInt32).toNat = 0 := rfl
  rw [begins, Nat.zero_add, Nat.zero_mul] at reached
  have size : dispatch.source.stream.position = dispatch.source.stream.content.size := by omega
  refine ⟨size, ((partsFor_eq_iff _ _).mpr ⟨by omega, ?_⟩).symm⟩
  generalize count : (events.filterMap Event.queued?).length = k
  cases k with
  | zero =>
    have pos := partSize_pos
    omega
  | succ k =>
    -- the last part is not empty
    have inside : k < (Dispatch.made events dispatch).length := by
      rw [made]
      omega
    have last := List.getElem?_eq_getElem inside
    have some_read := (h.numbered k _ last).2.1
    have slice := congrArg ByteArray.size (h.sliced steady k _ last)
    rw [Content.size_slice, first, begins, Nat.zero_add] at slice
    rw [slice] at some_read
    have more := Nat.lt_of_sub_pos (Nat.lt_of_lt_of_le some_read (Nat.min_le_right _ _))
    rw [Nat.succ_mul]
    exact Nat.add_lt_add_right more partSize

end Dispatch

end ChunkedUpload
