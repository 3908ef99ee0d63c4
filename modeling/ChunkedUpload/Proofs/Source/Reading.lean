import ChunkedUpload.Source
import Mathlib.Data.List.Basic

/-! Reading a source part by part. A read moves the stream by what it gives and changes nothing else
that matters; and a stream that gives at least one byte as long as it has one fills every part, in
however many reads. -/
namespace ChunkedUpload

theorem bytes_eq_of_toList {a b : ByteArray} (same : a.data.toList = b.data.toList) : a = b :=
  ByteArray.ext (Array.toList_inj.mp same)

namespace Content

variable (content : Content)

theorem toList_collect (start count : Nat) (collected : ByteArray) :
    (content.collect start count collected).data.toList =
      collected.data.toList ++ (List.range' start count).map content.byte := by
  induction count generalizing start collected with
  | zero => simp [collect]
  | succ count ih =>
    rw [collect, ih, List.range'_succ]
    simp [List.append_assoc]

theorem toList_slice (start count : Nat) :
    (content.slice start count).data.toList =
      (List.range' start (min count (content.size - start))).map content.byte := by
  rw [slice, toList_collect]
  rfl

@[simp] theorem size_slice (start count : Nat) :
    (content.slice start count).size = min count (content.size - start) := by
  have listed := congrArg List.length (content.toList_slice start count)
  simpa using listed

theorem slice_append (start first second : Nat) (inside : start + first ≤ content.size) :
    content.slice start first ++ content.slice (start + first) second =
      content.slice start (first + second) := by
  apply bytes_eq_of_toList
  have whole : min first (content.size - start) = first := by omega
  have rest : min (first + second) (content.size - start) =
      first + min second (content.size - (start + first)) := by omega
  rw [ByteArray.data_append, Array.toList_append, toList_slice, toList_slice, toList_slice, whole,
    rest, ← List.map_append, List.range'_append_1]

theorem slice_size (start count : Nat) :
    content.slice start (content.slice start count).size = content.slice start count := by
  apply bytes_eq_of_toList
  simp only [toList_slice, size_slice]
  congr 2
  omega

theorem slice_eq_empty {start count : Nat} (nothing : min count (content.size - start) = 0) :
    content.slice start count = ByteArray.empty := by
  apply bytes_eq_of_toList
  rw [toList_slice, nothing]
  rfl

/-- The content has these bytes. -/
structure Holds (bytes : ByteArray) : Prop where
  size : content.size = bytes.size
  byte : ∀ i (inside : i < bytes.size), content.byte i = bytes[i]

theorem Holds.slice {content : Content} {bytes : ByteArray} (holds : content.Holds bytes)
    (start count : Nat) : content.slice start count = bytes.extract start (start + count) := by
  have sizes : (content.slice start count).size = (bytes.extract start (start + count)).size := by
    rw [size_slice, ByteArray.size_extract, holds.size]
    omega
  apply ByteArray.ext_getElem sizes
  intro i inside _
  have listed : some (content.slice start count)[i] =
      (content.slice start count).data.toList[i]? := by
    rw [ByteArray.getElem_eq_getElem_data, Array.getElem?_toList, Array.getElem?_eq_getElem]
  rw [size_slice] at inside
  rw [toList_slice, List.getElem?_map, List.getElem?_range' inside, Option.map_some,
    holds.byte (start + 1 * i) (by rw [← holds.size]; omega)] at listed
  rw [ByteArray.getElem_extract]
  simpa using listed

theorem Holds.unique {content : Content} {first second : ByteArray} (left : content.Holds first)
    (right : content.Holds second) : first = second := by
  have sizes := left.size.symm.trans right.size
  refine ByteArray.ext_getElem sizes fun i inside _ => ?_
  rw [← left.byte i inside, ← right.byte i]

theorem holds_ofBytes (bytes : ByteArray) : (ofBytes bytes).Holds bytes where
  size := rfl
  byte i inside := by simp [ofBytes, inside]

end Content

namespace Stream

/-- Every read gives a byte at least, if it gives anything and there is one. A read of no bytes is
taken as the end of the stream, so that one from a stream that is not steady would cut it off. -/
def Steady (stream : Stream) : Prop :=
  ∀ number position count, stream.reply number position = .upTo count → 0 < count

/-- Every read is answered with bytes, as long as there are any. -/
def Serving (stream : Stream) : Prop :=
  ∀ number position, ∃ count, 0 < count ∧ stream.reply number position = .upTo count

theorem Serving.steady {stream : Stream} (serving : stream.Serving) : stream.Steady := by
  intro number position count answered
  obtain ⟨given, some_given, same⟩ := serving number position
  rw [same] at answered
  cases answered
  exact some_given

theorem serving_ofContent (content : Content) : (ofContent content).Serving :=
  fun _ _ => ⟨max content.size 1, Nat.le_max_right _ _, rfl⟩

/-- The stream after some reads. -/
def after (stream : Stream) (position reads : Nat) : Stream :=
  { stream with position := position, reads := reads }

theorem read_bytes {stream moved : Stream} {wanted : Nat} {chunk : ByteArray}
    (answer : stream.read wanted = (.bytes chunk, moved)) :
    ∃ count, stream.reply stream.reads stream.position = .upTo count ∧
      chunk = stream.content.slice stream.position (min count wanted) ∧
      moved = stream.after (stream.position + chunk.size) (stream.reads + 1) := by
  unfold read at answer
  split at answer
  · rename_i count answered
    cases answer
    exact ⟨count, answered, rfl, rfl⟩
  · cases answer
  · cases answer

theorem read_failed {stream moved : Stream} {wanted : Nat} {error : IoError}
    (answer : stream.read wanted = (.failed error, moved)) :
    stream.reply stream.reads stream.position = .failure error ∧
      moved = stream.after stream.position (stream.reads + 1) := by
  unfold read at answer
  split at answer
  · cases answer
  · rename_i failure answered
    cases answer
    exact ⟨answered, rfl⟩
  · cases answer

theorem read_pending {stream moved : Stream} {wanted : Nat}
    (answer : stream.read wanted = (.pending, moved)) :
    stream.reply stream.reads stream.position = .never ∧
      moved = stream.after stream.position (stream.reads + 1) := by
  unfold read at answer
  split at answer
  · cases answer
  · cases answer
  · rename_i answered
    cases answer
    exact ⟨answered, rfl⟩

end Stream

namespace Source

/-- What the reads for one part come to. -/
inductive Filled (stream : Stream) (filled : ByteArray) : PartRead → Stream → Prop
  | part {payload : ByteArray} {position reads : Nat} (grown : filled.size ≤ payload.size)
      (some_read : 0 < payload.size) (limited : payload.size ≤ partSize)
      (moved : position + filled.size = stream.position + payload.size)
      (whole : stream.Steady → payload =
        filled ++ stream.content.slice stream.position (partSize - filled.size)) :
      Filled stream filled (.part payload) (stream.after position reads)
  | ended {reads : Nat} (nothing : filled.size = 0)
      (spent : stream.Steady → stream.content.size ≤ stream.position) :
      Filled stream filled .ended (stream.after stream.position reads)
  | failed {error : IoError} {position reads : Nat}
      (answered : ∃ number place, stream.reply number place = .failure error) :
      Filled stream filled (.failed error) (stream.after position reads)
  | pending {position reads : Nat} (answered : ∃ number place, stream.reply number place = .never) :
      Filled stream filled .pending (stream.after position reads)

/-- One read that has given some bytes of a part. -/
theorem Filled.grow {stream : Stream} {filled : ByteArray} {count : Nat} {outcome : PartRead}
    {moved : Stream} (answered : stream.reply stream.reads stream.position = .upTo count)
    (room : filled.size < partSize) (chunk : ByteArray)
    (given : chunk = stream.content.slice stream.position (min count (partSize - filled.size)))
    (rest : Filled (stream.after (stream.position + chunk.size) (stream.reads + 1))
      (filled ++ chunk) outcome moved) (some_given : chunk.size ≠ 0) :
    Filled stream filled outcome moved := by
  have size := congrArg ByteArray.size given
  rw [Content.size_slice] at size
  cases rest with
  | part grown some_read limited position whole =>
    simp only [ByteArray.size_append, Stream.after] at grown position
    refine .part (by omega) some_read limited (by omega) fun steady => ?_
    have more := steady _ _ _ answered
    rw [whole steady]
    simp only [Stream.after, ByteArray.size_append]
    have cut : chunk = stream.content.slice stream.position chunk.size := by
      rw [given, Content.slice_size]
    have wanted :
        partSize - filled.size = chunk.size + (partSize - (filled.size + chunk.size)) := by omega
    have joined := stream.content.slice_append stream.position chunk.size
      (partSize - (filled.size + chunk.size)) (by omega)
    rw [ByteArray.append_assoc, wanted, ← joined, ← cut]
  | ended nothing spent =>
    simp only [ByteArray.size_append] at nothing
    omega
  | failed failure => exact .failed failure
  | pending never => exact .pending never

theorem fill_spec (stream : Stream) (filled : ByteArray) (room : filled.size ≤ partSize) :
    Filled stream filled (fill stream filled).1 (fill stream filled).2 := by
  induction stream, filled using fill.induct with
  | case1 stream filled full =>
    rw [fill, if_pos full]
    have here :
        Filled stream filled (.part filled) (stream.after stream.position stream.reads) := by
      refine .part (Nat.le_refl _) ?_ room rfl fun _ => ?_
      · have : 0 < partSize := by decide
        omega
      · rw [Content.slice_eq_empty _ (by omega), ByteArray.append_empty]
    exact here
  | case2 stream filled more error moved answer =>
    obtain ⟨answered, rfl⟩ := Stream.read_failed answer
    rw [fill, if_neg more, answer]
    exact .failed ⟨_, _, answered⟩
  | case3 stream filled more moved answer =>
    obtain ⟨answered, rfl⟩ := Stream.read_pending answer
    rw [fill, if_neg more, answer]
    exact .pending ⟨_, _, answered⟩
  | case4 stream filled more chunk moved answer nothing =>
    obtain ⟨count, answered, given, rfl⟩ := Stream.read_bytes answer
    have size := congrArg ByteArray.size given
    rw [Content.size_slice, nothing] at size
    rw [fill, if_neg more, answer]
    simp only [nothing, if_true]
    have spent : stream.Steady → stream.content.size ≤ stream.position := by
      intro steady
      have := steady _ _ _ answered
      omega
    split
    · rename_i empty
      exact .ended empty spent
    · rename_i some_filled
      refine .part (Nat.le_refl _) (by omega) room (by omega) fun steady => ?_
      have := spent steady
      rw [Content.slice_eq_empty _ (by omega), ByteArray.append_empty]
  | case5 stream filled more chunk moved answer some_given ih =>
    obtain ⟨count, answered, given, rfl⟩ := Stream.read_bytes answer
    have size := congrArg ByteArray.size given
    rw [Content.size_slice] at size
    rw [fill, if_neg more, answer]
    simp only [some_given, if_false]
    have rest := ih (by rw [ByteArray.size_append]; omega)
    exact Filled.grow answered (by omega) chunk given rest some_given

/-- Whatever the reads give at a time, a part is one stretch of the content. -/
theorem fill_stretch {stream moved : Stream} {filled payload : ByteArray}
    (given : fill stream filled = (.part payload, moved)) :
    ∃ count, payload = filled ++ stream.content.slice stream.position count := by
  induction stream, filled using fill.induct with
  | case1 stream filled full =>
    rw [fill, if_pos full] at given
    cases given
    exact ⟨0, by rw [Content.slice_eq_empty _ (Nat.zero_min _), ByteArray.append_empty]⟩
  | case2 stream filled more error moved answer =>
    rw [fill, if_neg more, answer] at given
    cases given
  | case3 stream filled more moved answer =>
    rw [fill, if_neg more, answer] at given
    cases given
  | case4 stream filled more chunk moved answer nothing =>
    rw [fill, if_neg more, answer] at given
    simp only [nothing, if_true] at given
    split at given <;> cases given
    exact ⟨0, by rw [Content.slice_eq_empty _ (Nat.zero_min _), ByteArray.append_empty]⟩
  | case5 stream filled more chunk moved answer some_given ih =>
    obtain ⟨count, _, read, rfl⟩ := Stream.read_bytes answer
    rw [fill, if_neg more, answer] at given
    simp only [some_given, if_false] at given
    obtain ⟨rest, whole⟩ := ih given
    have size := congrArg ByteArray.size read
    rw [Content.size_slice] at size
    have cut : chunk = stream.content.slice stream.position chunk.size := by
      rw [read, Content.slice_size]
    have joined := stream.content.slice_append stream.position chunk.size rest (by omega)
    refine ⟨chunk.size + rest, ?_⟩
    rw [whole, ByteArray.append_assoc, ← joined, ← cut]
    rfl

theorem readPart_stretch {source after : Source} {payload : ByteArray}
    (given : source.readPart = (.part payload, after)) :
    payload = source.stream.content.slice source.stream.position payload.size := by
  cases read : fill source.stream ByteArray.empty with
  | mk outcome moved =>
    simp only [readPart, read] at given
    cases given
    obtain ⟨count, whole⟩ := fill_stretch read
    rw [ByteArray.empty_append] at whole
    rw [whole, Content.slice_size]

/-- The source when its stream has been read. -/
def moved (source : Source) (position reads : Nat) : Source :=
  { source with stream := source.stream.after position reads }

/-- What reading one part gives. -/
inductive Gives (source : Source) : PartRead → Source → Prop
  | part {payload : ByteArray} {reads : Nat} (some_read : 0 < payload.size)
      (limited : payload.size ≤ partSize) (whole : source.stream.Steady →
        payload = source.stream.content.slice source.stream.position partSize) :
      Gives source (.part payload) (source.moved (source.stream.position + payload.size) reads)
  | ended {reads : Nat}
      (spent : source.stream.Steady → source.stream.content.size ≤ source.stream.position) :
      Gives source .ended (source.moved source.stream.position reads)
  | failed {error : IoError} {position reads : Nat}
      (answered : ∃ number place, source.stream.reply number place = .failure error) :
      Gives source (.failed error) (source.moved position reads)
  | pending {position reads : Nat}
      (answered : ∃ number place, source.stream.reply number place = .never) :
      Gives source .pending (source.moved position reads)

theorem readPart_gives (source : Source) : Gives source source.readPart.1 source.readPart.2 := by
  have filled := fill_spec source.stream ByteArray.empty (Nat.zero_le _)
  simp only [readPart]
  generalize fill source.stream ByteArray.empty = outcome at filled
  obtain ⟨read, stream⟩ := outcome
  cases filled with
  | part _ some_read limited position whole =>
    simp only [ByteArray.size_empty, Nat.add_zero, Nat.sub_zero, ByteArray.empty_append]
      at position whole
    subst position
    exact .part some_read limited whole
  | ended _ spent => exact .ended spent
  | failed answered => exact .failed answered
  | pending answered => exact .pending answered

theorem ofStream_ok {stream : Stream} {name : String} {owned : Bool} {limit : UInt64}
    {source : Source} (opened : (ofStream stream name owned limit).1 = .ok source) :
    source = ⟨{ stream with position := 0, seeks := stream.seeks + 2 }, stream.reportedSize, name,
      owned⟩ ∧ stream.reportedSize ≠ 0 ∧ stream.reportedSize ≤ limit := by
  unfold ofStream Stream.seekToEnd Stream.seekTo at opened
  cases first : stream.seekFailure stream.seeks with
  | some error => simp [first] at opened
  | none =>
    cases second : stream.seekFailure (stream.seeks + 1) with
    | some error => simp [first, second] at opened
    | none =>
      simp only [first, second] at opened
      split at opened
      · contradiction
      · rename_i some_bytes
        split at opened
        · contradiction
        · rename_i within
          cases opened
          exact ⟨rfl, some_bytes, UInt64.not_lt.mp within⟩

theorem ofStream_opens {stream : Stream} {limit : UInt64}
    (seeking : ∀ number, stream.seekFailure number = none) (some_bytes : stream.reportedSize ≠ 0)
    (within : stream.reportedSize ≤ limit) (name : String) (owned : Bool) :
    (ofStream stream name owned limit).1 = .ok
      ⟨{ stream with position := 0, seeks := stream.seeks + 2 }, stream.reportedSize, name,
        owned⟩ := by
  have inside : ¬ limit < stream.reportedSize := UInt64.not_lt.mpr within
  simp [ofStream, Stream.seekToEnd, Stream.seekTo, seeking, some_bytes, inside]

theorem seekToPart_ok {source after : Source} {part : UInt32}
    (sought : source.seekToPart part = (.ok (), after)) :
    after = { source with stream := { source.stream with
      seeks := source.stream.seeks + 1, position := part.toNat * partSize } } := by
  unfold seekToPart Stream.seekTo at sought
  cases failure : source.stream.seekFailure source.stream.seeks <;>
    simp only [failure] at sought <;> cases sought
  rfl

theorem seekToPart_error {source after : Source} {part : UInt32} {error : UploadError}
    (sought : source.seekToPart part = (.error error, after)) :
    (∃ failure, error = .io failure ∧
      source.stream.seekFailure source.stream.seeks = some failure) ∧
    after = { source with stream := { source.stream with seeks := source.stream.seeks + 1 } } := by
  unfold seekToPart Stream.seekTo at sought
  cases failure : source.stream.seekFailure source.stream.seeks <;>
    simp only [failure] at sought <;> cases sought
  exact ⟨⟨_, rfl, rfl⟩, rfl⟩

end Source

end ChunkedUpload
