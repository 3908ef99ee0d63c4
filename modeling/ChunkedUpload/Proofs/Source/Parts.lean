import ChunkedUpload.Proofs.Plan
import ChunkedUpload.Proofs.Source.Reading

/-! Reading a source to its end, part by part. A call that reads a part gathers what its reads give,
until the part is full, the stream has ended, or a read fails. Which bytes make a part does not
depend on how they are spread over the reads. -/
namespace ChunkedUpload

/-- Bytes cut into parts that stand one behind the other: all of them full but for the last one, and
none of them empty. -/
structure CutInto (whole : ByteArray) (parts : List ByteArray) : Prop where
  joined : parts.foldl (· ++ ·) ByteArray.empty = whole
  full : ∀ i part, parts[i]? = some part → i + 1 < parts.length → part.size = partSize
  some_bytes : ∀ part ∈ parts, 0 < part.size ∧ part.size ≤ partSize

namespace Content

variable (content : Content) (start : Nat)

/-- The part of this number, counted from `start`. -/
def partAt (i : Nat) : ByteArray := content.slice (start + i * partSize) partSize

def partsFrom : List ByteArray :=
  (List.range (partsFor (content.size - start))).map (content.partAt start)

theorem join_parts (count : Nat) (few : count ≤ partsFor (content.size - start)) :
    ((List.range count).map (content.partAt start)).foldl (· ++ ·) ByteArray.empty =
      content.slice start (count * partSize) := by
  induction count with
  | zero => rw [Nat.zero_mul, Content.slice_eq_empty _ (Nat.zero_min _)]; rfl
  | succ count ih =>
    have inside := lt_partsFor_iff.mp few
    rw [List.range_succ, List.map_append, List.foldl_append, ih (Nat.le_of_succ_le few),
      List.map_singleton, List.foldl_cons, List.foldl_nil, partAt,
      content.slice_append _ _ _ (by omega), Nat.succ_mul]

theorem slice_of_enough {few many : Nat} (enough : content.size - start ≤ few)
    (more : content.size - start ≤ many) : content.slice start few = content.slice start many := by
  apply bytes_eq_of_toList
  rw [toList_slice, toList_slice, Nat.min_eq_right enough, Nat.min_eq_right more]

theorem cutInto_partsFrom :
    CutInto (content.slice start content.size) (content.partsFrom start) := by
  have inside : ∀ i part, (content.partsFrom start)[i]? = some part →
      part = content.partAt start i ∧ i * partSize < content.size - start := by
    intro i part found
    rw [partsFrom, List.getElem?_map, Option.map_eq_some_iff] at found
    obtain ⟨j, listed, rfl⟩ := found
    obtain ⟨below, same⟩ := List.getElem?_eq_some_iff.mp listed
    rw [List.getElem_range] at same
    subst same
    exact ⟨rfl, lt_partsFor_iff.mp (by simpa using below)⟩
  have pos := partSize_pos
  constructor
  · rw [partsFrom, join_parts content start _ (Nat.le_refl _)]
    exact content.slice_of_enough start (partsFor_covers _) (Nat.sub_le _ _)
  · intro i part found more
    rw [partsFrom, List.length_map, List.length_range] at more
    have next := lt_partsFor_iff.mp more
    rw [Nat.succ_mul] at next
    rw [(inside i part found).1, partAt, size_slice]
    omega
  · intro part member
    obtain ⟨i, found⟩ := List.mem_iff_getElem?.mp member
    obtain ⟨rfl, below⟩ := inside i part found
    rw [partAt, size_slice]
    omega

end Content

namespace Stream

/-- Every read that is answered gives a byte at least, as long as there is one. -/
def Yielding (stream : Stream) : Prop :=
  ∀ number position count, position < stream.content.size →
    stream.reply number position = .upTo count → 0 < count

theorem Yielding.after {stream : Stream} (yielding : stream.Yielding) (position reads : Nat) :
    (stream.after position reads).Yielding :=
  yielding

/-- Every read is answered. -/
def Answering (stream : Stream) : Prop :=
  ∀ number position, ∃ count, stream.reply number position = .upTo count

/-- What some reads for a part have given together. Each of them had room left in the part and gave
some bytes. -/
inductive Gathers (stream : Stream) : ByteArray → Stream → Prop
  | nothing : Gathers stream ByteArray.empty stream
  | more {filled chunk : ByteArray} {moved next : Stream} (before : Gathers stream filled moved)
      (room : filled.size < partSize)
      (given : moved.read (partSize - filled.size) = (.bytes chunk, next))
      (some_bytes : chunk.size ≠ 0) : Gathers stream (filled ++ chunk) next

/-- How the reads for a part come to their end. -/
inductive Closes (filled : ByteArray) (moved : Stream) : PartRead → Stream → Prop
  | full (whole : partSize ≤ filled.size) : Closes filled moved (.part filled) moved
  | ended {chunk : ByteArray} {next : Stream} (room : filled.size < partSize)
      (given : moved.read (partSize - filled.size) = (.bytes chunk, next))
      (nothing : chunk.size = 0) :
      Closes filled moved (if filled.size = 0 then .ended else .part filled) next
  | failed {error : IoError} {next : Stream} (room : filled.size < partSize)
      (given : moved.read (partSize - filled.size) = (.failed error, next)) :
      Closes filled moved (.failed error) next
  | pending {next : Stream} (room : filled.size < partSize)
      (given : moved.read (partSize - filled.size) = (.pending, next)) :
      Closes filled moved .pending next

section After

variable (stream : Stream) (position reads next later : Nat)

theorem after_after :
    (stream.after position reads).after next later = stream.after next later :=
  rfl

theorem position_after : (stream.after position reads).position = position := rfl

theorem content_after : (stream.after position reads).content = stream.content := rfl

end After

section Gathers

variable {stream moved : Stream} {filled : ByteArray}

/-- What has been gathered is one stretch of the content, and the stream stands behind it. -/
theorem Gathers.stretch (gathered : Gathers stream filled moved) :
    filled.size ≤ partSize ∧ filled = stream.content.slice stream.position filled.size ∧
      ∃ reads, moved = stream.after (stream.position + filled.size) reads := by
  induction gathered with
  | nothing => exact ⟨Nat.zero_le _, (Content.slice_eq_empty _ (Nat.zero_min _)).symm, _, rfl⟩
  | @more filled chunk moved next before room given some_bytes ih =>
    obtain ⟨_, whole, reads, rfl⟩ := ih
    obtain ⟨count, _, slice, rfl⟩ := read_bytes given
    simp only [after] at slice
    have size := congrArg ByteArray.size slice
    have cut : chunk = stream.content.slice (stream.position + filled.size) chunk.size := by
      rw [slice, Content.slice_size]
    rw [Content.size_slice] at size
    refine ⟨by rw [ByteArray.size_append]; omega, ?_, reads + 1, ?_⟩
    · have joined := stream.content.slice_append stream.position filled.size chunk.size (by omega)
      rw [ByteArray.size_append, ← joined, ← whole, ← cut]
    · simp only [after, ByteArray.size_append, Nat.add_assoc]

theorem Closes.of_failed {next : Stream} {error : IoError}
    (closed : Closes filled moved (.failed error) next) :
    filled.size < partSize ∧ moved.read (partSize - filled.size) = (.failed error, next) := by
  generalize failed : PartRead.failed error = outcome at closed
  cases closed with
  | full | pending => cases failed
  | ended => split at failed <;> cases failed
  | failed room given =>
    cases failed
    exact ⟨room, given⟩

end Gathers

end Stream

namespace Source

section Fill

variable {stream moved next : Stream} {filled : ByteArray} {outcome : PartRead}

theorem fill_of_gathers (gathered : stream.Gathers filled moved) :
    fill stream ByteArray.empty = fill moved filled := by
  induction gathered with
  | nothing => rfl
  | more _ room given some_bytes ih =>
    rw [ih, fill, if_neg (Nat.not_le_of_lt room), given]
    exact if_neg some_bytes

theorem fill_of_closes (closed : Stream.Closes filled moved outcome next) :
    fill moved filled = (outcome, next) := by
  cases closed with
  | full whole => rw [fill, if_pos whole]
  | ended room given nothing =>
    rw [fill, if_neg (Nat.not_le_of_lt room), given]
    exact if_pos nothing
  | failed room given | pending room given => rw [fill, if_neg (Nat.not_le_of_lt room), given]

theorem closes_of_fill (gathered : stream.Gathers filled moved) :
    ∃ all last, stream.Gathers all last ∧
      Stream.Closes all last (fill moved filled).1 (fill moved filled).2 := by
  induction moved, filled using fill.induct with
  | case1 moved filled full =>
    rw [fill, if_pos full]
    exact ⟨filled, moved, gathered, .full full⟩
  | case2 moved filled more error next given =>
    rw [fill, if_neg more, given]
    exact ⟨filled, moved, gathered, .failed (Nat.lt_of_not_le more) given⟩
  | case3 moved filled more next given =>
    rw [fill, if_neg more, given]
    exact ⟨filled, moved, gathered, .pending (Nat.lt_of_not_le more) given⟩
  | case4 moved filled more chunk next given nothing =>
    rw [fill, if_neg more, given]
    simp only [nothing, if_true]
    exact ⟨filled, moved, gathered, .ended (Nat.lt_of_not_le more) given nothing⟩
  | case5 moved filled more chunk next given some_bytes ih =>
    rw [fill, if_neg more, given]
    simp only [some_bytes, if_false]
    exact ih (gathered.more (Nat.lt_of_not_le more) given some_bytes)

/-- Reading a part comes to whatever the reads made for it come to. -/
theorem fill_eq_iff : fill stream ByteArray.empty = (outcome, next) ↔
    ∃ filled moved, stream.Gathers filled moved ∧ Stream.Closes filled moved outcome next := by
  constructor
  · intro read
    obtain ⟨filled, moved, gathered, closed⟩ :=
      closes_of_fill (Stream.Gathers.nothing : stream.Gathers _ _)
    rw [read] at closed
    exact ⟨filled, moved, gathered, closed⟩
  · rintro ⟨filled, moved, gathered, closed⟩
    rw [fill_of_gathers gathered, fill_of_closes closed]

end Fill

end Source

/-- The call has come back, and without an error. -/
def PartRead.isAnswer : PartRead → Bool
  | part _ | ended => true
  | failed _ | pending => false

/-- How many bytes a call has given. -/
def PartRead.size : PartRead → Nat
  | part payload => payload.size
  | ended | failed _ | pending => 0

namespace Content

/-- What the call of this number gives, counted from the one that gives the part at `start`. -/
def callFrom (content : Content) (start i : Nat) : PartRead :=
  if i < partsFor (content.size - start) then .part (content.partAt start i) else .ended

theorem callsFrom_take (content : Content) (start count : Nat) :
    (List.range' 0 count).map (content.callFrom start) =
      ((content.partsFrom start).map PartRead.part ++
        List.replicate count PartRead.ended).take count := by
  have given : (content.partsFrom start).map PartRead.part =
      (List.range (partsFor (content.size - start))).map (content.callFrom start) := by
    rw [partsFrom, List.map_map]
    exact List.map_congr_left fun i inside => (if_pos (List.mem_range.mp inside)).symm
  have nothing : List.replicate count PartRead.ended =
      (List.range' (partsFor (content.size - start)) count).map (content.callFrom start) := by
    symm
    rw [List.eq_replicate_iff]
    refine ⟨by simp, fun outcome member => ?_⟩
    obtain ⟨i, beyond, rfl⟩ := List.mem_map.mp member
    exact if_neg (Nat.not_lt_of_le (List.mem_range'_1.mp beyond).1)
  have listed := List.range'_append_1 (s := 0) (m := partsFor (content.size - start)) (n := count)
  rw [Nat.zero_add] at listed
  rw [given, nothing, List.range_eq_range', ← List.map_append, listed, ← List.map_take,
    ← List.range_eq_range', ← List.range_eq_range', List.take_range, Nat.min_eq_left (by omega)]

end Content

namespace Source

/-- What so many calls give, one after the other. -/
def readParts (source : Source) : Nat → List PartRead × Source
  | 0 => ([], source)
  | count + 1 =>
    let (outcome, next) := source.readPart
    let (later, last) := next.readParts count
    (outcome :: later, last)

variable {source next : Source} {outcome : PartRead}

theorem readPart_eq_iff : source.readPart = (outcome, next) ↔
    ∃ filled moved last, source.stream.Gathers filled moved ∧
      Stream.Closes filled moved outcome last ∧ next = { source with stream := last } := by
  have made : source.readPart = ((fill source.stream ByteArray.empty).1,
      { source with stream := (fill source.stream ByteArray.empty).2 }) := rfl
  rw [made, Prod.mk.injEq]
  constructor
  · rintro ⟨rfl, rfl⟩
    obtain ⟨filled, moved, gathered, closed⟩ := fill_eq_iff.mp (Prod.eta (fill _ _)).symm
    exact ⟨filled, moved, _, gathered, closed, rfl⟩
  · rintro ⟨filled, moved, last, gathered, closed, rfl⟩
    have read := fill_eq_iff.mpr ⟨filled, moved, gathered, closed⟩
    rw [read]
    exact ⟨rfl, rfl⟩

/-- A call that comes back without an error moves the stream by what it gives. -/
theorem readPart_advances (read : source.readPart = (outcome, next))
    (answered : outcome.isAnswer = true) : next.stream = source.stream.after
      (source.stream.position + outcome.size) next.stream.reads := by
  obtain ⟨filled, moved, last, gathered, closed, rfl⟩ := readPart_eq_iff.mp read
  obtain ⟨_, _, reads, rfl⟩ := gathered.stretch
  cases closed with
  | full whole => rfl
  | @ended chunk next room given nothing =>
    obtain ⟨count, _, _, rfl⟩ := Stream.read_bytes given
    split
    · rename_i empty
      simp only [Stream.after, nothing, empty, PartRead.size]
    · simp only [Stream.after, nothing, PartRead.size, Nat.add_zero]
  | failed | pending => contradiction

/-- The bytes at the position of the stream, as many as make a part. -/
theorem readPart_yields (yielding : source.stream.Yielding)
    (read : source.readPart = (outcome, next)) (answered : outcome.isAnswer = true) :
    (source.stream.position < source.stream.content.size →
      outcome = .part (source.stream.content.slice source.stream.position partSize)) ∧
    (source.stream.content.size ≤ source.stream.position → outcome = .ended) := by
  obtain ⟨filled, moved, last, gathered, closed, rfl⟩ := readPart_eq_iff.mp read
  obtain ⟨limited, whole, reads, rfl⟩ := gathered.stretch
  have size := congrArg ByteArray.size whole
  rw [Content.size_slice] at size
  have pos := partSize_pos
  cases closed with
  | full full =>
    have all : filled.size = partSize := by omega
    exact ⟨fun _ => by rw [← all, ← whole], fun _ => by omega⟩
  | @ended chunk next room given nothing =>
    obtain ⟨count, reply, slice, _⟩ := Stream.read_bytes given
    have none_left := congrArg ByteArray.size slice
    simp only [Stream.after, Content.size_slice, nothing] at none_left
    -- a stream that has more would have given some of it
    have spent : source.stream.content.size ≤ source.stream.position + filled.size := by
      by_contra more
      have given := yielding _ _ _ (Nat.lt_of_not_le more) reply
      omega
    split
    · exact ⟨fun _ => by omega, fun _ => rfl⟩
    · refine ⟨fun _ => ?_, fun _ => by omega⟩
      rw [whole]
      congr 1
      exact Content.slice_of_enough _ _ (by omega) (by omega)
  | failed | pending => contradiction

theorem readPart_answers (answering : source.stream.Answering)
    (read : source.readPart = (outcome, next)) : outcome.isAnswer = true := by
  obtain ⟨filled, moved, last, gathered, closed, rfl⟩ := readPart_eq_iff.mp read
  obtain ⟨_, _, reads, rfl⟩ := gathered.stretch
  cases closed with
  | full => rfl
  | ended => split <;> rfl
  | failed _ given =>
    obtain ⟨fails, _⟩ := Stream.read_failed given
    obtain ⟨count, answers⟩ := answering _ _
    cases answers.symm.trans fails
  | pending _ given =>
    obtain ⟨hangs, _⟩ := Stream.read_pending given
    obtain ⟨count, answers⟩ := answering _ _
    cases answers.symm.trans hangs

/-- The source stands where so many parts from `start` on have been read, or at the end. -/
def Past (stream : Stream) (start count : Nat) (source : Source) : Prop :=
  ∃ reads, source.stream =
    stream.after (start + min (count * partSize) (stream.content.size - start)) reads

theorem add_min_eq {start done total : Nat} (inside : done ≤ total - start) (size : Nat) :
    start + done + min size (total - (start + done)) =
      start + min (done + size) (total - start) := by
  omega

theorem Past.call {stream : Stream} {start count : Nat} (past : Past stream start count source)
    (yielding : stream.Yielding) (read : source.readPart = (outcome, next))
    (answered : outcome.isAnswer = true) :
    outcome = stream.content.callFrom start count ∧ Past stream start (count + 1) next := by
  obtain ⟨reads, stands⟩ := past
  obtain ⟨some_left, none_left⟩ :=
    readPart_yields (by rw [stands]; exact yielding.after _ _) read answered
  have advanced := readPart_advances read answered
  rw [stands, Stream.content_after, Stream.position_after] at some_left none_left
  rw [stands, Stream.after_after, Stream.position_after] at advanced
  have moved (further : start + min (count * partSize) (stream.content.size - start) +
      outcome.size = start + min ((count + 1) * partSize) (stream.content.size - start)) :
      Past stream start (count + 1) next := by
    exact ⟨next.stream.reads, further ▸ advanced⟩
  rw [Nat.succ_mul] at moved
  by_cases more : count < partsFor (stream.content.size - start)
  · have inside := lt_partsFor_iff.mp more
    rw [Nat.min_eq_left (Nat.le_of_lt inside)] at some_left moved
    obtain rfl := some_left (by omega)
    refine ⟨(if_pos more).symm, moved ?_⟩
    rw [PartRead.size, Content.size_slice]
    exact add_min_eq (Nat.le_of_lt inside) partSize
  · have beyond := mt lt_partsFor_iff.mpr more
    obtain rfl := none_left (by omega)
    refine ⟨(if_neg more).symm, moved ?_⟩
    rw [PartRead.size]
    omega

theorem Past.readParts {stream : Stream} {start past : Nat} (yielding : stream.Yielding)
    (stands : Past stream start past source) (count : Nat)
    (answered : ∀ outcome ∈ (source.readParts count).1, outcome.isAnswer = true) :
    (source.readParts count).1 =
      (List.range' past count).map (stream.content.callFrom start) := by
  induction count generalizing source past with
  | zero => rfl
  | succ count ih =>
    simp only [Source.readParts, List.mem_cons, forall_eq_or_imp] at answered ⊢
    obtain ⟨given, further⟩ := stands.call yielding (Prod.eta source.readPart).symm answered.1
    rw [List.range'_succ, List.map_cons, given, ih further answered.2]

theorem answering_readParts (answering : source.stream.Answering) (count : Nat) :
    ∀ outcome ∈ (source.readParts count).1, outcome.isAnswer = true := by
  induction count generalizing source with
  | zero => simp [readParts]
  | succ count ih =>
    have answered := readPart_answers answering (Prod.eta source.readPart).symm
    have advanced := readPart_advances (Prod.eta source.readPart).symm answered
    simp only [readParts, List.mem_cons, forall_eq_or_imp]
    refine ⟨answered, ih ?_⟩
    rw [advanced]
    exact answering

theorem seekToPart_keeps {part : UInt32} (seek : source.seekToPart part = (.ok (), next)) :
    next.stream.content = source.stream.content ∧ next.stream.reply = source.stream.reply ∧
      next.stream.position = part.toNat * partSize := by
  rw [seekToPart_ok seek]
  exact ⟨rfl, rfl, rfl⟩

end Source

/-- A source that has been sent to one of its parts, also behind its end, gives what it holds from
there on as full parts with a shorter one at the end, and then tells that nothing is left, however
its bytes are spread over the reads. A call moves the stream by what it gives. It fails just in case
one of its own reads does, and with the same error. -/
theorem parts_cut_content {source sought : Source} {part : UInt32}
    (yielding : source.stream.Yielding) (seek : source.seekToPart part = (.ok (), sought)) :
    let content := source.stream.content
    let start := part.toNat * partSize
    let parts := content.partsFrom start
    CutInto (content.slice start content.size) parts ∧ sought.stream.position = start ∧
    ∀ count, let read := sought.readParts count
      ((∀ outcome ∈ read.1, outcome.isAnswer = true) →
        read.1 = (parts.map PartRead.part ++ List.replicate count PartRead.ended).take count) ∧
      (source.stream.Answering → ∀ outcome ∈ read.1, outcome.isAnswer = true) ∧
      ∀ outcome next, read.2.readPart = (outcome, next) →
        (outcome.isAnswer = true →
          next.stream.position = read.2.stream.position + outcome.size) ∧
        ∀ error, outcome = .failed error ↔ ∃ filled moved last,
          read.2.stream.Gathers filled moved ∧ filled.size < partSize ∧
          moved.read (partSize - filled.size) = (.failed error, last) := by
  intro content start parts
  obtain ⟨same, reply, position⟩ := Source.seekToPart_keeps seek
  have yields : sought.stream.Yielding := by
    rw [Stream.Yielding, same, reply]
    exact yielding
  have stands : Source.Past sought.stream start 0 sought := by
    refine ⟨sought.stream.reads, ?_⟩
    rw [Nat.zero_mul, Nat.zero_min, Nat.add_zero]
    exact congrArg (sought.stream.after · sought.stream.reads) position
  refine ⟨content.cutInto_partsFrom start, position, fun count => ⟨?_, ?_, ?_⟩⟩
  · intro answered
    rw [stands.readParts yields count answered, same, content.callsFrom_take]
  · intro answering
    have answers : sought.stream.Answering := by
      rw [Stream.Answering, reply]
      exact answering
    exact Source.answering_readParts answers count
  · intro outcome next call
    refine ⟨fun answered => ?_, fun error => ⟨?_, ?_⟩⟩
    · rw [Source.readPart_advances call answered]
      rfl
    · rintro rfl
      obtain ⟨filled, moved, last, gathered, closed, _⟩ := Source.readPart_eq_iff.mp call
      obtain ⟨room, given⟩ := closed.of_failed
      exact ⟨filled, moved, last, gathered, room, given⟩
    · rintro ⟨filled, moved, last, gathered, room, given⟩
      have failed := Source.readPart_eq_iff.mpr ⟨filled, moved, last, gathered,
        .failed room given, rfl⟩
      exact (Prod.mk.inj (call.symm.trans failed)).1

/-- Two bytes behind a full part, given one by one; and a stream that breaks after the first of
them. -/
theorem two_bytes_behind_full_part :
    let content : Content := ⟨partSize + 2, UInt8.ofNat⟩
    let error : IoError := .described "disk gone"
    let giving (reply : Nat → ReadReply) : Source :=
      ⟨{ Stream.ofContent content with reply := fun number _ => reply number }, 524290, "a", false⟩
    let whole := giving fun _ => .upTo 1
    let broken := giving fun number => if number = 1 then .failure error else .upTo 1
    whole.stream.Yielding ∧ broken.stream.Yielding ∧
    ((whole.seekToPart 1).2.readParts 2).1 = [.part ⟨#[0, 1]⟩, .ended] ∧
    (broken.seekToPart 1).2.readPart.1 = .failed error := by
  intro content error giving whole broken
  have yields : whole.stream.Yielding := by
    rintro number position count _ ⟨⟩
    exact Nat.one_pos
  have breaks : broken.stream.Yielding := by
    intro number position count _ answered
    simp only [broken, giving] at answered
    split at answered <;> cases answered
    exact Nat.one_pos
  refine ⟨yields, breaks, ?_, ?_⟩
  · have seek : whole.seekToPart 1 = (.ok (), (whole.seekToPart 1).2) := rfl
    obtain ⟨_, _, calls⟩ := parts_cut_content yields seek
    obtain ⟨given, answered, _⟩ := calls 2
    have parts : content.partsFrom partSize = [⟨#[0, 1]⟩] := by decide +kernel
    exact (given (answered fun _ _ => ⟨1, rfl⟩)).trans
      (congrArg (fun parts => (parts.map PartRead.part ++ [.ended, .ended]).take 2) parts)
  · have seek : broken.seekToPart 1 = (.ok (), (broken.seekToPart 1).2) := rfl
    obtain ⟨_, _, calls⟩ := parts_cut_content breaks seek
    have first := (Stream.Gathers.nothing : (broken.seekToPart 1).2.stream.Gathers _ _).more
      (by decide) rfl (by decide +kernel)
    exact (((calls 0).2.2 _ _ rfl).2 error).mpr ⟨_, _, _, first, by decide +kernel, rfl⟩

end ChunkedUpload
