import ChunkedUpload.Checksum.File
import ChunkedUpload.Proofs.Upload.Loss
import ChunkedUpload.Proofs.Upload.Whole

/-! The checksum of a file does not depend on how its bytes come: in which chunks they are fed, in
how many reads they are taken from a file, or in which parts they are uploaded. It is always the
MD5 of the whole in lowercase hex. -/
namespace ChunkedUpload

namespace Text

/-- The bytes in lowercase hex: two digits for each of them, which are read back as the number that
the bytes make, the highest first. -/
structure LowerHex (bytes : List UInt8) (cs : List Char) : Prop where
  length : cs.length = 2 * bytes.length
  digits : ∀ c ∈ cs, c ∈ "0123456789abcdef".toList
  value : ofHex? cs = some (bytes.foldl (fun n b => 256 * n + b.toNat) 0)

theorem hexDigit_spec : ∀ n < 16,
    hexDigit n ∈ "0123456789abcdef".toList ∧ hexValue (hexDigit n) = some n := by
  decide

theorem hexBytes_lower (bytes : List UInt8) : LowerHex bytes (hexBytes bytes).toList := by
  rw [hexBytes, String.toList_ofList]
  have high : ∀ b : UInt8, b.toNat / 16 < 16 := fun b => by
    have := b.toNat_lt
    omega
  have low : ∀ b : UInt8, b.toNat % 16 < 16 := fun b => Nat.mod_lt _ (by decide)
  refine ⟨?_, fun c member => ?_, ?_⟩
  · simp [Nat.mul_comm]
  · obtain ⟨b, _, digit⟩ := List.mem_flatMap.mp member
    rcases List.mem_pair.mp digit with rfl | rfl
    · exact (hexDigit_spec _ (high b)).1
    · exact (hexDigit_spec _ (low b)).1
  · rw [ofHex?]
    generalize 0 = start
    induction bytes generalizing start with
    | nil => rfl
    | cons b rest ih =>
      have joined : 16 * (16 * start + b.toNat / 16) + b.toNat % 16 = 256 * start + b.toNat := by
        omega
      simp only [List.flatMap_cons, List.cons_append, List.nil_append, List.foldlM_cons,
        (hexDigit_spec _ (high b)).2, (hexDigit_spec _ (low b)).2, Option.map_some,
        Option.bind_eq_bind, Option.bind_some, joined, List.foldl_cons]
      exact ih _

end Text

namespace Md5

/-- With its padding a message is a whole number of blocks. -/
theorem padded_blocks (message : ByteArray) :
    64 ∣ (message ++ padding message.size).size := by
  have size : (padding message.size).size = paddingZeros message.size + 9 := by
    have listed : (padding message.size).size =
        (0x80 :: List.replicate (paddingZeros message.size) 0 ++ lengthBytes message.size).length :=
      rfl
    rw [listed, List.length_append, List.length_cons, List.length_replicate, lengthBytes,
      List.length_map, List.length_range]
  rw [ByteArray.size_append, size, paddingZeros]
  omega

end Md5

namespace Checksum

/-- The sum that has been fed some chunks, one after the other. -/
def ofChunks (chunks : List ByteArray) : Checksum := chunks.foldl update empty

/-- Chunks put together. -/
def joinChunks (chunks : List ByteArray) : ByteArray := chunks.foldl (· ++ ·) ByteArray.empty

theorem Follows.chunks {message : ByteArray} {sum : Checksum} (follows : Follows message sum)
    (chunks : List ByteArray) :
    Follows (chunks.foldl (· ++ ·) message) (chunks.foldl Checksum.update sum) := by
  induction chunks generalizing message sum with
  | nil => exact follows
  | cons chunk rest ih => exact ih (follows.update chunk)

theorem ofChunks_follows (chunks : List ByteArray) :
    Follows (joinChunks chunks) (ofChunks chunks) := empty_follows.chunks chunks

theorem size_joinChunks (chunks : List ByteArray) :
    (joinChunks chunks).size = (chunks.map ByteArray.size).sum := by
  induction chunks using List.reverseRecOn with
  | nil => rfl
  | append_singleton rest chunk ih =>
    rw [joinChunks] at ih
    simp [joinChunks, ByteArray.size_append, ih]

section Reads

variable {bytes : ByteArray} {reads : Nat → Nat → Nat}

/-- Every read gives a byte at least, as long as there is one. -/
def Yielding (bytes : ByteArray) (reads : Nat → Nat → Nat) : Prop :=
  ∀ number position, position < bytes.size → 0 < reads number position

theorem feedReads_follows (yielding : Yielding bytes reads) (number : Nat) {position : Nat}
    {sum : Checksum} (follows : Follows (bytes.extract 0 position) sum) :
    Follows bytes (feedReads bytes reads number position sum) := by
  induction number, position, sum using feedReads.induct bytes reads with
  | case1 number position sum stop spent =>
    rw [feedReads, if_pos spent]
    have piece : 0 < pieceSize := by decide
    have behind : bytes.size ≤ position := by
      by_contra more
      have given := yielding number position (Nat.lt_of_not_le more)
      omega
    have whole : bytes.extract 0 position = bytes := by
      rw [← extract_min, Nat.min_eq_right behind, ByteArray.extract_zero_size]
    rwa [whole] at follows
  | case2 number position sum stop more ih =>
    rw [feedReads, if_neg more]
    apply ih
    have joined := follows.update (bytes.extract position stop)
    rwa [ByteArray.extract_append_extract, Nat.zero_min,
      Nat.max_eq_right (Nat.le_of_not_le more)] at joined

/-- In however many reads a file gives its bytes, its checksum is that of the bytes. -/
theorem ofFileIn_eq (yielding : Yielding bytes reads) {files : FileSystem} {path : Path}
    (found : files.read path = .ok bytes) : ofFileIn reads files path = .ok (ofBytes bytes) := by
  have nothing : Follows (bytes.extract 0 0) empty := by
    rw [ByteArray.extract_same]
    exact empty_follows
  have sum := (feedReads_follows yielding 0 nothing).hex
  unfold FileSystem.read at found
  unfold ofFileIn
  cases opened : files.openFile path with
  | error error =>
    rw [opened] at found
    contradiction
  | ok handle =>
    rw [opened] at found
    have given : files.readHandle handle = .ok bytes := found
    simp only [given, sum]

end Reads

end Checksum

section Uploads

variable {files : FileSystem} {bytes : ByteArray}

/-- The input has these bytes and tells how many they are. -/
structure Input.Measures (files : FileSystem) (input : Input) (bytes : ByteArray) : Prop where
  carries : input.Carries files bytes
  reported : ∀ stream, input.opened? files = some stream → stream.reportedSize.toNat = bytes.size

theorem Input.Measures.opened {input : Input} {limit : UInt64} {source : Source}
    (measures : input.Measures files bytes)
    (opened : (Source.ofInput files input limit).1 = .ok source) :
    source.size.toNat = bytes.size := by
  obtain ⟨stream, name, owned, found, measured⟩ := Source.ofInput_ok opened
  obtain ⟨rfl, _, _⟩ := Source.ofStream_ok measured
  exact measures.reported stream found

/-- What a caller is given refers to the whole input, whatever else has happened to its upload. -/
theorem Upload.reference_whole {job : UploadJob} {cancelled : Bool} {moves : List Move}
    {last : Upload} {events : List Event} {reference : FileReference}
    (measures : job.input.Measures files bytes)
    (found : ∀ move ∈ moves, ∀ other, move = .openInput other → other = files)
    (run : (Upload.begin job cancelled).run? moves = some (last, events))
    (answer : last.result = some (.returned (.ok (some reference)))) :
    reference = wholeReference bytes job.freshId reference.name := by
  have standing := Upload.run_working found run
  obtain ⟨dispatch, checksum, summary, _, working, phase, _, given⟩ :=
    standing.dispatch_of_reference answer
  obtain ⟨other, source, same, opened, moved⟩ := working.origin
  obtain rfl := same other rfl
  have sized := measures.opened opened.opened
  have carries := (measures.carries.opened opened.opened).moved moved
  obtain ⟨whole, _, _, named⟩ := UploadPlan.reference_eq given
  obtain ⟨fresh, _⟩ := UploadPlan.make_whole opened.planned whole
  have planned := opened.planned
  rw [fresh, UploadPlan.make_ofBytes sized] at planned
  have plan := (Except.ok.inj planned).symm
  have digest := (working.fed.ended checksum (by rw [phase]; rfl)).2
  rw [(working.fed.queued_all carries plan phase).2, summed_hex, joined_wholeRequests,
    plan] at digest
  rw [plan, digest] at given
  rw [named, ← Option.some_inj, ← given]
  unfold wholeReference UploadPlan.reference UploadPlan.ofBytes
  by_cases big : bigFileThreshold < bytes.size
  · simp [big]
  · simp [big, UploadMode.computesChecksum]

end Uploads

/-- Chunks fed one after the other, of whatever lengths, give the MD5 of the whole in lowercase hex,
and the sum tells how much it has been fed. So the checksum of a file of at most 10 MiB, in however
many reads its bytes come, is the one in the reference that the caller gets for its upload, however
the parts are read and sent. -/
theorem checksums_agree :
    (∀ chunks : List ByteArray,
      let whole := Checksum.joinChunks chunks
      (Checksum.ofChunks chunks).hex = Checksum.ofBytes whole ∧
      Text.LowerHex (Md5.digest whole) (Checksum.ofBytes whole).toList ∧
      64 ∣ (whole ++ Md5.padding whole.size).size ∧
      ∀ count, (Checksum.ofChunks (chunks.take count)).bytes =
        ((chunks.take count).map ByteArray.size).sum) ∧
    ∀ (files : FileSystem) (path : Path) (bytes : ByteArray), files.read path = .ok bytes →
      bytes.size ≤ bigFileThreshold →
      Checksum.ofFile files path = .ok (Checksum.ofBytes bytes) ∧
      (∀ reads, Checksum.Yielding bytes reads →
        Checksum.ofFileIn reads files path = .ok (Checksum.ofBytes bytes)) ∧
      ∀ (job : UploadJob) (cancelled : Bool) (disk : FileSystem) (moves : List Move)
        (last : Upload) (events : List Event) (reference : FileReference),
        job.input.Measures disk bytes →
        (∀ move ∈ moves, ∀ other, move = .openInput other → other = disk) →
        (Upload.begin job cancelled).run? moves = some (last, events) →
        last.result = some (.returned (.ok (some reference))) →
        reference.isBig = false ∧ reference.checksum = some (Checksum.ofBytes bytes) := by
  constructor
  · intro chunks whole
    refine ⟨(Checksum.ofChunks_follows chunks).hex, Text.hexBytes_lower _, Md5.padded_blocks whole,
      fun count => ?_⟩
    rw [(Checksum.ofChunks_follows _).bytes, Checksum.size_joinChunks]
  · intro files path bytes found small
    have full : Checksum.Yielding bytes fun _ _ => Checksum.pieceSize :=
      fun _ _ _ => (by decide : 0 < Checksum.pieceSize)
    refine ⟨Checksum.ofFileIn_eq full found, fun reads yielding =>
      Checksum.ofFileIn_eq yielding found, ?_⟩
    intro job cancelled disk moves last events reference measures same run answer
    have whole := Upload.reference_whole measures same run answer
    have sum := congrArg FileReference.checksum whole
    rw [wholeReference, if_neg (Nat.not_lt_of_le small)] at sum
    exact ⟨by rw [FileReference.isBig, sum]; rfl, sum⟩

/-- Two bytes in chunks, one of them empty; and a file of one byte that is uploaded. -/
theorem two_bytes_and_a_file :
    let files : FileSystem := ⟨[([[97]], .file 0)], [(0, ⟨#[65]⟩)], 1, []⟩
    let path := Path.ofString "/a"
    let job := plainJob (Stream.ofBytes ⟨#[65]⟩)
    (Checksum.ofChunks [⟨#[65]⟩, ByteArray.empty, ⟨#[66]⟩]).hex =
      "b86fc6b051f63d73de262d4c34e3a0a9" ∧
    Checksum.ofFileIn (fun _ _ => 1) files path = .ok "7fc56270e7a70fa81a5935b72eacbe29" ∧
    ∃ last events reference,
      (Upload.begin job false).run? onePartMoves = some (last, events) ∧
      last.result = some (.returned (.ok (some reference))) ∧
      reference.checksum = some "7fc56270e7a70fa81a5935b72eacbe29" := by
  intro files path job
  obtain ⟨chunked, filed⟩ := checksums_agree
  have found : files.read path = .ok ⟨#[65]⟩ := by decide +kernel
  obtain ⟨_, summed, uploaded⟩ := filed files path _ found (by decide)
  have one : Checksum.ofBytes ⟨#[65]⟩ = "7fc56270e7a70fa81a5935b72eacbe29" := by decide +kernel
  rw [one] at summed uploaded
  refine ⟨?_, summed _ fun _ _ _ => Nat.one_pos, ?_⟩
  · rw [(chunked _).1]
    decide +kernel
  · have outcome : (((Upload.begin job false).run? onePartMoves).bind fun ran =>
        ran.1.result.bind Result.reference?).isSome = true := by decide +kernel
    obtain ⟨reference, given⟩ := Option.isSome_iff_exists.mp outcome
    obtain ⟨⟨last, events⟩, run, later⟩ := Option.bind_eq_some_iff.mp given
    obtain ⟨result, answer, made⟩ := Option.bind_eq_some_iff.mp later
    rw [Result.eq_of_reference made] at answer
    have measures : job.input.Measures FileSystem.empty ⟨#[65]⟩ := by
      refine ⟨.stream (Content.holds_ofBytes _) (Stream.serving_ofContent _).steady, ?_⟩
      rintro stream ⟨⟩
      rfl
    have same : ∀ move ∈ onePartMoves, ∀ other, move = .openInput other →
        other = FileSystem.empty := by
      simp [onePartMoves]
    exact ⟨last, events, reference, run, answer,
      (uploaded job false FileSystem.empty onePartMoves last events reference measures same run
        answer).2⟩

end ChunkedUpload
