import ChunkedUpload.Proofs.Store.Mapping
import Mathlib

/-! What becomes of the file that parts are put together in, wherever it stands and however it ends.
It is emptied before the first part is read, and it is not put back. -/
namespace ChunkedUpload.Store

variable {store : Store} {files after : FileSystem} {fileId : Int64} {part total : UInt32}
  {out : Path} {number : Nat} {piece : UInt32 → ByteArray}

section Numbers

/-- The pieces of these parts, one behind the other. -/
def concat (piece : UInt32 → ByteArray) (parts : List UInt32) : ByteArray :=
  (parts.map piece).foldl (· ++ ·) ByteArray.empty

theorem foldl_concat (start : ByteArray) (parts : List UInt32) :
    (parts.map piece).foldl (· ++ ·) start = start ++ concat piece parts := by
  have associative : Std.Associative fun a b : ByteArray => a ++ b :=
    ⟨fun _ _ _ => ByteArray.append_assoc⟩
  conv_lhs => rw [← ByteArray.append_empty (b := start)]
  exact List.foldl_assoc

theorem concat_split (front later : List UInt32) :
    concat piece (front ++ part :: later) =
      concat piece front ++ piece part ++ concat piece later := by
  rw [concat, List.map_append, List.foldl_append, List.map_cons, List.foldl_cons, foldl_concat]
  rfl

theorem partNumbers_split (below : part < total) :
    ∃ later, partNumbers total = partNumbers part ++ part :: later ∧
      ∀ other ∈ later, part < other := by
  obtain ⟨rest, count⟩ := Nat.exists_eq_add_of_lt (UInt32.lt_iff_toNat_lt.mp below)
  have split : partNumbers total = partNumbers part ++
      part :: (List.range rest).map fun i => UInt32.ofNat (part.toNat + (i + 1)) := by
    rw [partNumbers, count, Nat.add_assoc, List.range_add, List.map_append, List.map_map,
      List.range_succ_eq_map, List.map_cons, List.map_map]
    simp [partNumbers, Function.comp_def]
  refine ⟨_, split, ?_⟩
  have increasing := partNumbers_increasing total
  rw [split, List.pairwise_append, List.pairwise_cons] at increasing
  exact increasing.2.1.1

theorem exists_first {Fits : UInt32 → Prop} (some_part : ∃ part, Fits part) :
    ∃ first, Fits first ∧ ∀ part < first, ¬ Fits part := by
  obtain ⟨first, fits, least⟩ := (measure UInt32.toNat).wf.has_min {part | Fits part} some_part
  exact ⟨first, fits, fun part below here => least part here (UInt32.lt_iff_toNat_lt.mp below)⟩

end Numbers

theorem copyParts_append (store : Store) (fileId : Int64) (handle : Handle) (written : Nat)
    (parts more : List UInt32) :
    store.copyParts fileId handle written (parts ++ more) =
      store.copyParts fileId handle written parts >>= fun count =>
        store.copyParts fileId handle count more := by
  induction parts generalizing written with
  | nil => exact (pure_bind _ _).symm
  | cons part rest ih =>
    rw [List.cons_append, copyParts, copyParts, bind_assoc]
    simp only [bind_assoc, ih]

theorem ask_unread (unread : store.part? files fileId part = none) :
    ∃ error, FileSystem.ask (fun files => files.read (store.partPath fileId part)) files =
      (.error error, files) := by
  rw [FileSystem.ask]
  rw [part?] at unread
  cases read : files.read (store.partPath fileId part) with
  | error error => exact ⟨error, rfl⟩
  | ok bytes =>
    rw [read] at unread
    contradiction

/-- A path leads to the place of one part at most. -/
theorem IsPart.unique {other : Int64} {beside : UInt32}
    (place : store.IsPart files out fileId part) (also : store.IsPart files out other beside) :
    other = fileId ∧ beside = part := by
  obtain ⟨_, located, seated⟩ := place
  obtain ⟨_, found, seated'⟩ := also
  obtain ⟨rfl, named⟩ := seated'.unique seated
  exact ⟨fileId_of_located found located, partFile_inj named.symm⟩

/-- The path of a part leads to the place of this part only. -/
theorem IsPart.of_partPath {other : Int64} {beside : UInt32}
    (place : store.IsPart files (store.partPath fileId part) other beside) :
    other = fileId ∧ beside = part := by
  obtain ⟨_, located, seated⟩ := place
  obtain ⟨mine, named⟩ := located_of_part seated
  exact ⟨fileId_of_located located mine, partFile_inj named⟩

namespace Opened

variable {directory : Location} {name : FileName} {opened : FileSystem}
  (here : Opened files out directory name number opened)

include here

/-- The parts below this one have been copied. -/
theorem copied_front (others : ∀ other < part, ¬ store.IsPart files out fileId other)
    (held : ∀ other < part, store.part? files fileId other = some (piece other)) :
    let front := concat piece (partNumbers part)
    ∃ mid, store.copyParts fileId (.file number) 0 (partNumbers part) opened =
        (.ok front.size, mid) ∧
      files.Filling (name :: directory) number mid ∧ mid.content number = front := by
  have copied := copyParts_eq here.seated
    (fun other member => others other (mem_partNumbers.mp member)) here.filling here.empty
    fun other member => held other (mem_partNumbers.mp member)
  rwa [ByteArray.size_empty] at copied

/-- The part in whose place the file is open is read as what has been written to it. -/
theorem part?_in_place {bytes : ByteArray} (place : store.IsPart files out fileId part)
    (stored : store.part? files fileId part = some bytes)
    (filled : files.Filling (name :: directory) number after) :
    store.part? after fileId part = some (after.content number) := by
  obtain ⟨_, located, seated⟩ := place
  obtain ⟨rfl, rfl⟩ := seated.unique here.seated
  obtain ⟨_, checked, _⟩ := part?_eq_some_iff.mp stored
  have there : after.bytesAt? (partFile part :: directory) = some (after.content number) := by
    rw [FileSystem.bytesAt?, filled.nodes, if_pos rfl]
    rfl
  exact part?_eq_some_iff.mpr
    ⟨directory, checked, located.kept filled.keepsDirectories, there⟩

theorem copied_in_place (below : part < total) (place : store.IsPart files out fileId part)
    (held : ∀ other < total, store.part? files fileId other = some (piece other)) :
    let front := concat piece (partNumbers part)
    ∃ later, partNumbers total = partNumbers part ++ part :: later ∧
      let left := front ++ front ++ concat piece later
      ∃ after, store.copyParts fileId (.file number) 0 (partNumbers total) opened =
          (.ok left.size, after) ∧
        files.Filling (name :: directory) number after ∧ after.content number = left := by
  intro front
  have only : ∀ other, other ≠ part → ¬ store.IsPart files out fileId other :=
    fun other apart also => apart (place.unique also).2
  obtain ⟨mid, first, filled, content⟩ := here.copied_front
    (fun other less => only other (UInt32.ne_of_lt less))
    fun other less => held other (UInt32.lt_trans less below)
  obtain ⟨later, split, behind⟩ := partNumbers_split below
  have read := ask_read (here.part?_in_place place (held part below) filled)
  have added : FileSystem.writeAt (.file number) front.size (mid.content number) mid =
      (.ok (), mid.setContent number (front ++ front)) := by
    rw [FileSystem.writeAt, content, FileSystem.overwrite_end]
  have inside : ∀ other ∈ later, other < total := fun other member =>
    mem_partNumbers.mp (split ▸ List.mem_append_right _ (List.mem_cons_of_mem _ member))
  obtain ⟨after, rest, full, whole⟩ := copyParts_eq here.seated
    (fun other member => only other (UInt32.ne_of_lt (behind other member)).symm)
    (filled.setContent (front ++ front)) (by rw [FileSystem.content_setContent, if_pos rfl])
    fun other member => held other (inside other member)
  rw [foldl_concat] at rest whole
  refine ⟨later, split, after, ?_, full, whole⟩
  rw [split, copyParts_append, FileSystem.bind_ok first, copyParts, FileSystem.bind_ok read,
    FileSystem.bind_ok added, content, ← ByteArray.size_append]
  exact rest

theorem stopped_at (below : part < total)
    (others : ∀ other ≤ part, ¬ store.IsPart files out fileId other)
    (held : ∀ other < part, store.part? files fileId other = some (piece other))
    (unread : store.part? files fileId part = none) :
    ∃ error after, store.copyParts fileId (.file number) 0 (partNumbers total) opened =
        (.error error, after) ∧
      files.Filling (name :: directory) number after ∧
      after.content number = concat piece (partNumbers part) := by
  obtain ⟨mid, first, filled, content⟩ := here.copied_front
    (fun other less => others other (UInt32.le_of_lt less)) held
  obtain ⟨later, split, _⟩ := partNumbers_split below
  have still : store.part? mid fileId part = none := by
    rw [part?_filling here.seated filled (others part (UInt32.le_refl part)), unread]
  obtain ⟨error, failed⟩ := ask_unread still
  refine ⟨error, mid, ?_, filled, content⟩
  rw [split, copyParts_append, FileSystem.bind_ok first, copyParts, FileSystem.bind_error failed]

end Opened

/-- What is in the file in which all parts have been put together. It is the whole of them, unless
the path leads to one of these very parts. That part is empty when the copying begins, and when its
turn comes it is read as something of what has been written by then; how much is left open, but it
is nothing for the first part. No part of any file is changed but the one the path leads to. -/
theorem whole_unless_in_place (sound : files.Sound)
    (present : ∀ part < total, store.part? files fileId part = some (piece part)) {written : Nat}
    (assembled : store.assemble fileId total out files = (.ok written, after)) :
    let whole := concat piece (partNumbers total)
    ((∀ part < total, ¬ store.IsPart files out fileId part) →
      written = whole.size ∧ after.read out = .ok whole) ∧
    (∀ part < total, store.IsPart files out fileId part →
      let front := concat piece (partNumbers part)
      ∃ count later, partNumbers total = partNumbers part ++ part :: later ∧
        let stale := front.extract 0 count
        let left := front ++ stale ++ concat piece later
        written = left.size ∧ after.read out = .ok left ∧ (left = whole ↔ stale = piece part)) ∧
    ∀ other part, ¬ store.IsPart files out other part →
      store.part? after other part = store.part? files other part := by
  intro whole
  obtain ⟨_, directory, name, number, opened, here, copied⟩ := opened_of_assemble sound assembled
  refine ⟨fun others => ?_, fun part below place => ?_, fun other part apart => ?_⟩
  · obtain ⟨last, all_copied, filled, content⟩ := here.copied_front others present
    cases copied.symm.trans all_copied
    exact ⟨rfl, by rw [here.read filled, content]⟩
  · obtain ⟨later, split, last, all_copied, filled, content⟩ :=
      here.copied_in_place below place present
    cases copied.symm.trans all_copied
    refine ⟨(concat piece (partNumbers part)).size, later, split, ?_⟩
    rw [ByteArray.extract_zero_size]
    refine ⟨rfl, by rw [here.read filled, content], ?_⟩
    dsimp only [whole]
    rw [split, concat_split, ByteArray.append_left_inj, ByteArray.append_right_inj]
  · have kept : store.part? (store.assemble fileId total out files).2 other part =
        store.part? files other part := part?_assemble sound apart
    rwa [assembled] at kept

/-- A file is put together as a new part of another one. -/
theorem whole_as_other_part :
    let store : Store := ⟨Path.ofString "/parts"⟩
    let puts : List ((Int64 × UInt32) × ByteArray) :=
      [((4, 1), ⟨#[3]⟩), ((9, 0), ⟨#[4]⟩), ((4, 0), ⟨#[1, 2]⟩)]
    let files := (store.putAll puts FileSystem.empty).2
    let out := store.partPath 9 1
    ∃ after, store.assemble 4 2 out files = (.ok 3, after) ∧
      after.read out = .ok ⟨#[1, 2, 3]⟩ ∧ store.part? after 9 0 = some ⟨#[4]⟩ := by
  intro store puts files out
  have run : store.putAll puts FileSystem.empty = (.ok (), files) :=
    Prod.ext (by decide +kernel) rfl
  have sound : files.Sound :=
    sound_of_puts (emptyRoot_empty (by decide +kernel) (by decide +kernel)) run
  have all_there : ((partNumbers 2).all fun part =>
      decide (store.part? files 4 part = lastPut puts (4, part)) &&
        (lastPut puts (4, part)).isSome) = true := by decide +kernel
  have present : ∀ part < 2, store.part? files 4 part =
      some ((lastPut puts (4, part)).getD ByteArray.empty) := by
    intro part below
    have there := List.all_eq_true.mp all_there part (mem_partNumbers.mpr below)
    simp only [Bool.and_eq_true, decide_eq_true_eq] at there
    obtain ⟨bytes, last⟩ := Option.isSome_iff_exists.mp there.2
    rw [there.1, last, Option.getD_some]
  have done : (store.assemble 4 2 out files).1 = .ok 3 := by
    dsimp only [out, files, puts, store]
    cbv
  obtain ⟨whole, _, kept⟩ := whole_unless_in_place sound present (Prod.ext done rfl)
  refine ⟨_, Prod.ext done rfl, (whole fun part _ place => ?_).2.trans (by decide +kernel),
    (kept 9 0 fun place => ?_).trans (by decide +kernel)⟩
  · exact absurd place.of_partPath.1 (by decide)
  · exact absurd place.of_partPath.2 (by decide)

/-- A part is to be put together in its own place: the call succeeds, and its bytes are gone. -/
theorem emptied_in_place :
    let store : Store := ⟨Path.ofString "/parts"⟩
    let files := (store.putPart 4 0 ⟨#[97]⟩ FileSystem.empty).2
    let out := store.partPath 4 0
    store.part? files 4 0 = some ⟨#[97]⟩ ∧ (store.assemble 4 1 out files).1 = .ok 0 ∧
      (store.assemble 4 1 out files).2.read out = .ok ByteArray.empty := by
  dsimp only
  exact ⟨by decide +kernel, by cbv, by cbv⟩

/-- What becomes of the file when a part cannot be read. As long as a part is on no list, nothing is
written. When all of them are listed, under whatever names, the file is overwritten by the parts
before the first that cannot be read. -/
theorem untouched_or_cut_off (sound : files.Sound) (outside : store.Outside files out)
    (writable : (FileSystem.create out files).1 = .ok (.file number))
    (unread : ∃ part < total, store.part? files fileId part = none) :
    ∃ error after, store.assemble fileId total out files = (.error error, after) ∧
      ((∃ part < total, ¬ store.Lists files fileId part) ∧ after = files ∨
        (∀ part < total, store.Lists files fileId part) ∧
        ∃ first < total, store.part? files fileId first = none ∧
          ∃ piece : UInt32 → ByteArray,
            (∀ part < first, store.part? files fileId part = some (piece part)) ∧
            after.read out = .ok (concat piece (partNumbers first))) ∧
      ∀ other part, store.part? after other part = store.part? files other part := by
  have kept : ∀ other part, store.part? (store.assemble fileId total out files).2 other part =
      store.part? files other part :=
    fun other part => part?_assemble sound (outside.not_isPart other part)
  obtain ⟨first, ⟨below, gone⟩, least⟩ := exists_first unread
  by_cases listed : ∀ part < total, store.Lists files fileId part
  · let piece := fun part => (store.part? files fileId part).getD ByteArray.empty
    have held : ∀ part < first, store.part? files fileId part = some (piece part) := by
      intro part less
      have there : store.part? files fileId part ≠ none :=
        fun none_there => least part less ⟨UInt32.lt_trans less below, none_there⟩
      obtain ⟨bytes, found⟩ := Option.ne_none_iff_exists'.mp there
      simp [piece, found]
    have none_missing :=
      missingParts_of_lists (UInt32.lt_of_le_of_lt (UInt32.zero_le) below) listed
    obtain ⟨directory, name, opened, here⟩ := opened_of_writable sound writable
    obtain ⟨error, after, stopped, filled, content⟩ := here.stopped_at below
      (fun part _ => outside.not_isPart fileId part) held gone
    have failed := here.assemble none_missing stopped
    rw [failed] at kept
    exact ⟨.io error, after, failed, .inr ⟨listed, first, below, gone, piece, held,
      by rw [here.read filled, content]⟩, kept⟩
  · simp only [not_forall] at listed
    obtain ⟨part, inside, unlisted⟩ := listed
    have refused : ∃ error, store.assemble fileId total out files = (.error error, files) :=
      refused_of_unlisted inside unlisted
    obtain ⟨error, failed⟩ := refused
    exact ⟨error, files, failed, .inl ⟨⟨part, inside, unlisted⟩, rfl⟩, fun _ _ => rfl⟩

/-- The second of two parts is missing. -/
theorem untouched_without_second_part :
    let store : Store := ⟨Path.ofString "/parts"⟩
    let files := (store.putAll [((4, 0), ⟨#[1]⟩)] FileSystem.empty).2
    let out := Path.ofString "/out"
    store.part? files 4 1 = none ∧
      ∃ error, store.assemble 4 2 out files = (.error error, files) := by
  intro store files out
  have run : store.putAll [((4, 0), ⟨#[1]⟩)] FileSystem.empty = (.ok (), files) :=
    Prod.ext (by decide +kernel) rfl
  have sound : files.Sound :=
    sound_of_puts (emptyRoot_empty (by decide +kernel) (by decide +kernel)) run
  have named : store.root.names = [(Path.ofString "parts").bytes] := by decide +kernel
  have beside : out.names = [(Path.ofString "out").bytes] := by decide +kernel
  have outside : store.Outside files out :=
    outside_of_sibling named beside (by decide +kernel) ⟨by decide +kernel, by decide +kernel⟩
      (by decide +kernel)
  have writable : (FileSystem.create out files).1 = .ok (.file 1) := by decide +kernel
  have missing : store.part? files 4 1 = none := by decide +kernel
  have stored : store.storedParts 4 files = .ok [0] := by
    dsimp only [files, store]
    cbv
  have unread : ∃ part < 2, store.part? files 4 part = none := ⟨1, by decide, missing⟩
  obtain ⟨error, _, failed, outcome, _⟩ := untouched_or_cut_off sound outside writable unread
  rcases outcome with ⟨_, rfl⟩ | ⟨listed, _⟩
  · exact ⟨missing, error, failed⟩
  · exact absurd ((mem_of_stored stored).mpr (listed 1 (by decide))) (by decide)

/-- There is no first part, but a copy of it under a name with a zero more: what stood in the file
is gone. -/
theorem emptied_for_stray_name :
    let store : Store := ⟨Path.ofString "/parts"⟩
    let out := Path.ofString "/out"
    let fill : FileSystem.Action Unit := do
      FileSystem.createDirectories (store.directory 4)
      FileSystem.write ((store.directory 4).child "00.part") ⟨#[1]⟩
      FileSystem.write out ⟨#[9]⟩
    let files := (fill FileSystem.empty).2
    store.part? files 4 0 = none ∧ files.read out = .ok ⟨#[9]⟩ ∧
      (store.assemble 4 1 out files).1 = .error (.io (.system SystemError.noSuchFile)) ∧
      (store.assemble 4 1 out files).2.read out = .ok ByteArray.empty := by
  dsimp only
  exact ⟨by decide +kernel, by decide +kernel, by cbv, by cbv⟩

end ChunkedUpload.Store
