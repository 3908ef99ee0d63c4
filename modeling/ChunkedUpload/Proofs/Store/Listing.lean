import ChunkedUpload.Proofs.Store.Mapping
import ChunkedUpload.Proofs.Text.Numerals
import Mathlib

/-! The list of stored parts against the paths of the parts. The list goes by what the entries of a
directory are called: any way to write a number counts, and so does anything that is called so. A
path is written in one way, and a part is read from a regular file. -/
namespace ChunkedUpload

open Text

namespace FileSystem

variable {files : FileSystem} {path : Path}

/-- Whether the path leads to a regular file. -/
def isFile (files : FileSystem) (path : Path) : Bool :=
  match (files.resolve path).toOption.bind files.node? with
  | some (.file _) => true
  | _ => false

theorem isFile_iff : files.isFile path = true ↔
    ∃ place number, files.resolve path = .ok place ∧ files.node? place = some (.file number) := by
  rw [isFile]
  cases resolved : files.resolve path with
  | error error => simp [Except.toOption]
  | ok place =>
    simp only [Except.toOption, Option.bind_some]
    cases there : files.node? place with
    | none => simp [there]
    | some node => cases node <;> simp [there]

end FileSystem

namespace Store

variable {store : Store} {files : FileSystem} {fileId : Int64} {part total : UInt32}
  {name other : FileName} {names : List FileName} {numbers missing : List UInt32}

section Spellings

theorem withoutSuffix?_eq_some_iff {ending text stem : List Char} :
    withoutSuffix? ending text = some stem ↔ text = stem ++ ending := by
  constructor
  · intro cut
    rw [withoutSuffix?] at cut
    split at cut
    · rename_i ends
      obtain ⟨front, rfl⟩ := List.isSuffixOf_iff_suffix.mp ends
      rw [List.length_append, Nat.add_sub_cancel, List.take_left] at cut
      rw [Option.some.inj cut]
    · contradiction
  · rintro rfl
    exact withoutSuffix?_append stem ending

/-- Exactly those names are read as a part that are a numeral of it with the suffix behind. -/
theorem partOfName?_eq_some_iff : partOfName? name = some part ↔
    ∃ numeral, Numeral part.toNat numeral ∧ name = asciiBytes (numeral ++ suffix.toList) := by
  have plain : ∀ {numeral}, Numeral part.toNat numeral →
      IsAscii (numeral ++ suffix.toList) ∧ '\x00' ∉ numeral ++ suffix.toList := by
    intro numeral written
    obtain ⟨ascii, no_nul⟩ := written.isAscii
    refine ⟨isAscii_append ascii (by decide), ?_⟩
    rw [List.mem_append, not_or]
    exact ⟨no_nul, by decide⟩
  rw [partOfName?, Option.bind_eq_some_iff]
  constructor
  · rintro ⟨numeral, cut, read⟩
    have written := word32?_eq_some_iff.mp read
    obtain ⟨ascii, no_nul⟩ := plain written
    have text := withoutSuffix?_eq_some_iff.mp cut
    exact ⟨numeral, written, bytes_of_decodeLossy ascii no_nul text⟩
  · rintro ⟨numeral, written, rfl⟩
    rw [decodeLossy_ascii (plain written).1]
    exact ⟨numeral, withoutSuffix?_append _ _, word32?_eq_some_iff.mpr written⟩

end Spellings

/-- The names in the directory of a file; none as long as there is no directory. -/
def entryNames (store : Store) (files : FileSystem) (fileId : Int64) : List FileName :=
  (files.list (store.directory fileId)).toOption.getD []

section Listing

variable (stored : store.storedParts fileId files = .ok numbers)

include stored

theorem stored_eq : numbers =
    ((store.entryNames files fileId).filterMap partOfName?).mergeSort fun a b => decide (a ≤ b) := by
  unfold storedParts at stored
  rw [entryNames]
  split at stored
  · rename_i names listed
    cases stored
    rw [listed]
    rfl
  · rename_i error failed
    split at stored
    · cases stored
      simp [failed, Except.toOption]
    · contradiction

theorem stored_perm : numbers.Perm ((store.entryNames files fileId).filterMap partOfName?) := by
  rw [stored_eq stored]
  exact List.mergeSort_perm _ _

theorem mem_stored_iff : part ∈ numbers ↔
    ∃ name ∈ store.entryNames files fileId, partOfName? name = some part := by
  rw [(stored_perm stored).mem_iff, List.mem_filterMap]

theorem stored_sorted : numbers.Pairwise (· ≤ ·) := by
  rw [stored_eq stored]
  exact mergeSort_sorted _

theorem missing_of_stored (total : UInt32) :
    ∃ missing, store.missingParts fileId total files = .ok missing ∧ missing.Pairwise (· < ·) ∧
      ∀ part, part ∈ missing ↔
        part < total ∧ ∀ name ∈ store.entryNames files fileId, partOfName? name ≠ some part := by
  refine ⟨(partNumbers total).filter fun part => !numbers.contains part, ?_,
    (partNumbers_increasing total).filter _, fun part => ?_⟩
  · rw [missingParts, stored]
    rfl
  · simp only [List.mem_filter, mem_partNumbers, Bool.not_eq_true', List.contains_eq_mem,
      decide_eq_false_iff_not, mem_stored_iff stored, not_exists, not_and]

/-- Where no part is listed twice, no two names stand for one part. -/
theorem name_unique (increasing : numbers.Pairwise (· < ·))
    (member : name ∈ store.entryNames files fileId)
    (also : other ∈ store.entryNames files fileId) (read : partOfName? name = some part)
    (again : partOfName? other = some part) : name = other := by
  have once : ((store.entryNames files fileId).filterMap partOfName?).Nodup :=
    (stored_perm stored).nodup_iff.mp (increasing.imp UInt32.ne_of_lt)
  rw [List.Nodup, List.pairwise_filterMap] at once
  have symmetric : Std.Symm fun a b : FileName =>
      ∀ part ∈ partOfName? a, ∀ number ∈ partOfName? b, part ≠ number :=
    ⟨fun a b differ part here number there => (differ number there part here).symm⟩
  by_contra apart
  exact once.forall member also apart part read part again rfl

end Listing

theorem mem_entryNames_of_isFile (there : files.isFile (store.partPath fileId part) = true) :
    partFile part ∈ store.entryNames files fileId := by
  obtain ⟨place, number, resolved, here⟩ := FileSystem.isFile_iff.mp there
  obtain ⟨checked, walked⟩ := FileSystem.resolve_ok resolved
  obtain ⟨directory, located, rfl⟩ :=
    FileSystem.located_of_walk_child (isName_partFile part) (ordinary_partFile part) walked
  have listed : files.list (store.directory fileId) = .ok (files.namesAt directory) :=
    located.list (checkPath_directory checked)
  rw [entryNames, listed]
  have named : (files.node? (partFile part :: directory)).isSome = true :=
    Option.isSome_of_eq_some here
  exact (files.mem_namesAt _ _).mpr named

/-- What the list of a directory with any content says. It is sorted and has a number for each entry
that is called like a part, in any way in which its number can be written and whatever the entry is;
so it leaves out no part. It is the list of the parts just in case each such entry has the name that
the store gives to the part and is a regular file. The missing parts are those that no entry is
called after, and they are right just in case each such entry has a file of its part beside it. -/
theorem listing_agrees_iff (distinct : (store.entryNames files fileId).Nodup)
    (stored : store.storedParts fileId files = .ok numbers) :
    let names := store.entryNames files fileId
    let There := fun part => files.isFile (store.partPath fileId part) = true
    numbers.Pairwise (· ≤ ·) ∧ numbers.Perm (names.filterMap partOfName?) ∧
    (∀ name part, partOfName? name = some part ↔
      ∃ numeral, Numeral part.toNat numeral ∧ name = asciiBytes (numeral ++ suffix.toList)) ∧
    (∀ part, There part → part ∈ numbers) ∧
    ((numbers.Pairwise (· < ·) ∧ ∀ part, part ∈ numbers ↔ There part) ↔
      ∀ name ∈ names, ∀ part, partOfName? name = some part → name = partFile part ∧ There part) ∧
    ∀ total, ∃ missing, store.missingParts fileId total files = .ok missing ∧
      missing.Pairwise (· < ·) ∧
      (∀ part, part ∈ missing ↔ part < total ∧ ∀ name ∈ names, partOfName? name ≠ some part) ∧
      ((∀ part, part ∈ missing ↔ part < total ∧ ¬ There part) ↔
        ∀ name ∈ names, ∀ part < total, partOfName? name = some part → There part) := by
  intro names There
  have listed : ∀ part, There part → part ∈ numbers := fun part there =>
    (mem_stored_iff stored).mpr
      ⟨_, mem_entryNames_of_isFile there, partOfName?_partFile part⟩
  refine ⟨stored_sorted stored, stored_perm stored, fun _ _ => partOfName?_eq_some_iff, listed,
    ⟨?_, ?_⟩, fun total => ?_⟩
  · rintro ⟨increasing, exact_list⟩ name member part read
    have there : There part := (exact_list part).mp
      ((mem_stored_iff stored).mpr ⟨name, member, read⟩)
    exact ⟨name_unique stored increasing member (mem_entryNames_of_isFile there) read
      (partOfName?_partFile part), there⟩
  · intro plain
    refine ⟨?_, fun part => ⟨fun member => ?_, listed part⟩⟩
    · rw [stored_eq stored]
      exact sorted_increasing distinct fun name member part read => (plain name member part read).1
    · obtain ⟨name, here, read⟩ := (mem_stored_iff stored).mp member
      exact (plain name here part read).2
  · obtain ⟨missing, told, increasing, uncalled⟩ := missing_of_stored stored total
    refine ⟨missing, told, increasing, uncalled, ⟨?_, ?_⟩⟩
    · intro exact_list name member part below read
      by_contra absent
      have gone := (exact_list part).mpr ⟨below, absent⟩
      exact ((uncalled part).mp gone).2 name member read
    · intro beside part
      rw [uncalled, and_congr_right_iff]
      intro below
      constructor
      · intro none_called there
        exact none_called _ (mem_entryNames_of_isFile there) (partOfName?_partFile part)
      · intro absent name member read
        exact absent (beside name member part below read)

/-- Two parts, and a file that waits to become a third. -/
theorem plain_names_agree :
    let store : Store := ⟨Path.ofString "/parts"⟩
    let fill : FileSystem.Action Unit := do
      store.putPart 4 1 ⟨#[1]⟩
      store.putPart 4 0 ⟨#[2, 3]⟩
      FileSystem.write (store.temporaryPath 4 2) ⟨#[4]⟩
    let files := (fill FileSystem.empty).2
    (store.entryNames files 4).Nodup ∧ store.storedParts 4 files = .ok [0, 1] ∧
      ∀ part, part ∈ [0, 1] ↔ files.isFile (store.partPath 4 part) = true := by
  intro store fill files
  have distinct : (store.entryNames files 4).Nodup := by decide +kernel
  have stored : store.storedParts 4 files = .ok [0, 1] := by
    dsimp only [files, fill, store]
    cbv
  have plain : ((store.entryNames files 4).all fun name => (partOfName? name).all fun part =>
      decide (name = partFile part) && files.isFile (store.partPath 4 part)) = true := by
    dsimp only [files, fill, store]
    cbv
  obtain ⟨_, _, _, _, agrees, _⟩ := listing_agrees_iff distinct stored
  refine ⟨distinct, stored, (agrees.mpr fun name member part read => ?_).2⟩
  have each := List.all_eq_true.mp plain name member
  rw [read] at each
  simpa using each

/-- A part, a copy of it under a name with a zero more, and a directory called like the next part:
the copy is counted again, and the directory is taken for a part that is stored. -/
theorem stray_names_listed :
    let store : Store := ⟨Path.ofString "/parts"⟩
    let fill : FileSystem.Action Unit := do
      store.putPart 4 1 ⟨#[1]⟩
      FileSystem.write ((store.directory 4).child "01.part") ⟨#[1]⟩
      FileSystem.createDirectory ((store.directory 4).child "2.part")
    let files := (fill FileSystem.empty).2
    store.storedParts 4 files = .ok [1, 1, 2] ∧ store.missingParts 4 3 files = .ok [0] ∧
      files.isFile (store.partPath 4 2) = false := by
  dsimp only
  exact ⟨by cbv, by cbv, by decide +kernel⟩

end Store

end ChunkedUpload
