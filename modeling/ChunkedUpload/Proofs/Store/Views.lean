import ChunkedUpload.Proofs.FileSystem.Ways
import ChunkedUpload.Proofs.Store.Names

/-! What a store shows of its parts: the bytes of each, and which of them it lists. Both depend on
nothing but the places below the directory of a file. -/
namespace ChunkedUpload

namespace Store

variable {store : Store} {files after : FileSystem} {fileId : Int64} {part : UInt32}
  {root : Location} {bytes : ByteArray}

/-- The bytes of a stored part. -/
def part? (store : Store) (files : FileSystem) (fileId : Int64) (part : UInt32) :
    Option ByteArray := (files.read (store.partPath fileId part)).toOption

/-- The part is on the list of those that are stored. -/
def Lists (store : Store) (files : FileSystem) (fileId : Int64) (part : UInt32) : Prop :=
  ∃ parts, store.storedParts fileId files = .ok parts ∧ part ∈ parts

theorem leads_directory (leads : files.Leads store.root root) (fileId : Int64) :
    files.Leads (store.directory fileId) (idFile fileId :: root) :=
  leads.child (isName_idFile fileId) (ordinary_idFile fileId)

theorem part?_eq_some_iff : store.part? files fileId part = some bytes ↔
    ∃ directory, FileSystem.checkPath (store.partPath fileId part) = .ok () ∧
      files.Located (store.directory fileId) directory ∧
      files.bytesAt? (partFile part :: directory) = some bytes := by
  rw [part?, FileSystem.read_eq_some_iff]
  constructor
  · rintro ⟨place, resolved, there⟩
    obtain ⟨checked, walked⟩ := FileSystem.resolve_ok resolved
    obtain ⟨directory, located, rfl⟩ :=
      FileSystem.located_of_walk_child (isName_partFile part) (ordinary_partFile part) walked
    exact ⟨directory, checked, located, there⟩
  · rintro ⟨directory, checked, located, there⟩
    have seated := located.seated (isName_partFile part) checked (ordinary_partFile part)
      (short_partFile part)
    exact ⟨_, seated.resolve (Path.not_endsInSlash_child (isName_partFile part))
      (FileSystem.node?_of_bytesAt? there), there⟩

theorem read_of_part? (there : store.part? files fileId part = some bytes) :
    files.read (store.partPath fileId part) = .ok bytes := by
  rw [part?] at there
  cases read : files.read (store.partPath fileId part) with
  | ok found =>
    rw [read] at there
    cases there
    rfl
  | error error =>
    rw [read] at there
    contradiction

theorem lists_iff : store.Lists files fileId part ↔
    ∃ directory, FileSystem.checkPath (store.directory fileId) = .ok () ∧
      files.Located (store.directory fileId) directory ∧
      ∃ name, (files.node? (name :: directory)).isSome = true ∧ partOfName? name = some part := by
  have members : ∀ place, part ∈ ((files.namesAt place).filterMap partOfName?).mergeSort
      (fun a b => decide (a ≤ b)) ↔ ∃ name, (files.node? (name :: place)).isSome = true ∧
        partOfName? name = some part := by
    intro place
    simp only [List.mem_mergeSort, List.mem_filterMap, FileSystem.mem_namesAt]
  constructor
  · rintro ⟨parts, stored, member⟩
    rw [storedParts] at stored
    split at stored
    · rename_i names listed
      cases stored
      obtain ⟨directory, checked, located, rfl⟩ := FileSystem.list_ok listed
      exact ⟨directory, checked, located, (members _).mp member⟩
    · split at stored
      · cases stored
        contradiction
      · contradiction
  · rintro ⟨directory, checked, located, there⟩
    refine ⟨_, ?_, (members _).mpr there⟩
    rw [storedParts, located.list checked]

end Store

end ChunkedUpload
