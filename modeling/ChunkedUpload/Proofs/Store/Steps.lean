import ChunkedUpload.Proofs.Store.Views
import ChunkedUpload.Store.Writing

/-! The steps in which a part is written. Such a step leaves every file alone that has not the
temporary name of the part, until the file with this name is complete and takes the place of the
part. -/
namespace ChunkedUpload

namespace Store

variable {store : Store} {files : FileSystem} {fileId other : Int64} {part : UInt32}
  {directory place : Location} {name : FileName}

/-- A part is stored with these bytes. -/
def Holds (store : Store) (files : FileSystem) (fileId : Int64) (part : UInt32)
    (bytes : ByteArray) : Prop :=
  ∃ directory number, files.Seated (store.partPath fileId part) directory (partFile part) ∧
    files.node? (partFile part :: directory) = some (.file number) ∧ files.content number = bytes

theorem located_of_part (seated : files.Seated (store.partPath fileId part) directory name) :
    files.Located (store.directory fileId) directory ∧ name = partFile part :=
  FileSystem.Seated.of_child (isName_partFile part) seated

theorem located_of_temporary
    (seated : files.Seated (store.temporaryPath fileId part) directory name) :
    files.Located (store.directory fileId) directory ∧ name = temporaryFile part :=
  FileSystem.Seated.of_child (isName_temporaryFile part) seated

theorem Holds.part? {bytes : ByteArray} (held : store.Holds files fileId part bytes) :
    store.part? files fileId part = some bytes := by
  obtain ⟨directory, number, seated, there, content⟩ := held
  rw [Store.part?, seated.read (Path.not_endsInSlash_child (isName_partFile part)) there, content]
  rfl

theorem root_of_located (located : files.Located (store.directory fileId) place) :
    ∃ root, files.Located store.root root ∧ place = idFile fileId :: root :=
  FileSystem.Located.of_child (isName_idFile fileId) (ordinary_idFile fileId) located

theorem fileId_of_located (located : files.Located (store.directory fileId) place)
    (also : files.Located (store.directory other) place) : fileId = other := by
  obtain ⟨_, _, same⟩ := root_of_located located
  obtain ⟨_, _, eq⟩ := root_of_located also
  exact idFile_inj (List.cons.inj (same.symm.trans eq)).1

/-- On the way to the store, and in every directory with the name of this file, no name can be
mistaken for that of a part. -/
structure Tidy (store : Store) (files : FileSystem) (fileId : Int64) : Prop where
  way : ∀ name ∈ store.root.names, Plain name
  names : ∀ name place, (files.node? (name :: idFile fileId :: place)).isSome = true → Plain name

end Store

namespace PartWriting

/-- One step of a writing: the stage it leads to and what becomes of the files. -/
inductive Step (store : Store) (files : FileSystem) (writing : PartWriting) :
    WriteStage → FileSystem → Prop
  /-- A step that fails may have made directories. -/
  | missed {error : IoError} {after : FileSystem}
      (grown : files.Grown (store.directory writing.fileId).names after)
      (made : files.Made (store.directory writing.fileId) after) :
      Step store files writing (.failed error) after
  | placed {after : FileSystem} (stage : writing.stage = .begun)
      (grown : files.Grown (store.directory writing.fileId).names after)
      (made : files.Made (store.directory writing.fileId) after) :
      Step store files writing .placed after
  | opened {directory : Location} {name : FileName} {number : Nat} {after : FileSystem}
      (stage : writing.stage = .placed)
      (seated : files.Seated (store.temporaryPath writing.fileId writing.part) directory name)
      (created : files.Created (name :: directory) number after) :
      Step store files writing (.writing (.file number) 0) after
  | sunk (stage : writing.stage = .placed) : Step store files writing (.writing .sink 0) files
  | wrote {number written count : Nat} (stage : writing.stage = .writing (.file number) written) :
      Step store files writing
        (.writing (.file number)
          (written + (writing.payload.extract written (written + count)).size))
        (files.setContent number (FileSystem.overwrite (files.content number) written
          (writing.payload.extract written (written + count))))
  | swallowed {written count : Nat} (stage : writing.stage = .writing .sink written) :
      Step store files writing
        (.writing .sink (written + (writing.payload.extract written (written + count)).size)) files
  | flushed {number : Nat} (stage : writing.stage = .writing (.file number) writing.payload.size) :
      Step store files writing .flushed files
  | renamed {place aim : Location} {name called : FileName} {node : Node} {after : FileSystem}
      (stage : writing.stage = .flushed)
      (renamed : files.Renamed (store.temporaryPath writing.fileId writing.part)
        (store.partPath writing.fileId writing.part) after place aim name called node) :
      Step store files writing .done after

variable {store : Store} {files after : FileSystem} {writing next : PartWriting}
  {stage : WriteStage} {move : WriteMove}

theorem cases_of_after {α : Type} {action : FileSystem.Action α} {onward : α → WriteStage}
    (made : writing.after files action onward = (next, after)) :
    (∃ value, action files = (.ok value, after) ∧
      next = { writing with stage := onward value }) ∨
    ∃ error, action files = (.error error, after) ∧
      next = { writing with stage := .failed error } := by
  unfold PartWriting.after at made
  split at made
  · rename_i value changed done
    cases made
    exact .inl ⟨value, done, rfl⟩
  · rename_i error changed done
    cases made
    exact .inr ⟨error, done, rfl⟩

theorem step_of_step? (stepped : step? store files writing move = some (next, after)) :
    ∃ stage, next = { writing with stage := stage } ∧ Step store files writing stage after := by
  unfold step? at stepped
  split at stepped
  · split at stepped
    · contradiction
    · cases stepped
      exact ⟨_, rfl, .missed (.refl _ _) (.refl _ _)⟩
  · rename_i begun
    rcases cases_of_after (Option.some.inj stepped) with ⟨_, made, eq⟩ | ⟨_, made, eq⟩
    · exact ⟨_, eq, .placed begun (FileSystem.createDirectoriesWithin_grown made)
        (FileSystem.createDirectoriesWithin_made made)⟩
    · exact ⟨_, eq, .missed (FileSystem.createDirectoriesWithin_grown made)
        (FileSystem.createDirectoriesWithin_made made)⟩
  · rename_i placed
    rcases cases_of_after (Option.some.inj stepped) with ⟨handle, made, eq⟩ | ⟨_, made, eq⟩
    · obtain ⟨directory, name, seated, _, outcome⟩ := FileSystem.create_ok made
      rcases outcome with ⟨rfl, rfl⟩ | ⟨number, rfl, created⟩
      · exact ⟨_, eq, .sunk placed⟩
      · exact ⟨_, eq, .opened placed seated created⟩
    · obtain rfl := FileSystem.create_error made
      exact ⟨_, eq, .missed (.refl _ _) (.refl _ _)⟩
  · rename_i count handle written here
    dsimp only at stepped
    split at stepped
    · contradiction
    · rcases cases_of_after (Option.some.inj stepped) with ⟨_, made, eq⟩ | ⟨_, made, eq⟩
      · rcases FileSystem.writeAt_ok made with ⟨rfl, rfl⟩ | ⟨number, rfl, rfl⟩
        · exact ⟨_, eq, .swallowed here⟩
        · exact ⟨_, eq, .wrote here⟩
      · obtain rfl := FileSystem.writeAt_error made
        exact ⟨_, eq, .missed (.refl _ _) (.refl _ _)⟩
  · rename_i handle written here
    split at stepped
    · rename_i whole
      subst whole
      rcases cases_of_after (Option.some.inj stepped) with ⟨_, made, eq⟩ | ⟨_, made, eq⟩
      · obtain ⟨number, rfl, rfl⟩ := FileSystem.flush_ok made
        exact ⟨_, eq, .flushed here⟩
      · obtain rfl := FileSystem.flush_same made
        exact ⟨_, eq, .missed (.refl _ _) (.refl _ _)⟩
    · contradiction
  · rename_i flushed
    rcases cases_of_after (Option.some.inj stepped) with ⟨_, made, eq⟩ | ⟨_, made, eq⟩
    · obtain ⟨_, _, _, _, _, renamed⟩ := FileSystem.rename_ok made
      exact ⟨_, eq, .renamed flushed renamed⟩
    · obtain rfl := FileSystem.rename_error made
      exact ⟨_, eq, .missed (.refl _ _) (.refl _ _)⟩
  · contradiction

theorem Step.wrote_all {fileId : Int64} {part : UInt32} {payload : ByteArray} (number : Nat) :
    Step store files ⟨fileId, part, payload, .writing (.file number) 0⟩
      (.writing (.file number) payload.size)
      (files.setContent number (FileSystem.overwrite (files.content number) 0 payload)) := by
  have wrote := @Step.wrote store files
    ⟨fileId, part, payload, .writing (.file number) 0⟩ number 0 payload.size rfl
  simpa only [Nat.zero_add, ByteArray.extract_zero_size] using wrote

/-- A part that is put in one go is written in steps, up to the one that fails: what holds when it
has begun, and is kept by every step, holds in the end. -/
theorem holds_of_putPart {P : FileSystem → WriteStage → Prop} {fileId : Int64} {part : UInt32}
    {payload : ByteArray} {result : Except IoError Unit} (begun : P files .begun)
    (kept : ∀ before stage later next, P before stage →
      (⟨fileId, part, payload, stage⟩ : PartWriting).isOver = false →
      Step store before ⟨fileId, part, payload, stage⟩ later next → P next later)
    (put : store.putPart fileId part payload files = (result, after)) :
    ∃ stage, P after stage ∧ (result = .ok () ↔ stage = .done) := by
  have fails : ∀ before stage (error : IoError), P before stage →
      (⟨fileId, part, payload, stage⟩ : PartWriting).isOver = false →
      ∃ reached, P before reached ∧
        ((.error error : Except IoError Unit) = .ok () ↔ reached = .done) := by
    intro before stage error here going
    exact ⟨.failed error, kept _ _ _ _ here going (.missed (.refl _ _) (.refl _ _)), by simp⟩
  rw [Store.putPart] at put
  rcases FileSystem.bind_cases put with ⟨_, placed, made, opens⟩ | ⟨error, made, rfl⟩
  swap
  · refine ⟨.failed error, kept _ _ _ _ begun rfl (.missed ?_ ?_), by simp⟩
    · exact FileSystem.createDirectoriesWithin_grown made
    · exact FileSystem.createDirectoriesWithin_made made
  have way := kept _ _ _ _ begun rfl (.placed rfl (FileSystem.createDirectoriesWithin_grown made)
    (FileSystem.createDirectoriesWithin_made made))
  rcases FileSystem.bind_cases opens with ⟨handle, opened, created, writes⟩ | ⟨error, created, rfl⟩
  swap
  · obtain rfl := FileSystem.create_error created
    exact fails _ _ error way rfl
  obtain ⟨_, _, seated, _, ⟨rfl, rfl⟩ | ⟨number, rfl, new⟩⟩ := FileSystem.create_ok created
  -- what takes every byte cannot promise to keep any
  · cases writes
    exact fails _ _ _ way rfl
  rcases FileSystem.bind_cases writes with ⟨_, _, wrote, flushes⟩ | ⟨_, wrote, _⟩
  swap
  · cases wrote
  cases wrote
  rcases FileSystem.bind_cases flushes with ⟨_, _, flushed, renames⟩ | ⟨_, flushed, _⟩
  swap
  · cases flushed
  cases flushed
  have empty := kept _ _ _ _ way rfl (.opened rfl seated new)
  have filled := kept _ _ _ _ empty rfl (.wrote_all number)
  have safe := kept _ _ _ _ filled rfl (.flushed rfl)
  cases result with
  | ok =>
    obtain ⟨_, _, _, _, _, renamed⟩ := FileSystem.rename_ok renames
    exact ⟨_, kept _ _ _ _ safe rfl (.renamed rfl renamed), by simp⟩
  | error error =>
    obtain rfl := FileSystem.rename_error renames
    exact fails _ _ error safe rfl

/-- Where the file of a writing stands that has been opened, and what is in it. -/
def Stands (store : Store) (files : FileSystem) (writing : PartWriting) : Prop :=
  match writing.stage with
  | .writing (.file number) written => written ≤ writing.payload.size ∧
      files.content number = writing.payload.extract 0 written ∧
      ∃ directory, files.Seated (store.temporaryPath writing.fileId writing.part) directory
          (Store.temporaryFile writing.part) ∧
        files.node? (Store.temporaryFile writing.part :: directory) = some (.file number)
  | .flushed => ∃ number, files.content number = writing.payload ∧
      ∃ directory, files.Seated (store.temporaryPath writing.fileId writing.part) directory
          (Store.temporaryFile writing.part) ∧
        files.node? (Store.temporaryFile writing.part :: directory) = some (.file number)
  | _ => True

namespace Step

theorem keepsDirectories (step : Step store files writing stage after) :
    files.KeepsDirectories after := by
  cases step with
  | missed grown _ | placed _ grown _ => exact grown.keepsDirectories
  | opened _ _ created => exact created.keepsDirectories
  | sunk | swallowed | flushed => exact .refl _
  | wrote => exact .setContent _ _ _
  | renamed _ renamed => exact renamed.keepsDirectories

theorem sound (step : Step store files writing stage after) (sound : files.Sound) :
    after.Sound := by
  cases step with
  | missed grown _ | placed _ grown _ => exact grown.sound sound
  | opened _ seated created => exact created.sound sound seated.directory
  | sunk | swallowed | flushed => exact sound
  | wrote => exact sound.setContent _ _
  | renamed _ renamed => exact renamed.sound sound

theorem distinct (step : Step store files writing stage after) {place : Location}
    (distinct : (files.namesAt place).Nodup) : (after.namesAt place).Nodup := by
  cases step with
  | missed grown _ | placed _ grown _ => exact grown.distinct place distinct
  | opened _ _ created => exact created.distinct distinct
  | sunk | swallowed | flushed | wrote => exact distinct
  | renamed _ renamed => exact renamed.distinct distinct

/-- A step leaves a file alone that has not the temporary name of the part, unless it puts the part
in its place. -/
theorem spares (step : Step store files writing stage after) (sound : files.Sound)
    (stands : writing.Stands store files) {place : Location} {number : Nat}
    (there : files.node? place = some (.file number))
    (apart : ∀ directory, files.Located (store.directory writing.fileId) directory →
      place ≠ Store.temporaryFile writing.part :: directory) :
    (after.node? place = some (.file number) ∧ after.content number = files.content number) ∨
    (stage = .done ∧ ∃ directory, files.Located (store.directory writing.fileId) directory ∧
      place = Store.partFile writing.part :: directory) := by
  cases step with
  | missed grown _ | placed _ grown _ => exact .inl ⟨grown.node? there, grown.content number⟩
  | opened _ seated created =>
    obtain ⟨located, rfl⟩ := Store.located_of_temporary seated
    have other := apart _ located
    have distinct := created.other sound there other
    exact .inl ⟨by rw [created.node?, if_neg other, there],
      by rw [created.content, if_neg distinct]⟩
  | sunk | swallowed | flushed => exact .inl ⟨there, rfl⟩
  | @wrote mine _ _ writing_stage =>
    rw [Stands, writing_stage] at stands
    obtain ⟨_, _, directory, seated, here⟩ := stands
    -- the open file has one name only, and that is the temporary one
    have distinct : number ≠ mine := by
      rintro rfl
      exact apart _ (Store.located_of_temporary seated).1 (sound.unlinked _ _ number there here)
    exact .inl ⟨there, by rw [FileSystem.content_setContent, if_neg distinct]⟩
  | @renamed _ aim _ _ _ _ _ renamed =>
    obtain ⟨located, rfl⟩ := Store.located_of_temporary renamed.seated
    obtain ⟨aimed, rfl⟩ := Store.located_of_part renamed.aimed
    rw [renamed.node?, renamed.content, if_neg (apart _ located)]
    by_cases same : place = Store.partFile writing.part :: aim
    · exact .inr ⟨rfl, aim, aimed, same⟩
    · rw [if_neg same]
      exact .inl ⟨there, rfl⟩

theorem stands (step : Step store files writing stage after) (stands : writing.Stands store files) :
    ({ writing with stage := stage } : PartWriting).Stands store after := by
  have kept := step.keepsDirectories
  cases step with
  | missed | placed | sunk | swallowed | renamed => exact trivial
  | opened _ seated created =>
    obtain ⟨_, rfl⟩ := Store.located_of_temporary seated
    refine ⟨Nat.zero_le _, ?_, _, seated.kept kept, ?_⟩
    · rw [created.content, if_pos rfl, ByteArray.extract_same]
    · rw [created.node?, if_pos rfl]
  | @wrote number written count here =>
    rw [Stands, here] at stands
    obtain ⟨within, content, directory, seated, there⟩ := stands
    -- what is there so far is `written` bytes long, so nothing of it is overwritten
    have size : (files.content number).size = written := by
      rw [content, ByteArray.size_extract]
      omega
    have end_eq : FileSystem.overwrite (files.content number) written
        (writing.payload.extract written (written + count)) =
        files.content number ++ writing.payload.extract written (written + count) := by
      rw [← FileSystem.overwrite_end, size]
    refine ⟨?_, ?_, directory, seated.kept kept, there⟩
    · dsimp only
      rw [ByteArray.size_extract]
      omega
    · rw [FileSystem.content_setContent, if_pos rfl, end_eq, content,
        ByteArray.extract_append_extract, Nat.zero_min, ByteArray.size_extract]
      ext1
      rw [ByteArray.data_extract, ByteArray.data_extract, Array.extract_eq_extract_right]
      simp only [ByteArray.size_data]
      omega
  | flushed here =>
    rw [Stands, here] at stands
    obtain ⟨_, content, directory, seated, there⟩ := stands
    refine ⟨_, ?_, directory, seated, there⟩
    rw [content, ByteArray.extract_zero_size]

theorem holds (step : Step store files writing .done after) (stands : writing.Stands store files) :
    store.Holds after writing.fileId writing.part writing.payload := by
  have kept := step.keepsDirectories
  cases step with
  | @renamed place aim name called node _ here renamed =>
    rw [Stands, here] at stands
    obtain ⟨number, content, directory, seated, there⟩ := stands
    obtain ⟨rfl, rfl⟩ := seated.unique renamed.seated
    obtain ⟨_, rfl⟩ := Store.located_of_part renamed.aimed
    obtain rfl : node = .file number := Option.some.inj (renamed.there.symm.trans there)
    exact ⟨aim, number, renamed.aimed.kept kept, by rw [renamed.node?, if_pos rfl],
      (renamed.content number).trans content⟩

theorem stands_other (step : Step store files writing stage after) (sound : files.Sound)
    (mine : writing.Stands store files) {other : PartWriting} (stands : other.Stands store files)
    (apart : ¬ (other.fileId = writing.fileId ∧ other.part = writing.part)) :
    other.Stands store after := by
  have kept := step.keepsDirectories
  -- its file has a temporary name too, but that of another part or in another directory
  have spared : ∀ directory number,
      files.Seated (store.temporaryPath other.fileId other.part) directory
        (Store.temporaryFile other.part) →
      files.node? (Store.temporaryFile other.part :: directory) = some (.file number) →
      after.node? (Store.temporaryFile other.part :: directory) = some (.file number) ∧
        after.content number = files.content number := by
    intro directory number seated there
    obtain ⟨located, _⟩ := Store.located_of_temporary seated
    refine (step.spares sound mine there fun place found same => ?_).resolve_right ?_
    · obtain ⟨named, rfl⟩ := List.cons.inj same
      exact apart ⟨Store.fileId_of_located located found, Store.temporaryFile_inj named⟩
    · rintro ⟨_, place, _, same⟩
      exact Store.partFile_ne_temporaryFile _ _ (List.cons.inj same).1.symm
  unfold Stands at stands ⊢
  split
  · rename_i number written here
    rw [here] at stands
    obtain ⟨within, content, directory, seated, there⟩ := stands
    obtain ⟨still, same⟩ := spared directory number seated there
    exact ⟨within, same.trans content, directory, seated.kept kept, still⟩
  · rename_i here
    rw [here] at stands
    obtain ⟨number, content, directory, seated, there⟩ := stands
    obtain ⟨still, same⟩ := spared directory number seated there
    exact ⟨number, same.trans content, directory, seated.kept kept, still⟩
  · exact trivial

/-- A stored part stays as it is while others are written, and while it is written again with the
same bytes. -/
theorem holds_other (step : Step store files writing stage after) (sound : files.Sound)
    (mine : writing.Stands store files) {fileId : Int64} {part : UInt32} {bytes : ByteArray}
    (held : store.Holds files fileId part bytes)
    (same : fileId = writing.fileId → part = writing.part → bytes = writing.payload) :
    store.Holds after fileId part bytes := by
  obtain ⟨directory, number, seated, there, content⟩ := held
  obtain ⟨located, _⟩ := Store.located_of_part seated
  have kept := step.keepsDirectories
  rcases step.spares sound mine there fun place _ eq =>
      Store.partFile_ne_temporaryFile _ _ (List.cons.inj eq).1 with
    ⟨still, unchanged⟩ | ⟨rfl, place, found, eq⟩
  · exact ⟨directory, number, seated.kept kept, still, unchanged.trans content⟩
  -- the step has put this very part in its place
  · obtain ⟨named, rfl⟩ := List.cons.inj eq
    obtain rfl := Store.partFile_inj named
    obtain rfl := Store.fileId_of_located located found
    rw [same rfl rfl]
    exact step.holds mine

theorem names (step : Step store files writing stage after) {name : FileName} {place : Location}
    (there : (after.node? (name :: place)).isSome = true) :
    (files.node? (name :: place)).isSome = true ∨
      name ∈ (store.directory writing.fileId).names ∨
      name = Store.temporaryFile writing.part ∨ name = Store.partFile writing.part := by
  cases step with
  | missed grown _ | placed _ grown _ =>
    rcases grown.nodes (name :: place) with same | ⟨_, _, called, parent, eq, member⟩
    · rw [same] at there
      exact .inl there
    · obtain ⟨rfl, rfl⟩ := List.cons.inj eq
      exact .inr (.inl member)
  | opened _ seated created =>
    obtain ⟨_, rfl⟩ := Store.located_of_temporary seated
    rw [created.node?] at there
    split at there
    · rename_i same
      exact .inr (.inr (.inl (List.cons.inj same).1))
    · exact .inl there
  | sunk | swallowed | flushed | wrote => exact .inl there
  | renamed _ renamed =>
    obtain ⟨_, rfl⟩ := Store.located_of_part renamed.aimed
    rw [renamed.node?] at there
    split at there
    · rename_i same
      exact .inr (.inr (.inr (List.cons.inj same).1))
    · split at there
      · contradiction
      · exact .inl there

theorem tidy (step : Step store files writing stage after) {fileId : Int64}
    (tidy : store.Tidy files fileId) : store.Tidy after fileId := by
  refine ⟨tidy.way, fun name place there => ?_⟩
  rcases step.names there with before | way | rfl | rfl
  · exact tidy.names name place before
  · have named : (store.directory writing.fileId).names =
        store.root.names ++ [Store.idFile writing.fileId] :=
      Path.names_child (Store.isName_idFile writing.fileId)
    rw [named, List.mem_append, List.mem_singleton] at way
    rcases way with above | rfl
    · exact tidy.way name above
    · exact Store.plain_idFile _
  · exact Store.plain_temporaryFile _
  · exact Store.plain_partFile _

end Step

end PartWriting

end ChunkedUpload
