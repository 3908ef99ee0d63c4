import ChunkedUpload.Proofs.Store.Steps

/-! What the writing of a part leaves alone. Whatever is named as a part holds what it held, until
the last step puts the new part in its place; a writing that fails, at whatever step, leaves the
earlier copy of the part as it was, or leaves none where there was none. -/
namespace ChunkedUpload

namespace FileSystem

variable {files after : FileSystem} {names : List FileName}

theorem Grown.bytesAt? (grown : files.Grown names after) (place : Location) :
    after.bytesAt? place = files.bytesAt? place := by
  rcases grown.nodes place with same | ⟨free, made, _⟩
  · exact bytesAt?_congr same fun number _ => grown.content number
  -- nobody can read from a directory, nor from nothing
  · rw [FileSystem.bytesAt?, FileSystem.bytesAt?, free, made]
    rfl

theorem Created.bytesAt? {directory : Location} {name : FileName} {number : Nat} {place : Location}
    (created : files.Created (name :: directory) number after) (sound : files.Sound)
    (apart : place ≠ name :: directory) : after.bytesAt? place = files.bytesAt? place :=
  (created.filling sound).bytesAt? apart

end FileSystem

namespace Store

/-- Whatever is named as a part can be read as before, but for the parts that have been written. -/
structure Spares (store : Store) (written : Int64 → UInt32 → Prop) (before after : FileSystem) :
    Prop where
  directories : before.KeepsDirectories after
  places : ∀ name place, (partOfName? name).isSome = true →
    (∀ fileId part, written fileId part → ∀ directory,
      after.Located (store.directory fileId) directory →
      name :: place ≠ partFile part :: directory) →
    after.bytesAt? (name :: place) = before.bytesAt? (name :: place)

/-- A part is as it was. Wherever the way to it leads by now, what stands there is what stood there
before; if it was stored it still is, and if it was not it still is not, unless the way to the store
led nowhere before. -/
structure Unchanged (store : Store) (before after : FileSystem) (fileId : Int64) (part : UInt32) :
    Prop where
  place : ∀ directory, after.Located (store.directory fileId) directory →
    after.bytesAt? (partFile part :: directory) = before.bytesAt? (partFile part :: directory)
  stored : ∀ bytes, store.part? before fileId part = some bytes →
    store.part? after fileId part = some bytes
  absent : ∀ root, before.Leads store.root root →
    store.part? after fileId part = store.part? before fileId part

theorem Unchanged.refl (store : Store) (files : FileSystem) (fileId : Int64) (part : UInt32) :
    store.Unchanged files files fileId part :=
  ⟨fun _ _ => rfl, fun _ stored => stored, fun _ _ => rfl⟩

namespace Spares

variable {store : Store} {written more : Int64 → UInt32 → Prop}
  {before mid after : FileSystem} {fileId : Int64} {part : UInt32} {bytes : ByteArray}
  {root : Location}

theorem refl (store : Store) (written : Int64 → UInt32 → Prop) (files : FileSystem) :
    store.Spares written files files := ⟨.refl _, fun _ _ _ _ => rfl⟩

theorem trans (first : store.Spares written before mid) (second : store.Spares more mid after)
    (grows : ∀ fileId part, written fileId part → more fileId part) :
    store.Spares more before after where
  directories := first.directories.trans second.directories
  places := by
    intro name place named apart
    rw [second.places name place named apart]
    refine first.places name place named fun fileId part new directory located => ?_
    exact apart fileId part (grows fileId part new) directory (located.kept second.directories)

/-- The places of parts that have not been written are none of those that have. -/
theorem bytesAt? (spares : store.Spares written before after) (other : ¬ written fileId part)
    {directory : Location} (located : after.Located (store.directory fileId) directory) :
    after.bytesAt? (partFile part :: directory) = before.bytesAt? (partFile part :: directory) := by
  refine spares.places _ _ (by rw [partOfName?_partFile]; rfl) ?_
  intro otherId otherPart new place found same
  obtain ⟨named, rfl⟩ := List.cons.inj same
  obtain rfl := partFile_inj named
  exact other (fileId_of_located located found ▸ new)

/-- A stored part is still stored. -/
theorem part?_of_some (spares : store.Spares written before after) (other : ¬ written fileId part)
    (stored : store.part? before fileId part = some bytes) :
    store.part? after fileId part = some bytes := by
  obtain ⟨directory, checked, located, there⟩ := part?_eq_some_iff.mp stored
  have still := located.kept spares.directories
  refine part?_eq_some_iff.mpr ⟨directory, checked, still, ?_⟩
  rw [spares.bytesAt? other still, there]

/-- Where the way to the store is fixed, a part that was not stored is still not stored. -/
theorem part?_eq (spares : store.Spares written before after) (other : ¬ written fileId part)
    (sound : before.Sound) (leads : before.Leads store.root root) :
    store.part? after fileId part = store.part? before fileId part := by
  have way := leads_directory leads fileId
  ext bytes
  refine ⟨fun stored => ?_, spares.part?_of_some other⟩
  obtain ⟨directory, checked, located, there⟩ := part?_eq_some_iff.mp stored
  obtain rfl := (way.kept spares.directories).eq_of_located located
  rw [spares.bytesAt? other located] at there
  have stood := sound.parents _ _ (FileSystem.node?_of_bytesAt? there)
  exact part?_eq_some_iff.mpr
    ⟨_, checked, way.located sound spares.directories located stood, there⟩

theorem unchanged (spares : store.Spares written before after) (sound : before.Sound)
    (other : ¬ written fileId part) : store.Unchanged before after fileId part :=
  ⟨fun _ => spares.bytesAt? other, fun _ => spares.part?_of_some other,
    fun _ => spares.part?_eq other sound⟩

end Spares

end Store

namespace PartWriting

variable {store : Store} {first files after : FileSystem} {writing : PartWriting}
  {stage : WriteStage} {fileId : Int64} {part : UInt32} {payload : ByteArray}

theorem Step.bytesAt? (step : Step store files writing stage after) (sound : files.Sound)
    (stands : writing.Stands store files) {place : Location}
    (apart : ∀ directory, files.Located (store.directory writing.fileId) directory →
      place ≠ Store.temporaryFile writing.part :: directory)
    (undone : stage = .done → ∀ directory,
      files.Located (store.directory writing.fileId) directory →
      place ≠ Store.partFile writing.part :: directory) :
    after.bytesAt? place = files.bytesAt? place := by
  cases step with
  | missed grown _ | placed _ grown _ => exact grown.bytesAt? place
  | opened _ seated created =>
    obtain ⟨located, rfl⟩ := Store.located_of_temporary seated
    exact created.bytesAt? sound (apart _ located)
  | sunk | swallowed | flushed => rfl
  | @wrote mine _ _ writing_stage =>
    rw [Stands, writing_stage] at stands
    obtain ⟨_, _, directory, seated, here⟩ := stands
    refine FileSystem.bytesAt?_congr rfl fun number there => ?_
    have distinct : number ≠ mine := by
      rintro rfl
      exact apart _ (Store.located_of_temporary seated).1 (sound.unlinked _ _ number there here)
    rw [FileSystem.content_setContent, if_neg distinct]
  | renamed _ renamed =>
    obtain ⟨located, rfl⟩ := Store.located_of_temporary renamed.seated
    obtain ⟨aimed, rfl⟩ := Store.located_of_part renamed.aimed
    refine FileSystem.bytesAt?_congr ?_ fun number _ => renamed.content number
    rw [renamed.node?, if_neg (undone rfl _ aimed), if_neg (apart _ located)]

/-- The temporary file is not named as a part, so only the last step touches one. -/
theorem Step.spares_parts (step : Step store files writing stage after) (sound : files.Sound)
    (stands : writing.Stands store files) :
    store.Spares
      (fun fileId part => stage = .done ∧ (fileId, part) = (writing.fileId, writing.part))
      files after where
  directories := step.keepsDirectories
  places := by
    intro name place named apart
    refine step.bytesAt? sound stands (fun directory _ same => ?_) fun done directory located =>
      apart _ _ ⟨done, rfl⟩ directory (located.kept step.keepsDirectories)
    rw [(List.cons.inj same).1, Store.partOfName?_temporaryFile] at named
    contradiction

/-- How far a writing has come that began among these files. -/
structure Went (store : Store) (first files : FileSystem) (writing : PartWriting) : Prop where
  sound : files.Sound
  stands : writing.Stands store files
  spares : store.Spares
    (fun fileId part => writing.stage = .done ∧ (fileId, part) = (writing.fileId, writing.part))
    first files
  holds : writing.stage = .done →
    store.Holds files writing.fileId writing.part writing.payload

theorem Went.begun (sound : files.Sound) :
    Went store files files ⟨fileId, part, payload, .begun⟩ :=
  ⟨sound, trivial, .refl _ _ _, fun done => nomatch done⟩

theorem Went.step (went : Went store first files ⟨fileId, part, payload, stage⟩)
    (going : stage ≠ .done) {later : WriteStage}
    (step : Step store files ⟨fileId, part, payload, stage⟩ later after) :
    Went store first after ⟨fileId, part, payload, later⟩ where
  sound := step.sound went.sound
  stands := step.stands went.stands
  spares := went.spares.trans (step.spares_parts went.sound went.stands)
    fun _ _ new => absurd new.1 going
  holds := by
    rintro ⟨⟩
    exact step.holds went.stands

/-- How far a part comes that is put in one go, whether or not that succeeds. -/
theorem went_of_putPart (sound : files.Sound) {result : Except IoError Unit}
    (put : store.putPart fileId part payload files = (result, after)) :
    ∃ stage, Went store files after ⟨fileId, part, payload, stage⟩ ∧
      (result = .ok () ↔ stage = .done) := by
  refine holds_of_putPart (P := fun mid stage => Went store files mid ⟨fileId, part, payload, stage⟩)
    (.begun sound) (fun mid stage later next went going step => ?_) put
  refine went.step ?_ step
  rintro rfl
  contradiction

end PartWriting

end ChunkedUpload
