import ChunkedUpload.Proofs.FileSystem.Places

/-! What the operations on files leave behind. Each says where it has changed something, and all of
them keep a tree without links. -/
namespace ChunkedUpload.FileSystem

variable {files after : FileSystem} {path source target : Path} {place directory : Location}
  {name : FileName} {number : Nat} {bytes : ByteArray}

theorem bind_ok {α β : Type} {first : Action α} {onward : α → Action β} {value : α}
    (done : first files = (.ok value, after)) : (first >>= onward) files = onward value after := by
  simp only [bind, ExceptT.bind, ExceptT.mk, StateT.bind, done]
  rfl

theorem bind_cases {α β : Type} {first : Action α} {onward : α → Action β}
    {result : Except IoError β} (done : (first >>= onward) files = (result, after)) :
    (∃ value mid, first files = (.ok value, mid) ∧ onward value mid = (result, after)) ∨
    ∃ error, first files = (.error error, after) ∧ result = .error error := by
  rcases run : first files with ⟨outcome, mid⟩
  simp only [bind, ExceptT.bind, ExceptT.mk, StateT.bind, run] at done
  cases outcome with
  | error error =>
    cases done
    exact .inr ⟨error, rfl, rfl⟩
  | ok value => exact .inl ⟨value, mid, rfl, done⟩

theorem bind_error {α β : Type} {first : Action α} {onward : α → Action β} {error : IoError}
    (failed : first files = (.error error, after)) :
    (first >>= onward) files = (.error error, after) := by
  simp only [bind, ExceptT.bind, ExceptT.mk, StateT.bind, failed]
  rfl

theorem of_bind_ok {α β : Type} {first : Action α} {onward : α → Action β} {value : β}
    (done : (first >>= onward) files = (.ok value, after)) :
    ∃ result mid, first files = (.ok result, mid) ∧ onward result mid = (.ok value, after) :=
  (bind_cases done).resolve_right fun ⟨_, _, failed⟩ => nomatch failed

theorem KeepsDirectories.setContent (files : FileSystem) (number : Nat) (bytes : ByteArray) :
    files.KeepsDirectories (files.setContent number bytes) := ⟨fun _ => id, rfl⟩

theorem Sound.setContent (sound : files.Sound) (number : Nat) (bytes : ByteArray) :
    (files.setContent number bytes).Sound := ⟨sound.parents, sound.numbers, sound.unlinked⟩

/-- The file of this number stands at this place and is empty, whether it is new or was there. -/
inductive Created (files : FileSystem) (place : Location) : Nat → FileSystem → Prop
  | emptied {number : Nat} (there : files.node? place = some (.file number)) :
      Created files place number (files.setContent number ByteArray.empty)
  | made (free : files.node? place = none) : Created files place files.nextNumber
      { (files.setNode place (.file files.nextNumber)).setContent files.nextNumber
          ByteArray.empty with nextNumber := files.nextNumber + 1 }

theorem create_ok {handle : Handle} (created : create path files = (.ok handle, after)) :
    ∃ directory name, files.Seated path directory name ∧ path.endsInSlash = false ∧
      ((handle = .sink ∧ after = files) ∨
        ∃ number, handle = .file number ∧ Created files (name :: directory) number after) := by
  unfold create at created
  split at created
  · cases created
  · cases created
  · rename_i directory name seated
    split at created
    · cases created
    · rename_i open_end
      refine ⟨directory, name, seat_eq_at_iff.mp seated, by simpa using open_end, ?_⟩
      split at created
      · cases created
      · cases created
        exact .inl ⟨rfl, rfl⟩
      · rename_i number there
        cases created
        exact .inr ⟨number, rfl, .emptied there⟩
      · rename_i free
        cases created
        exact .inr ⟨files.nextNumber, rfl, .made free⟩

theorem create_error {error : IoError} (created : create path files = (.error error, after)) :
    after = files := by
  unfold create at created
  repeat' split at created
  all_goals cases created
  all_goals rfl

section Create

variable (created : Created files (name :: directory) number after)

include created

theorem Created.node? (other : Location) : after.node? other =
    if other = name :: directory then some (.file number) else files.node? other := by
  cases created with
  | emptied there =>
    split
    · rename_i same
      rw [same]
      exact there
    · rfl
  | made => exact node?_setNode files name directory _ other

theorem Created.content (other : Nat) :
    after.content other = if other = number then ByteArray.empty else files.content other := by
  cases created with
  | emptied => exact content_setContent files number _ other
  | made => exact content_setContent (files.setNode _ _) _ _ other

theorem Created.other {place : Location} {found : Nat} (sound : files.Sound)
    (there : files.node? place = some (.file found)) (apart : place ≠ name :: directory) :
    found ≠ number := by
  rintro rfl
  cases created with
  | emptied here => exact apart (sound.unlinked place _ found there here)
  | made => exact Nat.lt_irrefl _ (sound.numbers place _ there)

theorem Created.distinct {place : Location} (distinct : (files.namesAt place).Nodup) :
    (after.namesAt place).Nodup := by
  cases created with
  | emptied => exact distinct
  | made => exact nodup_namesAt_setNode distinct name directory _

theorem Created.keepsDirectories : files.KeepsDirectories after := by
  refine ⟨fun place found => ?_, by cases created <;> rfl⟩
  rw [created.node?]
  split
  · rename_i same
    subst same
    cases created with
    | emptied there => cases there.symm.trans found
    | made free => cases free.symm.trans found
  · exact found

theorem Created.sound (sound : files.Sound) (stands : files.node? directory = some .directory) :
    after.Sound := by
  have kept := created.keepsDirectories
  refine ⟨fun called place there => ?_, fun place found there => ?_,
    fun place other found there here => ?_⟩
  · rw [created.node?] at there
    split at there
    · rename_i same
      cases same
      exact kept.directories _ stands
    · exact kept.directories _ (sound.parents called place there)
  · rw [created.node?] at there
    -- the number is the next one, or belonged to this very place
    have below : number < after.nextNumber ∧ files.nextNumber ≤ after.nextNumber := by
      cases created with
      | emptied here => exact ⟨sound.numbers _ _ here, Nat.le_refl _⟩
      | made => exact ⟨Nat.lt_succ_self _, Nat.le_succ _⟩
    split at there
    · cases there
      exact below.1
    · exact Nat.lt_of_lt_of_le (sound.numbers place found there) below.2
  · rw [created.node?] at there here
    split at there
    · rename_i first
      cases there
      split at here
      · rename_i second
        exact first.trans second.symm
      · rename_i apart
        exact absurd rfl (created.other sound here apart)
    · rename_i apart
      split at here
      · cases here
        exact absurd rfl (created.other sound there apart)
      · exact sound.unlinked place other found there here

end Create

/-- A file with this number is being written at this place, and nothing else changes. -/
structure Filling (files : FileSystem) (place : Location) (number : Nat) (after : FileSystem) :
    Prop where
  nodes : ∀ other, after.node? other =
    if other = place then some (.file number) else files.node? other
  others : ∀ other found, other ≠ place → files.node? other = some (.file found) →
    found ≠ number ∧ after.content found = files.content found
  free : files.node? place ≠ some .directory
  workingDirectory : after.workingDirectory = files.workingDirectory

theorem Created.filling (created : Created files (name :: directory) number after)
    (sound : files.Sound) : files.Filling (name :: directory) number after where
  nodes := created.node?
  others := by
    intro other found apart there
    have distinct := created.other sound there apart
    exact ⟨distinct, by rw [created.content, if_neg distinct]⟩
  free := by
    cases created with
    | emptied there => simp [there]
    | made free => simp [free]
  workingDirectory := created.keepsDirectories.workingDirectory

namespace Filling

variable (filling : files.Filling place number after)

include filling

theorem setContent (bytes : ByteArray) :
    files.Filling place number (after.setContent number bytes) where
  nodes := filling.nodes
  others := by
    intro other found apart there
    obtain ⟨distinct, same⟩ := filling.others other found apart there
    exact ⟨distinct, by rw [content_setContent, if_neg distinct, same]⟩
  free := filling.free
  workingDirectory := filling.workingDirectory

theorem keepsDirectories : files.KeepsDirectories after := by
  refine ⟨fun other found => ?_, filling.workingDirectory⟩
  rw [filling.nodes, if_neg, found]
  rintro rfl
  exact filling.free found

theorem back : after.KeepsDirectories files := by
  refine ⟨fun other found => ?_, filling.workingDirectory.symm⟩
  rw [filling.nodes] at found
  split at found
  · cases found
  · exact found

theorem bytesAt? {other : Location} (apart : other ≠ place) :
    after.bytesAt? other = files.bytesAt? other := by
  apply bytesAt?_congr
  · rw [filling.nodes, if_neg apart]
  · exact fun found there => (filling.others other found apart there).2

end Filling

theorem writeAt_ok {handle : Handle} {offset : Nat}
    (written : writeAt handle offset bytes files = (.ok (), after)) :
    (handle = .sink ∧ after = files) ∨ ∃ number, handle = .file number ∧
      after = files.setContent number (overwrite (files.content number) offset bytes) := by
  cases handle with
  | file number =>
    cases written
    exact .inr ⟨number, rfl, rfl⟩
  | sink =>
    cases written
    exact .inl ⟨rfl, rfl⟩
  | directory => cases written

theorem writeAt_error {handle : Handle} {offset : Nat} {error : IoError}
    (written : writeAt handle offset bytes files = (.error error, after)) : after = files := by
  cases handle with
  | file | sink => cases written
  | directory =>
    cases written
    rfl

theorem flush_ok {handle : Handle} (flushed : flush handle files = (.ok (), after)) :
    ∃ number, handle = .file number ∧ after = files := by
  cases handle with
  | file number =>
    cases flushed
    exact ⟨number, rfl, rfl⟩
  | sink | directory => cases flushed

theorem flush_same {handle : Handle} {result : Except IoError Unit}
    (flushed : flush handle files = (result, after)) : after = files := by
  cases handle with
  | file | sink | directory => exact (Prod.mk.inj flushed).2.symm

theorem overwrite_end (old bytes : ByteArray) : overwrite old old.size bytes = old ++ bytes := by
  have gap : (⟨Array.replicate (old.size - old.size) 0⟩ : ByteArray) = ByteArray.empty := by
    rw [Nat.sub_self]
    rfl
  rw [overwrite, gap]
  simp only [ByteArray.extract_zero_size, ByteArray.append_empty]
  have rest : old.extract (old.size + bytes.size) old.size = ByteArray.empty :=
    ByteArray.extract_eq_empty_iff.mpr (by omega)
  rw [rest, ByteArray.append_empty]

/-- A node has moved from one place to another. -/
structure Renamed (files : FileSystem) (source target : Path) (after : FileSystem)
    (place aim : Location) (name called : FileName) (node : Node) : Prop where
  seated : files.Seated source place name
  aimed : files.Seated target aim called
  open_end : target.endsInSlash = false
  there : files.node? (name :: place) = some node
  movable : node ≠ .directory
  free : files.node? (called :: aim) ≠ some .directory
  after_eq : after = (files.clear (name :: place)).setNode (called :: aim) node

theorem rename_ok (renamed : rename source target files = (.ok (), after)) :
    ∃ place aim name called node,
      Renamed files source target after place aim name called node := by
  unfold rename at renamed
  split at renamed
  · cases renamed
  · cases renamed
  · rename_i place name aim called seated aimed
    split at renamed
    · cases renamed
    · cases renamed
    · rename_i node movable there
      split at renamed
      · cases renamed
      · rename_i open_ends
        split at renamed
        · cases renamed
        · rename_i free
          cases renamed
          rw [Bool.or_eq_true, not_or] at open_ends
          rw [isDirectoryAt_iff] at free
          exact ⟨place, aim, name, called, node, seat_eq_at_iff.mp seated, seat_eq_at_iff.mp aimed,
            by simpa using open_ends.2, there, fun same => movable (by rw [same]) , free, rfl⟩
  · cases renamed

theorem rename_error {error : IoError}
    (renamed : rename source target files = (.error error, after)) : after = files := by
  unfold rename at renamed
  repeat' split at renamed
  all_goals cases renamed
  all_goals rfl

section Rename

variable {aim : Location} {called : FileName} {node : Node}
  (renamed : Renamed files source target after place aim name called node)

include renamed

theorem Renamed.node? (other : Location) : after.node? other =
    if other = called :: aim then some node
    else if other = name :: place then none else files.node? other := by
  rw [renamed.after_eq, node?_setNode, node?_clear]

theorem Renamed.content (other : Nat) : after.content other = files.content other := by
  rw [renamed.after_eq, content_setNode, content_clear]

theorem Renamed.distinct {other : Location} (distinct : (files.namesAt other).Nodup) :
    (after.namesAt other).Nodup := by
  rw [renamed.after_eq]
  exact nodup_namesAt_setNode (nodup_namesAt_clear distinct _) called aim node

theorem Renamed.keepsDirectories : files.KeepsDirectories after := by
  refine ⟨fun other found => ?_, by rw [renamed.after_eq]; rfl⟩
  rw [renamed.node?]
  split
  · rename_i same
    exact absurd (same ▸ found) renamed.free
  · split
    · rename_i same
      subst same
      cases renamed.there.symm.trans found
      exact absurd rfl renamed.movable
    · exact found

theorem Renamed.sound (sound : files.Sound) : after.Sound := by
  have kept := renamed.keepsDirectories
  -- only the node that was moved can be found elsewhere than before
  have origin : ∀ other node', after.node? other = some node' →
      (other = called :: aim ∧ node' = node) ∨
      (other ≠ name :: place ∧ files.node? other = some node') := by
    intro other node' found
    rw [renamed.node?] at found
    split at found
    · rename_i same
      exact .inl ⟨same, (Option.some.inj found).symm⟩
    · split at found
      · contradiction
      · rename_i apart
        exact .inr ⟨apart, found⟩
  refine ⟨fun other parent there => ?_, fun other found there => ?_,
    fun other second found there here => ?_⟩
  · obtain ⟨node', found⟩ := Option.isSome_iff_exists.mp there
    rcases origin _ _ found with ⟨same, _⟩ | ⟨_, before⟩
    · cases same
      exact kept.directories _ renamed.aimed.directory
    · exact kept.directories _ (sound.parents other parent (by rw [before]; rfl))
  · have same : after.nextNumber = files.nextNumber := by rw [renamed.after_eq]; rfl
    rw [same]
    rcases origin _ _ there with ⟨_, moved⟩ | ⟨_, before⟩
    · exact sound.numbers _ _ (moved ▸ renamed.there)
    · exact sound.numbers _ _ before
  · rcases origin _ _ there with ⟨first, moved⟩ | ⟨apart, before⟩
    · rcases origin _ _ here with ⟨last, _⟩ | ⟨apart, before⟩
      · exact first.trans last.symm
      · exact absurd (sound.unlinked _ _ found before (moved ▸ renamed.there)) apart
    · rcases origin _ _ here with ⟨_, moved⟩ | ⟨_, also⟩
      · exact absurd (sound.unlinked _ _ found before (moved ▸ renamed.there)) apart
      · exact sound.unlinked _ _ found before also

end Rename

section Remove

theorem remove_of_seated (seated : files.Seated path directory name)
    (open_end : path.endsInSlash = false)
    (there : files.node? (name :: directory) = some (.file number)) :
    remove path files = (.ok (), files.clear (name :: directory)) := by
  simp [remove, seat_eq_at_iff.mpr seated, there, open_end]

variable (there : files.node? (name :: directory) = some (.file number))

include there

theorem KeepsDirectories.clear : files.KeepsDirectories (files.clear (name :: directory)) := by
  refine ⟨fun place found => ?_, rfl⟩
  rw [node?_clear]
  split
  · rename_i same
    subst same
    cases there.symm.trans found
  · exact found

theorem Sound.clear (sound : files.Sound) : (files.clear (name :: directory)).Sound := by
  have origin : ∀ place node, (files.clear (name :: directory)).node? place = some node →
      files.node? place = some node := by
    intro place node found
    rw [node?_clear] at found
    split at found
    · contradiction
    · exact found
  refine ⟨fun called place here => ?_, fun place found here => ?_,
    fun place other found here also => ?_⟩
  · obtain ⟨node, found⟩ := Option.isSome_iff_exists.mp here
    have before := origin _ _ found
    exact (KeepsDirectories.clear there).directories _
      (sound.parents called place (by rw [before]; rfl))
  · exact sound.numbers _ _ (origin _ _ here)
  · exact sound.unlinked _ _ found (origin _ _ here) (origin _ _ also)

end Remove

/-- Nothing but directories has been added, each under one of these names. -/
structure Grown (files : FileSystem) (names : List FileName) (after : FileSystem) : Prop where
  nodes : ∀ place, after.node? place = files.node? place ∨
    files.node? place = none ∧ after.node? place = some .directory ∧
      ∃ name parent, place = name :: parent ∧ name ∈ names
  contents : after.contents = files.contents
  workingDirectory : after.workingDirectory = files.workingDirectory
  sound : files.Sound → after.Sound
  distinct : ∀ place, (files.namesAt place).Nodup → (after.namesAt place).Nodup

namespace Grown

theorem refl (files : FileSystem) (names : List FileName) : files.Grown names files :=
  ⟨fun _ => .inl rfl, rfl, rfl, id, fun _ => id⟩

variable {names more : List FileName} {last : FileSystem}

theorem trans (first : files.Grown names after) (second : after.Grown names last) :
    files.Grown names last := by
  refine ⟨fun place => ?_, second.contents.trans first.contents,
    second.workingDirectory.trans first.workingDirectory,
    fun sound => second.sound (first.sound sound),
    fun place distinct => second.distinct place (first.distinct place distinct)⟩
  rcases second.nodes place with same | ⟨free, added, called⟩
  · rw [same]
    exact first.nodes place
  · rcases first.nodes place with before | ⟨_, there, _⟩
    · exact .inr ⟨before ▸ free, added, called⟩
    · cases free.symm.trans there

theorem mono (grown : files.Grown names after) (more_names : ∀ name ∈ names, name ∈ more) :
    files.Grown more after := by
  refine ⟨fun place => ?_, grown.contents, grown.workingDirectory, grown.sound, grown.distinct⟩
  rcases grown.nodes place with same | ⟨free, added, name, parent, eq, member⟩
  · exact .inl same
  · exact .inr ⟨free, added, name, parent, eq, more_names name member⟩

theorem node? {node : Node} (grown : files.Grown names after)
    (there : files.node? place = some node) : after.node? place = some node := by
  rcases grown.nodes place with same | ⟨free, _⟩
  · rw [same]
    exact there
  · cases free.symm.trans there

theorem keepsDirectories (grown : files.Grown names after) : files.KeepsDirectories after :=
  ⟨fun _ => grown.node?, grown.workingDirectory⟩

theorem content (grown : files.Grown names after) (number : Nat) :
    after.content number = files.content number := by
  rw [FileSystem.content, grown.contents]
  rfl

end Grown

theorem Sound.setDirectory (sound : files.Sound)
    (stands : files.node? directory = some .directory) :
    (files.setNode (name :: directory) .directory).Sound := by
  have before : ∀ place node,
      (files.setNode (name :: directory) .directory).node? place = some node →
      node = .directory ∧ place = name :: directory ∨ files.node? place = some node := by
    intro place node found
    rw [node?_setNode] at found
    split at found
    · rename_i same
      exact .inl ⟨(Option.some.inj found).symm, same⟩
    · exact .inr found
  have kept : ∀ place, files.node? place = some .directory →
      (files.setNode (name :: directory) .directory).node? place = some .directory := by
    intro place found
    rw [node?_setNode]
    split
    · rfl
    · exact found
  refine ⟨fun called place there => ?_, fun place found there => ?_,
    fun place other found there here => ?_⟩
  · obtain ⟨node, found⟩ := Option.isSome_iff_exists.mp there
    rcases before _ _ found with ⟨_, same⟩ | earlier
    · cases same
      exact kept _ stands
    · exact kept _ (sound.parents called place (by rw [earlier]; rfl))
  · rcases before _ _ there with ⟨other, _⟩ | earlier
    · contradiction
    · exact sound.numbers _ _ earlier
  · rcases before _ _ there with ⟨other, _⟩ | earlier
    · contradiction
    · rcases before _ _ here with ⟨other, _⟩ | also
      · contradiction
      · exact sound.unlinked _ _ found earlier also

theorem grown_setDirectory (seated : files.Seated path directory name)
    (free : files.node? (name :: directory) = none) :
    files.Grown path.names (files.setNode (name :: directory) .directory) := by
  refine ⟨fun place => ?_, rfl, rfl, fun sound => sound.setDirectory seated.directory,
    fun place distinct => nodup_namesAt_setNode distinct _ _ _⟩
  rw [node?_setNode]
  split
  · rename_i same
    subst same
    exact .inr ⟨free, rfl, name, directory, rfl, List.mem_of_getLast? seated.named⟩
  · exact .inl rfl

theorem createDirectory_grown {result : Except IoError Unit}
    (made : createDirectory path files = (result, after)) : files.Grown path.names after := by
  unfold createDirectory at made
  split at made
  · cases made
    exact .refl _ _
  · cases made
    exact .refl _ _
  · rename_i directory name seated
    split at made
    · cases made
      exact .refl _ _
    · rename_i free
      cases made
      exact grown_setDirectory (seat_eq_at_iff.mp seated) free

theorem settleDirectory_grown {result : Except IoError Unit}
    (made : settleDirectory path files = (result, after)) : files.Grown path.names after := by
  unfold settleDirectory at made
  split at made
  · rename_i created
    cases made
    exact createDirectory_grown created
  · rename_i created
    have grown := createDirectory_grown created
    split at made
    all_goals
      cases made
      exact grown

theorem createDirectoriesWithin_cases {depth : Nat} {result : Except IoError Unit}
    (made : createDirectoriesWithin depth path files = (result, after)) :
    after = files ∨ createDirectory path files = (result, after) ∨
    ∃ less parent outcome changed, depth = less + 1 ∧ path.parent? = some parent ∧
      createDirectoriesWithin less parent files = (outcome, changed) ∧
      (after = changed ∨ settleDirectory path changed = (result, after)) := by
  rw [createDirectoriesWithin.eq_def] at made
  dsimp only at made
  split at made
  · exact .inl (Prod.mk.inj made).2.symm
  · split at made
    · rename_i created
      exact .inr (.inl (made ▸ created))
    · split at made
      · split at made
        · rename_i less parent above
          split at made
          · rename_i failed
            exact .inr (.inr ⟨_, _, _, _, rfl, above, failed, .inl (Prod.mk.inj made).2.symm⟩)
          · rename_i grown
            exact .inr (.inr ⟨_, _, _, _, rfl, above, grown, .inr made⟩)
        · exact .inl (Prod.mk.inj made).2.symm
      · split at made <;> exact .inl (Prod.mk.inj made).2.symm

/-- Directories are made from the top, and those that were made stay when a later one fails. -/
theorem createDirectoriesWithin_grown {depth : Nat} {result : Except IoError Unit}
    (made : createDirectoriesWithin depth path files = (result, after)) :
    files.Grown path.names after := by
  induction depth generalizing path result after with
  | zero =>
    rcases createDirectoriesWithin_cases made with rfl | created | ⟨_, _, _, _, deep, _⟩
    · exact .refl _ _
    · exact createDirectory_grown created
    · contradiction
  | succ depth ih =>
    rcases createDirectoriesWithin_cases made with rfl | created |
      ⟨_, parent, outcome, changed, deep, above, first, last⟩
    · exact .refl _ _
    · exact createDirectory_grown created
    · cases deep
      have grown := (ih first).mono fun name => Path.mem_names_of_parent above
      rcases last with rfl | settled
      · exact grown
      · exact grown.trans (settleDirectory_grown settled)

end ChunkedUpload.FileSystem
