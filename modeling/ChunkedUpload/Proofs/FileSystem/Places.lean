import ChunkedUpload.FileSystem.Operations
import ChunkedUpload.Proofs.FileSystem.Paths
import ChunkedUpload.Proofs.Keys

/-! Places in a file system and the paths that lead to them. What leads through directories leads to
the same place for as long as these directories stand. -/
namespace ChunkedUpload

namespace FileSystem

variable {files after : FileSystem} {path : Path} {place last directory : Location}
  {name : FileName} {names : List FileName}

section Views

variable (files)

@[simp] theorem node?_nil : files.node? [] = some .directory := rfl

theorem isDirectoryAt_iff :
    files.isDirectoryAt place = true ↔ files.node? place = some .directory := by
  rw [isDirectoryAt, beq_iff_eq]

theorem node?_cons (name : FileName) (place : Location) :
    files.node? (name :: place) = files.entries.lookup (name :: place) := by
  rw [node?, if_neg (List.cons_ne_nil _ _)]

theorem node?_setNode (name : FileName) (place : Location) (node : Node) (other : Location) :
    (files.setNode (name :: place) node).node? other =
      if other = name :: place then some node else files.node? other := by
  cases other with
  | nil => simp
  | cons first rest =>
    rw [node?_cons, node?_cons, setNode]
    dsimp only
    rw [List.lookup_cons, lookup_filter_ne]
    by_cases same : first :: rest = name :: place
    · simp only [same, beq_self_eq_true, if_true]
    · rw [if_neg same, beq_false_of_ne same, if_neg same]

theorem node?_clear (name : FileName) (place other : Location) :
    (files.clear (name :: place)).node? other =
      if other = name :: place then none else files.node? other := by
  cases other with
  | nil => simp
  | cons first rest =>
    rw [node?_cons, node?_cons, clear, lookup_filter_ne]

@[simp] theorem node?_setContent (number : Nat) (bytes : ByteArray) (other : Location) :
    (files.setContent number bytes).node? other = files.node? other := rfl

theorem content_setContent (number : Nat) (bytes : ByteArray) (other : Nat) :
    (files.setContent number bytes).content other =
      if other = number then bytes else files.content other := by
  rw [content, content, setContent]
  dsimp only
  rw [List.lookup_cons, lookup_filter_ne]
  by_cases same : other = number
  · simp only [same, beq_self_eq_true, if_true, Option.getD_some]
  · rw [if_neg same, beq_false_of_ne same, if_neg same]

@[simp] theorem content_setNode (place : Location) (node : Node) (number : Nat) :
    (files.setNode place node).content number = files.content number := rfl

@[simp] theorem content_clear (place : Location) (number : Nat) :
    (files.clear place).content number = files.content number := rfl

theorem mem_namesAt (name : FileName) (place : Location) :
    name ∈ files.namesAt place ↔ (files.node? (name :: place)).isSome = true := by
  rw [node?_cons, List.lookup_isSome_iff, namesAt, List.mem_filterMap]
  constructor
  · rintro ⟨⟨key, node⟩, member, found⟩
    refine ⟨(key, node), member, ?_⟩
    dsimp only at found
    split at found
    · split at found
      · rename_i same
        rw [← Option.some.inj found, same, beq_self_eq_true]
      · contradiction
    · contradiction
  · rintro ⟨⟨key, node⟩, member, same⟩
    refine ⟨(key, node), member, ?_⟩
    rw [← eq_of_beq same]
    exact if_pos rfl

variable {files}

theorem nodup_namesAt_clear (distinct : (files.namesAt place).Nodup) (other : Location) :
    ((files.clear other).namesAt place).Nodup :=
  distinct.sublist (List.filter_sublist.filterMap _)

theorem nodup_namesAt_setNode (distinct : (files.namesAt place).Nodup) (name : FileName)
    (above : Location) (node : Node) :
    ((files.setNode (name :: above) node).namesAt place).Nodup := by
  have others := nodup_namesAt_clear distinct (name :: above)
  by_cases here : above = place
  · have names : (files.setNode (name :: above) node).namesAt place =
        name :: (files.clear (name :: above)).namesAt place :=
      List.filterMap_cons_some (if_pos here)
    rw [names, List.nodup_cons, mem_namesAt, node?_clear, here, if_pos rfl]
    exact ⟨nofun, here ▸ others⟩
  · have names : (files.setNode (name :: above) node).namesAt place =
        (files.clear (name :: above)).namesAt place :=
      List.filterMap_cons_none (if_neg here)
    rwa [names]

end Views

section Walks

/-- Every directory stays where it is. -/
structure KeepsDirectories (files after : FileSystem) : Prop where
  directories : ∀ place, files.node? place = some .directory →
    after.node? place = some .directory
  workingDirectory : after.workingDirectory = files.workingDirectory

theorem KeepsDirectories.refl (files : FileSystem) : files.KeepsDirectories files :=
  ⟨fun _ => id, rfl⟩

theorem KeepsDirectories.trans {last : FileSystem} (first : files.KeepsDirectories after)
    (second : after.KeepsDirectories last) : files.KeepsDirectories last :=
  ⟨fun place found => second.directories place (first.directories place found),
    second.workingDirectory.trans first.workingDirectory⟩

theorem KeepsDirectories.start (kept : files.KeepsDirectories after) (path : Path) :
    after.start path = files.start path := by
  rw [FileSystem.start, FileSystem.start, kept.workingDirectory]

theorem walk_append (files : FileSystem) (place : Location) (first second : List FileName) :
    files.walk place (first ++ second) =
      (files.walk place first).bind fun mid => files.walk mid second := by
  induction first generalizing place with
  | nil => rfl
  | cons name rest ih =>
    rw [List.cons_append, walk, walk]
    split
    · rfl
    · split
      · exact ih _
      · split
        · exact ih _
        · split
          · rfl
          · split
            · rfl
            · exact ih _

/-- Neither the step to where one is nor the one upwards. -/
def Ordinary (name : FileName) : Prop := name ≠ [Path.dot] ∧ name ≠ [Path.dot, Path.dot]

theorem walk_single (ordinary : Ordinary name) :
    files.walk place [name] = .ok last ↔ files.node? place = some .directory ∧
      name.length ≤ maxNameBytes ∧ (files.node? (name :: place)).isSome = true ∧
      last = name :: place := by
  rw [walk, if_neg ordinary.1, if_neg ordinary.2, ← isDirectoryAt_iff, walk]
  cases stands : files.isDirectoryAt place with
  | false => simp
  | true =>
    cases there : files.node? (name :: place) with
    | none =>
      rw [if_neg (by simp)]
      split <;> simp
    | some node =>
      by_cases short : name.length ≤ maxNameBytes
      · rw [if_neg (by simp), if_neg (Nat.not_lt.mpr short), if_neg (by simp)]
        constructor
        · intro same
          exact ⟨rfl, short, rfl, (Except.ok.inj same).symm⟩
        · rintro ⟨_, _, _, rfl⟩
          rfl
      · rw [if_neg (by simp), if_pos (Nat.lt_of_not_le short)]
        simp [short]

/-- Whoever arrives at a directory came from one. -/
theorem directory_of_walk (walked : files.walk place names = .ok last)
    (arrives : files.node? last = some .directory) : files.node? place = some .directory := by
  cases names with
  | nil =>
    cases walked
    exact arrives
  | cons name rest =>
    rw [walk] at walked
    split at walked
    · contradiction
    · rename_i stands
      rw [← isDirectoryAt_iff]
      simpa using stands

theorem walk_kept (kept : files.KeepsDirectories after)
    (walked : files.walk place names = .ok last)
    (arrives : files.node? last = some .directory) : after.walk place names = .ok last := by
  induction names generalizing place with
  | nil => exact walked
  | cons name rest ih =>
    -- each place on the way is a directory, since the walk goes on from it
    have stands := kept.directories _ (directory_of_walk walked arrives)
    rw [walk] at walked ⊢
    split at walked
    · contradiction
    · rw [(after.isDirectoryAt_iff).mpr stands, if_neg (by simp)]
      split at walked
      · rename_i dot
        rw [if_pos dot]
        exact ih walked
      · rename_i no_dot
        rw [if_neg no_dot]
        split at walked
        · rename_i dots
          rw [if_pos dots]
          exact ih walked
        · rename_i no_dots
          rw [if_neg no_dots]
          split at walked
          · contradiction
          · rename_i short
            rw [if_neg short]
            split at walked
            · contradiction
            · have next := kept.directories _ (directory_of_walk walked arrives)
              rw [next, if_neg (by simp)]
              exact ih walked

end Walks

/-- The path leads to a directory at this place. -/
structure Located (files : FileSystem) (path : Path) (place : Location) : Prop where
  walked : files.walk (files.start path) path.names = .ok place
  directory : files.node? place = some .directory

theorem Located.kept (located : files.Located path place)
    (kept : files.KeepsDirectories after) : after.Located path place where
  walked := by
    rw [kept.start]
    exact walk_kept kept located.walked located.directory
  directory := kept.directories place located.directory

theorem Located.unique {other : Location} (located : files.Located path place)
    (there : files.Located path other) : place = other :=
  Except.ok.inj (located.walked.symm.trans there.walked)

theorem Located.resolve (located : files.Located path place) (checked : checkPath path = .ok ()) :
    files.resolve path = .ok place := by
  have stands := (files.isDirectoryAt_iff).mpr located.directory
  rw [FileSystem.resolve, checked, located.walked]
  simp only [bind, Except.bind, stands, Bool.not_true, Bool.and_false]
  rfl

theorem Located.list (located : files.Located path place) (checked : checkPath path = .ok ()) :
    files.list path = .ok (files.namesAt place) := by
  have stands := (files.isDirectoryAt_iff).mpr located.directory
  rw [FileSystem.list, located.resolve checked]
  simp only [bind, Except.bind, stands, if_true]

/-- The way along the path ends early, where nothing has the next name. -/
def Absent (files : FileSystem) (path : Path) : Prop :=
  files.walk (files.start path) path.names = .error (.system SystemError.noSuchFile)

theorem Absent.list (absent : files.Absent path) (checked : checkPath path = .ok ()) :
    files.list path = .error (.system SystemError.noSuchFile) := by
  rw [FileSystem.list, FileSystem.resolve, checked]
  simp only [bind, Except.bind]
  rw [absent]

/-- The path leads to this name in this directory, whether or not anything has the name. -/
structure Seated (files : FileSystem) (path : Path) (directory : Location) (name : FileName) :
    Prop where
  checked : checkPath path = .ok ()
  named : path.names.getLast? = some name
  walked : files.walk (files.start path) path.names.dropLast = .ok directory
  directory : files.node? directory = some .directory
  ordinary : Ordinary name
  short : name.length ≤ maxNameBytes

theorem seat_eq_at_iff :
    files.seat path = .ok (.at directory name) ↔ files.Seated path directory name := by
  rw [seat]
  constructor
  · intro seated
    cases checked : checkPath path with
    | error error =>
      rw [checked] at seated
      contradiction
    | ok =>
      rw [checked] at seated
      simp only [bind, Except.bind] at seated
      split at seated
      · cases seated
      · rename_i found named
        cases walked : files.walk (files.start path) path.names.dropLast with
        | error error =>
          rw [walked] at seated
          contradiction
        | ok place =>
          rw [walked] at seated
          dsimp only at seated
          split at seated
          · contradiction
          · rename_i stands
            split at seated
            · cases seated
            · rename_i ordinary
              split at seated
              · contradiction
              · rename_i short
                cases seated
                rw [not_or] at ordinary
                exact ⟨checked, named, walked,
                  (files.isDirectoryAt_iff).mp (by simpa using stands), ordinary,
                  Nat.le_of_not_lt short⟩
  · intro seated
    have stands := (files.isDirectoryAt_iff).mpr seated.directory
    rw [seated.checked]
    simp only [bind, Except.bind, seated.named, seated.walked, stands]
    rw [if_neg (by simp), if_neg (not_or.mpr seated.ordinary),
      if_neg (Nat.not_lt.mpr seated.short)]

namespace Seated

theorem kept (seated : files.Seated path directory name)
    (kept : files.KeepsDirectories after) : after.Seated path directory name where
  checked := seated.checked
  named := seated.named
  walked := by
    rw [kept.start]
    exact walk_kept kept seated.walked seated.directory
  directory := kept.directories directory seated.directory
  ordinary := seated.ordinary
  short := seated.short

theorem unique {other : Location} {called : FileName} (seated : files.Seated path directory name)
    (there : files.Seated path other called) : other = directory ∧ called = name :=
  ⟨Except.ok.inj (there.walked.symm.trans seated.walked),
    Option.some.inj (there.named.symm.trans seated.named)⟩

theorem resolve (seated : files.Seated path directory name)
    (open_end : path.endsInSlash = false)
    (there : (files.node? (name :: directory)).isSome = true) :
    files.resolve path = .ok (name :: directory) := by
  have step := (walk_single seated.ordinary).mpr ⟨seated.directory, seated.short, there, rfl⟩
  rw [FileSystem.resolve, seated.checked, Path.names_of_last seated.named, walk_append,
    seated.walked]
  simp only [bind, Except.bind, step, open_end, Bool.false_and]
  rfl

theorem read (seated : files.Seated path directory name)
    (open_end : path.endsInSlash = false) {number : Nat}
    (there : files.node? (name :: directory) = some (.file number)) :
    files.read path = .ok (files.content number) := by
  rw [FileSystem.read, openFile, seated.resolve open_end (by rw [there]; rfl)]
  simp only [bind, Except.bind, there]
  rfl

end Seated

section Child

variable {text : String} (named : Path.IsName (Path.ofString text).bytes)

include named

theorem Located.seated (located : files.Located path directory)
    (checked : checkPath (path.child text) = .ok ())
    (ordinary : Ordinary (Path.ofString text).bytes)
    (short : (Path.ofString text).bytes.length ≤ maxNameBytes) :
    files.Seated (path.child text) directory (Path.ofString text).bytes where
  checked := checked
  named := by rw [Path.names_child named, List.getLast?_concat]
  walked := by
    rw [Path.names_child named, List.dropLast_concat, start, Path.isAbsolute_child named]
    exact located.walked
  directory := located.directory
  ordinary := ordinary
  short := short

theorem Seated.of_child (seated : files.Seated (path.child text) directory name) :
    files.Located path directory ∧ name = (Path.ofString text).bytes := by
  have walked := seated.walked
  have last := seated.named
  rw [Path.names_child named, List.dropLast_concat, start, Path.isAbsolute_child named] at walked
  rw [Path.names_child named, List.getLast?_concat] at last
  exact ⟨⟨walked, seated.directory⟩, (Option.some.inj last).symm⟩

theorem checkPath_of_child (some_bytes : path.bytes ≠ [])
    (checked : checkPath (path.child text) = .ok ()) : checkPath path = .ok () := by
  obtain ⟨rest, bytes⟩ := @Path.child_append path text named
  rw [checkPath, bytes] at checked
  rw [checkPath]
  split at checked
  · cases checked
  · rename_i no_nul
    split at checked
    · cases checked
    · split at checked
      · cases checked
      · rename_i short
        rw [List.length_append] at short
        rw [List.contains_append, Bool.or_eq_true, not_or] at no_nul
        rw [if_neg no_nul.1, if_neg (by simpa using some_bytes), if_neg (by omega)]

theorem walk_child : files.walk (files.start (path.child text)) (path.child text).names =
    (files.walk (files.start path) path.names).bind fun place =>
      files.walk place [(Path.ofString text).bytes] := by
  rw [Path.names_child named, walk_append, start, start, Path.isAbsolute_child named]

theorem located_of_walk_child (ordinary : Ordinary (Path.ofString text).bytes)
    (walked : files.walk (files.start (path.child text)) (path.child text).names = .ok place) :
    ∃ directory, files.Located path directory ∧
      place = (Path.ofString text).bytes :: directory := by
  rw [walk_child named] at walked
  cases above : files.walk (files.start path) path.names with
  | error error =>
    rw [above] at walked
    contradiction
  | ok directory =>
    rw [above] at walked
    obtain ⟨stands, _, _, same⟩ := (walk_single ordinary).mp walked
    exact ⟨directory, ⟨above, stands⟩, same⟩

theorem Absent.child (absent : files.Absent path) : files.Absent (path.child text) := by
  rw [Absent, walk_child named, absent]
  rfl

theorem Located.absent_child (located : files.Located path directory)
    (ordinary : Ordinary (Path.ofString text).bytes)
    (short : (Path.ofString text).bytes.length ≤ maxNameBytes)
    (free : files.node? ((Path.ofString text).bytes :: directory) = none) :
    files.Absent (path.child text) := by
  have stands := (files.isDirectoryAt_iff).mpr located.directory
  rw [Absent, walk_child named, located.walked, Except.bind, walk, stands, if_neg (by simp),
    if_neg ordinary.1, if_neg ordinary.2, if_neg (Nat.not_lt.mpr short), free]
  rfl

theorem Located.child (located : files.Located path directory)
    (ordinary : Ordinary (Path.ofString text).bytes)
    (short : (Path.ofString text).bytes.length ≤ maxNameBytes)
    (stands : files.node? ((Path.ofString text).bytes :: directory) = some .directory) :
    files.Located (path.child text) ((Path.ofString text).bytes :: directory) where
  walked := by
    rw [walk_child named, located.walked]
    exact (walk_single ordinary).mpr ⟨located.directory, short, by rw [stands]; rfl, rfl⟩
  directory := stands

theorem Located.of_child (ordinary : Ordinary (Path.ofString text).bytes)
    (located : files.Located (path.child text) place) :
    ∃ directory, files.Located path directory ∧
      place = (Path.ofString text).bytes :: directory :=
  located_of_walk_child named ordinary located.walked

end Child

section Readers

variable {bytes : ByteArray}

/-- What a place gives to a reader. -/
def bytesAt? (files : FileSystem) (place : Location) : Option ByteArray :=
  (files.node? place).bind fun node => (files.readHandle (handleOf node)).toOption

theorem node?_of_bytesAt? (there : files.bytesAt? place = some bytes) :
    (files.node? place).isSome = true := by
  obtain ⟨node, found, _⟩ := Option.bind_eq_some_iff.mp there
  rw [found]
  rfl

theorem bytesAt?_congr (nodes : after.node? place = files.node? place)
    (contents : ∀ number, files.node? place = some (.file number) →
      after.content number = files.content number) :
    after.bytesAt? place = files.bytesAt? place := by
  rw [bytesAt?, bytesAt?, nodes]
  cases there : files.node? place with
  | none => rfl
  | some node =>
    cases node with
    | directory | sink => rfl
    | file number => simp [handleOf, readHandle, contents number there]

theorem resolve_ok (resolved : files.resolve path = .ok place) :
    checkPath path = .ok () ∧ files.walk (files.start path) path.names = .ok place := by
  rw [resolve] at resolved
  cases checked : checkPath path with
  | error error =>
    rw [checked] at resolved
    contradiction
  | ok =>
    cases walked : files.walk (files.start path) path.names with
    | error error =>
      rw [checked, walked] at resolved
      contradiction
    | ok last =>
      rw [checked, walked] at resolved
      simp only [bind, Except.bind] at resolved
      split at resolved
      · contradiction
      · exact ⟨rfl, resolved⟩

theorem read_eq_some_iff : (files.read path).toOption = some bytes ↔
    ∃ place, files.resolve path = .ok place ∧ files.bytesAt? place = some bytes := by
  rw [read, openFile]
  cases resolved : files.resolve path with
  | error error => simp [bind, Except.bind, Except.toOption]
  | ok place =>
    cases there : files.node? place <;>
      simp [bind, Except.bind, Except.toOption, bytesAt?, there]

theorem list_ok (listed : files.list path = .ok names) :
    ∃ place, checkPath path = .ok () ∧ files.Located path place ∧ names = files.namesAt place := by
  rw [list] at listed
  cases resolved : files.resolve path with
  | error error =>
    rw [resolved] at listed
    contradiction
  | ok place =>
    rw [resolved] at listed
    simp only [bind, Except.bind] at listed
    split at listed
    · rename_i stands
      obtain ⟨checked, walked⟩ := resolve_ok resolved
      exact ⟨place, checked, ⟨walked, (files.isDirectoryAt_iff).mp stands⟩,
        (Except.ok.inj listed).symm⟩
    · contradiction

end Readers

/-- A tree, in which every file has one name only. -/
structure Sound (files : FileSystem) : Prop where
  parents : ∀ name place, (files.node? (name :: place)).isSome = true →
    files.node? place = some .directory
  numbers : ∀ place number, files.node? place = some (.file number) → number < files.nextNumber
  unlinked : ∀ place other number, files.node? place = some (.file number) →
    files.node? other = some (.file number) → place = other

theorem node?_empty (name : FileName) (place : Location) :
    FileSystem.empty.node? (name :: place) = none := node?_cons _ _ _

theorem sound_empty : FileSystem.empty.Sound := by
  have only : ∀ place number, FileSystem.empty.node? place ≠ some (.file number) := by
    intro place number
    cases place with
    | nil => simp
    | cons name place => simp [node?_empty]
  refine ⟨fun name place there => ?_, fun place number there => absurd there (only place number),
    fun place _ number there => absurd there (only place number)⟩
  rw [node?_empty] at there
  cases there

end FileSystem

end ChunkedUpload
