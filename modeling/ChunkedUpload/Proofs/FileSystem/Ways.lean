import ChunkedUpload.Proofs.FileSystem.Effects

/-! Ways of which a part is still to be made. Where what is missing leads down only, the place at
the end is known beforehand, and nothing else is made than directories on the way to it. -/
namespace ChunkedUpload

namespace Path

variable {path parent : Path}

/-- The names on the way, without those that lead to where one is. -/
def turns (path : Path) : List FileName := path.names.filter fun name => name ≠ [dot]

theorem dot_notMem_turns (path : Path) : [dot] ∉ path.turns := by
  intro member
  simpa using (List.mem_filter.mp member).2

theorem turns_child {text : String} (named : IsName (ofString text).bytes)
    (other : (ofString text).bytes ≠ [dot]) :
    (path.child text).turns = path.turns ++ [(ofString text).bytes] := by
  rw [turns, names_child named, List.filter_append, List.filter_singleton, turns]
  simp [other]

theorem steps_cases (path : Path) : path.steps = path.turns ∨ path.steps = [dot] :: path.turns := by
  rw [steps, turns]
  cases path.names with
  | nil => exact .inl rfl
  | cons first rest =>
    by_cases idle : first = [dot]
    · cases path.isAbsolute <;> simp [idle]
    · simp [idle]

theorem turns_parent (above : path.parent? = some parent) :
    parent.turns = path.turns.dropLast := by
  have all_turns : path.turns.dropLast.filter (fun name => name ≠ [dot]) = path.turns.dropLast := by
    refine List.filter_eq_self.mpr fun name member => ?_
    have other : name ≠ [dot] := by
      rintro rfl
      exact path.dot_notMem_turns (List.dropLast_subset _ member)
    simpa using other
  rw [turns, names_parent above]
  rcases path.steps_cases with same | same
  · rw [same, all_turns]
  · rw [same]
    cases turns : path.turns with
    | nil => rfl
    | cons first rest =>
      rw [turns] at all_turns
      rw [List.dropLast_cons_cons, List.filter_cons_of_neg (by simp), all_turns]

end Path

namespace FileSystem

variable {files after : FileSystem} {path parent : Path} {base place last other : Location}
  {names rest : List FileName}

section Walks

/-- On the way to a directory, names that lead to where one is make no difference. -/
theorem walk_filter (arrives : files.node? last = some .directory) :
    files.walk place (names.filter fun name => name ≠ [Path.dot]) = .ok last ↔
      files.walk place names = .ok last := by
  induction names generalizing place with
  | nil => rfl
  | cons name rest ih =>
    by_cases idle : name = [Path.dot]
    · rw [List.filter_cons_of_neg (by simpa using idle), ih]
      constructor
      · intro walked
        have stands := directory_of_walk walked arrives
        rw [← isDirectoryAt_iff] at stands
        rw [walk, stands, if_pos idle]
        exact walked
      · intro walked
        rw [walk, if_pos idle] at walked
        split at walked
        · contradiction
        · exact walked
    · rw [List.filter_cons_of_pos (by simpa using idle), walk, walk, if_neg idle, if_neg idle]
      split
      · rfl
      · split
        · exact ih
        · split
          · rfl
          · split
            · rfl
            · exact ih

theorem walk_down (idle : [Path.dot] ∉ rest) (down : [Path.dot, Path.dot] ∉ rest)
    (walked : files.walk base rest = .ok last) : last = rest.reverse ++ base := by
  induction rest generalizing base with
  | nil => exact (Except.ok.inj walked).symm
  | cons name rest ih =>
    rw [List.mem_cons, not_or] at idle down
    rw [walk, if_neg (Ne.symm idle.1), if_neg (Ne.symm down.1)] at walked
    split at walked
    · contradiction
    · split at walked
      · contradiction
      · split at walked
        · contradiction
        · simpa using ih idle.2 down.2 walked

theorem Sound.directory_above (sound : files.Sound) {front : List FileName}
    (stands : files.node? (front ++ place) = some .directory) :
    files.node? place = some .directory := by
  induction front with
  | nil => exact stands
  | cons name front ih =>
    rw [List.cons_append] at stands
    exact ih (sound.parents name (front ++ place) (by rw [stands]; rfl))

/-- Where the directory at the end stands, whoever can walk there later can walk there now. -/
theorem walk_back (sound : files.Sound) (idle : [Path.dot] ∉ rest)
    (down : [Path.dot, Path.dot] ∉ rest)
    (stands : files.node? (rest.reverse ++ base) = some .directory)
    (walked : after.walk base rest = .ok last) : files.walk base rest = .ok last := by
  induction rest generalizing base with
  | nil => exact walked
  | cons name rest ih =>
    rw [List.mem_cons, not_or] at idle down
    rw [List.reverse_cons, List.append_assoc, List.singleton_append] at stands
    have next := sound.directory_above stands
    have here := sound.parents name base (by simp [next])
    rw [walk, if_neg (Ne.symm idle.1), if_neg (Ne.symm down.1)] at walked ⊢
    rw [(files.isDirectoryAt_iff).mpr here, next]
    split at walked
    · contradiction
    · split at walked
      · contradiction
      · rename_i short
        rw [if_neg short]
        split at walked
        · contradiction
        · exact ih idle.2 down.2 stands walked

end Walks

/-- The path leads to this place: its first names lead to a directory, and all others lead down,
whether or not anything stands there yet. -/
inductive Leads (files : FileSystem) (path : Path) : Location → Prop
  | intro {base : Location} {front rest : List FileName} (turns : path.turns = front ++ rest)
      (walked : files.walk (files.start path) front = .ok base)
      (stands : files.node? base = some .directory)
      (down : [Path.dot, Path.dot] ∉ rest) : Leads files path (rest.reverse ++ base)

section Leads

theorem Located.turned (located : files.Located path place) :
    files.walk (files.start path) path.turns = .ok place :=
  (walk_filter located.directory).mpr located.walked

theorem located_of_turned (turned : files.walk (files.start path) path.turns = .ok place)
    (stands : files.node? place = some .directory) : files.Located path place :=
  ⟨(walk_filter stands).mp turned, stands⟩

theorem Located.leads (located : files.Located path place) : files.Leads path place :=
  .intro (List.append_nil _).symm located.turned located.directory List.not_mem_nil

theorem leads_down (stands : files.node? (files.start path) = some .directory)
    (down : [Path.dot, Path.dot] ∉ path.turns) :
    files.Leads path (path.turns.reverse ++ files.start path) :=
  .intro (List.nil_append _).symm rfl stands down

theorem leads_empty (down : [Path.dot, Path.dot] ∉ path.turns) :
    FileSystem.empty.Leads path path.turns.reverse := by
  have top : FileSystem.empty.start path = [] := by
    rw [FileSystem.start]
    split <;> rfl
  have leads := leads_down (by rw [top]; rfl) down
  rwa [top, List.append_nil] at leads

theorem Leads.kept (leads : files.Leads path place) (kept : files.KeepsDirectories after) :
    after.Leads path place := by
  cases leads with
  | intro turns walked stands down =>
    refine .intro turns ?_ (kept.directories _ stands) down
    rw [kept.start]
    exact walk_kept kept walked stands

theorem Leads.eq_of_located (leads : files.Leads path place) (located : files.Located path other) :
    other = place := by
  cases leads with
  | @intro base front rest turns walked stands down =>
    have idle : [Path.dot] ∉ rest := fun member =>
      path.dot_notMem_turns (turns ▸ List.mem_append_right front member)
    have whole := located.turned
    rw [turns, walk_append, walked] at whole
    exact walk_down idle down whole

/-- A directory that can be reached later and stands already can be reached already. -/
theorem Leads.located (leads : files.Leads path place) (sound : files.Sound)
    (kept : files.KeepsDirectories after) (later : after.Located path place)
    (stands : files.node? place = some .directory) : files.Located path place := by
  refine located_of_turned ?_ stands
  have turned := later.turned
  cases leads with
  | @intro base front rest turns walked here down =>
    have idle : [Path.dot] ∉ rest := fun member =>
      path.dot_notMem_turns (turns ▸ List.mem_append_right front member)
    rw [turns, walk_append, kept.start, walk_kept kept walked here] at turned
    rw [turns, walk_append, walked]
    exact walk_back sound idle down stands turned

theorem Leads.child {text : String} (leads : files.Leads path place)
    (named : Path.IsName (Path.ofString text).bytes)
    (ordinary : Ordinary (Path.ofString text).bytes) :
    files.Leads (path.child text) ((Path.ofString text).bytes :: place) := by
  cases leads with
  | @intro base front rest turns walked stands down =>
    have more : (path.child text).turns = front ++ (rest ++ [(Path.ofString text).bytes]) := by
      rw [Path.turns_child named ordinary.1, turns, List.append_assoc]
    have lower : [Path.dot, Path.dot] ∉ rest ++ [(Path.ofString text).bytes] := by
      simp [down, Ne.symm ordinary.2]
    have start : files.start (path.child text) = files.start path := by
      rw [FileSystem.start, FileSystem.start, Path.isAbsolute_child named]
    simpa using Leads.intro more (start ▸ walked) stands lower

/-- The way to the directory above ends higher, as long as the directory itself is missing. -/
theorem Leads.above (leads : files.Leads path place) (missing : ∀ other, ¬ files.Located path other)
    (above : path.parent? = some parent) :
    ∃ higher, files.Leads parent higher ∧ higher <:+ place := by
  cases leads with
  | @intro base front rest turns walked stands down =>
    have start : files.start parent = files.start path := by
      rw [FileSystem.start, FileSystem.start, Path.isAbsolute_parent above]
    rcases List.eq_nil_or_concat' rest with rfl | ⟨others, name, rfl⟩
    · rw [← List.append_nil front, ← turns] at walked
      exact absurd (located_of_turned walked stands) (missing base)
    · have fewer : parent.turns = front ++ others := by
        rw [Path.turns_parent above, turns, ← List.append_assoc, List.dropLast_concat]
      have lower : [Path.dot, Path.dot] ∉ others := fun member =>
        down (List.mem_append_left _ member)
      refine ⟨others.reverse ++ base, .intro fewer (start ▸ walked) stands lower, ?_⟩
      simp

end Leads

/-- Nothing has changed but on the way to where the path leads. -/
def Made (files : FileSystem) (path : Path) (after : FileSystem) : Prop :=
  ∀ place, files.Leads path place → ∀ other,
    after.node? other = files.node? other ∨ other <:+ place

theorem Made.refl (files : FileSystem) (path : Path) : files.Made path files :=
  fun _ _ _ => .inl rfl

theorem Seated.node?_of_located {name : FileName} (seated : files.Seated path place name)
    (located : files.Located path other) : (files.node? (name :: place)).isSome = true := by
  have walked := located.walked
  rw [Path.names_of_last seated.named, walk_append, seated.walked] at walked
  exact ((walk_single seated.ordinary).mp walked).2.2.1

theorem Located.seat_ne (located : files.Located path place) (some_bytes : path.bytes ≠ []) :
    files.seat path ≠ .error (.system SystemError.noSuchFile) := by
  have checked : checkPath path ≠ .error (.system SystemError.noSuchFile) := by
    rw [checkPath]
    split
    · simp
    · rw [if_neg (by simpa using some_bytes)]
      split
      · simp [SystemError.nameTooLong, SystemError.noSuchFile]
      · simp
  rw [seat]
  cases check : checkPath path with
  | error error =>
    intro missing
    cases missing
    exact checked check
  | ok =>
    simp only [bind, Except.bind]
    split
    · simp
    · rename_i name last
      have walked := located.walked
      rw [Path.names_of_last last, walk_append] at walked
      cases way : files.walk (files.start path) path.names.dropLast with
      | error error =>
        rw [way] at walked
        contradiction
      | ok directory =>
        dsimp only
        split
        · simp [SystemError.notDirectory, SystemError.noSuchFile]
        · split
          · simp
          · split
            · simp [SystemError.nameTooLong, SystemError.noSuchFile]
            · simp

theorem Seated.located_of_made {name : FileName} (seated : files.Seated path place name)
    (kept : files.KeepsDirectories after)
    (stands : after.node? (name :: place) = some .directory) :
    after.Located path (name :: place) where
  walked := by
    have above := (seated.kept kept).walked
    rw [Path.names_of_last seated.named, walk_append, above]
    exact (walk_single seated.ordinary).mpr
      ⟨kept.directories _ seated.directory, seated.short, by rw [stands]; rfl, rfl⟩
  directory := stands

section Making

theorem createDirectory_made {result : Except IoError Unit}
    (made : createDirectory path files = (result, after)) : files.Made path after := by
  intro place leads other
  unfold createDirectory at made
  split at made
  · cases made
    exact .inl rfl
  · cases made
    exact .inl rfl
  · rename_i directory name seat
    have seated := seat_eq_at_iff.mp seat
    split at made
    · cases made
      exact .inl rfl
    · rename_i free
      cases made
      -- once it is made, it is what the path leads to
      have grown := grown_setDirectory seated free
      have kept := grown.keepsDirectories
      have located := seated.located_of_made kept (by rw [node?_setNode, if_pos rfl])
      obtain rfl := (leads.kept kept).eq_of_located located
      rw [node?_setNode]
      split
      · rename_i same
        exact .inr (same ▸ List.suffix_refl _)
      · exact .inl rfl

theorem settleDirectory_made {result : Except IoError Unit}
    (made : settleDirectory path files = (result, after)) : files.Made path after := by
  unfold settleDirectory at made
  split at made
  · rename_i created
    cases made
    exact createDirectory_made created
  · rename_i created
    have made_one := createDirectory_made created
    split at made
    all_goals
      cases made
      exact made_one

theorem createDirectory_of_located (located : files.Located path place)
    (some_bytes : path.bytes ≠ []) : ∃ error, createDirectory path files = (.error error, files) ∧
      error ≠ .system SystemError.noSuchFile := by
  unfold createDirectory
  split
  · rename_i error failed
    refine ⟨error, rfl, ?_⟩
    rintro rfl
    exact located.seat_ne some_bytes failed
  · exact ⟨_, rfl, by decide⟩
  · rename_i directory name found
    have there := (seat_eq_at_iff.mp found).node?_of_located located
    split
    · exact ⟨_, rfl, by decide⟩
    · rename_i free
      rw [free] at there
      contradiction

theorem createDirectoriesWithin_of_located {depth : Nat} {result : Except IoError Unit}
    (located : files.Located path place)
    (made : createDirectoriesWithin depth path files = (result, after)) : after = files := by
  rw [createDirectoriesWithin.eq_def] at made
  dsimp only at made
  split at made
  · exact (Prod.mk.inj made).2.symm
  · rename_i some_bytes
    obtain ⟨error, created, other⟩ := createDirectory_of_located located (by simpa using some_bytes)
    rw [created] at made
    dsimp only at made
    rw [if_neg other] at made
    split at made <;> exact (Prod.mk.inj made).2.symm

theorem createDirectoriesWithin_made {depth : Nat} {result : Except IoError Unit}
    (made : createDirectoriesWithin depth path files = (result, after)) :
    files.Made path after := by
  induction depth generalizing path result after with
  | zero =>
    rcases createDirectoriesWithin_cases made with rfl | created | ⟨_, _, _, _, deep, _⟩
    · exact .refl _ _
    · exact createDirectory_made created
    · contradiction
  | succ depth ih =>
    by_cases there : ∃ place, files.Located path place
    · obtain ⟨place, located⟩ := there
      rw [createDirectoriesWithin_of_located located made]
      exact .refl _ _
    · rcases createDirectoriesWithin_cases made with rfl | created |
        ⟨_, parent, outcome, changed, deep, above, first, last⟩
      · exact .refl _ _
      · exact createDirectory_made created
      · cases deep
        intro place leads other
        obtain ⟨higher, leads_above, inside⟩ := leads.above (not_exists.mp there) above
        have kept := (createDirectoriesWithin_grown first).keepsDirectories
        have before := (ih first higher leads_above other).imp_right (·.trans inside)
        rcases last with rfl | settled
        · exact before
        · rcases settleDirectory_made settled place (leads.kept kept) other with same | way
          · rw [same]
            exact before
          · exact .inr way

end Making

end FileSystem

end ChunkedUpload
