import ChunkedUpload.Proofs.Store.Steps

/-! What a store tells about its parts, also after some of them are lost, and how it puts them
together. -/
namespace ChunkedUpload.Store

variable {store : Store} {files after : FileSystem} {fileId : Int64} {total part : UInt32}
  {bytes : ByteArray} {directory : Location} {out : Path} {number : Nat}

theorem mem_partNumbers : part ∈ partNumbers total ↔ part < total := by
  rw [partNumbers, List.mem_map, UInt32.lt_iff_toNat_lt]
  constructor
  · rintro ⟨i, inside, rfl⟩
    have below := List.mem_range.mp inside
    rwa [UInt32.toNat_ofNat_of_lt' (Nat.lt_trans below total.toNat_lt)]
  · intro below
    exact ⟨part.toNat, List.mem_range.mpr below, UInt32.ofNat_toNat⟩

/-- The directory with the parts of a file can be listed. -/
structure Listed (store : Store) (files : FileSystem) (fileId : Int64) (directory : Location) :
    Prop where
  located : files.Located (store.directory fileId) directory
  checked : FileSystem.checkPath (store.directory fileId) = .ok ()

theorem Listed.kept (listed : store.Listed files fileId directory)
    (kept : files.KeepsDirectories after) : store.Listed after fileId directory :=
  ⟨listed.located.kept kept, listed.checked⟩

theorem checkPath_directory
    (checked : FileSystem.checkPath (store.partPath fileId part) = .ok ()) :
    FileSystem.checkPath (store.directory fileId) = .ok () := by
  have some_bytes : (store.directory fileId).bytes ≠ [] := by
    intro nothing
    have named : (store.directory fileId).names = store.root.names ++ [idFile fileId] :=
      Path.names_child (isName_idFile fileId)
    rw [Path.names, nothing] at named
    exact absurd named.symm (by simp [Path.cut])
  exact FileSystem.checkPath_of_child (isName_partFile part) some_bytes checked

theorem Holds.listed (held : store.Holds files fileId part bytes) :
    ∃ directory, store.Listed files fileId directory ∧
      (files.node? (partFile part :: directory)).isSome = true := by
  obtain ⟨directory, number, seated, there, _⟩ := held
  exact ⟨directory, ⟨(located_of_part seated).1, checkPath_directory seated.checked⟩,
    by rw [there]; rfl⟩

theorem Holds.lists (held : store.Holds files fileId part bytes) :
    store.Lists files fileId part := by
  obtain ⟨directory, listed, there⟩ := held.listed
  exact lists_iff.mpr
    ⟨directory, listed.checked, listed.located, _, there, partOfName?_partFile part⟩

/-- Which parts are missing can be read off the names in the directory. -/
theorem Listed.missingParts (listed : store.Listed files fileId directory) (total : UInt32)
    {lost : UInt32 → Bool} (stored : ∀ part < total, lost part = false ↔
      ∃ name, (files.node? (name :: directory)).isSome = true ∧ partOfName? name = some part) :
    store.missingParts fileId total files = .ok ((partNumbers total).filter lost) := by
  rw [Store.missingParts, storedParts, listed.located.list listed.checked]
  simp only [bind, Except.bind, pure, Except.pure]
  refine congrArg Except.ok (List.filter_congr fun part member => ?_)
  have below := stored part (mem_partNumbers.mp member)
  have found : part ∈ ((files.namesAt directory).filterMap partOfName?).mergeSort
      (fun a b => decide (a ≤ b)) ↔ lost part = false := by
    rw [List.mem_mergeSort, List.mem_filterMap, below]
    simp only [FileSystem.mem_namesAt]
  cases here : lost part with
  | false => simpa using found.mpr here
  | true =>
    have missing : ¬ lost part = false := by simp [here]
    simpa using mt found.mp missing

theorem missingParts_of_lists (some_parts : 0 < total)
    (listed : ∀ part < total, store.Lists files fileId part) :
    store.missingParts fileId total files = .ok [] := by
  obtain ⟨numbers, stored, _⟩ := listed 0 some_parts
  have none_missing : (partNumbers total).filter (fun part => !numbers.contains part) = [] := by
    refine List.filter_eq_nil_iff.mpr fun part member => ?_
    obtain ⟨others, also, there⟩ := listed part (mem_partNumbers.mp member)
    cases stored.symm.trans also
    simpa using there
  rw [missingParts, stored, ← none_missing]
  rfl

theorem missingParts_eq_nil (some_parts : 0 < total) {piece : UInt32 → ByteArray}
    (held : ∀ part < total, store.Holds files fileId part (piece part)) :
    store.missingParts fileId total files = .ok [] :=
  missingParts_of_lists some_parts fun part below => (held part below).lists

def removeParts (store : Store) (fileId : Int64) (parts : List UInt32) : FileSystem.Action Unit :=
  parts.forM fun part => FileSystem.remove (store.partPath fileId part)

/-- The files that are left when some of the parts are gone. -/
structure Reduced (store : Store) (files : FileSystem) (fileId : Int64) (lost : List UInt32)
    (after : FileSystem) : Prop where
  nodes : ∀ place, (∃ part ∈ lost, ∃ directory,
      files.Located (store.directory fileId) directory ∧ place = partFile part :: directory) ∧
        after.node? place = none ∨
    (∀ part ∈ lost, ∀ directory, files.Located (store.directory fileId) directory →
      place ≠ partFile part :: directory) ∧ after.node? place = files.node? place
  contents : ∀ number, after.content number = files.content number
  kept : files.KeepsDirectories after
  sound : files.Sound → after.Sound

theorem Reduced.holds {lost : List UInt32} (reduced : store.Reduced files fileId lost after)
    (held : store.Holds files fileId part bytes) (left : part ∉ lost) :
    store.Holds after fileId part bytes := by
  obtain ⟨directory, number, seated, there, content⟩ := held
  refine ⟨directory, number, seated.kept reduced.kept, ?_, (reduced.contents number).trans content⟩
  rcases reduced.nodes (partFile part :: directory) with ⟨⟨other, gone, _, _, eq⟩, _⟩ | ⟨_, same⟩
  · rw [partFile_inj (List.cons.inj eq).1] at left
    exact absurd gone left
  · rw [same, there]

theorem reduced_clear
    (seated : files.Seated (store.partPath fileId part) directory (partFile part))
    (there : files.node? (partFile part :: directory) = some (.file number)) :
    store.Reduced files fileId [part] (files.clear (partFile part :: directory)) := by
  have located := (located_of_part seated).1
  refine ⟨fun place => ?_, fun _ => rfl, .clear there, fun sound => sound.clear there⟩
  rw [FileSystem.node?_clear]
  by_cases here : place = partFile part :: directory
  · rw [if_pos here]
    exact .inl ⟨⟨part, List.mem_singleton_self part, directory, located, here⟩, rfl⟩
  · rw [if_neg here]
    refine .inr ⟨fun other member found also => ?_, rfl⟩
    obtain rfl := List.mem_singleton.mp member
    rw [also.unique located]
    exact here

theorem Reduced.trans {first second : List UInt32} {last : FileSystem}
    (one : store.Reduced files fileId first after) (two : store.Reduced after fileId second last)
    (located : files.Located (store.directory fileId) directory) :
    store.Reduced files fileId (first ++ second) last := by
  refine ⟨fun place => ?_, fun number => (two.contents number).trans (one.contents number),
    one.kept.trans two.kept, fun sound => two.sound (one.sound sound)⟩
  rcases two.nodes place with ⟨⟨other, member, found, also, eq⟩, gone⟩ | ⟨apart, same⟩
  · have before : files.Located (store.directory fileId) found := by
      rw [also.unique (located.kept one.kept)]
      exact located
    exact .inl ⟨⟨other, List.mem_append_right _ member, found, before, eq⟩, gone⟩
  · rw [same]
    rcases one.nodes place with ⟨⟨other, member, found, also, eq⟩, gone⟩ | ⟨others, still⟩
    · exact .inl ⟨⟨other, List.mem_append_left _ member, found, also, eq⟩, gone⟩
    · refine .inr ⟨fun other member found also => ?_, still⟩
      rcases List.mem_append.mp member with here | there
      · exact others other here found also
      · exact apart other there found (also.kept one.kept)

theorem removeParts_eq {lost : List UInt32} {piece : UInt32 → ByteArray} (distinct : lost.Nodup)
    (held : ∀ part ∈ lost, store.Holds files fileId part (piece part)) :
    ∃ after, store.removeParts fileId lost files = (.ok (), after) ∧
      store.Reduced files fileId lost after := by
  induction lost generalizing files with
  | nil =>
    exact ⟨files, rfl, fun _ => .inr ⟨fun _ none => absurd none List.not_mem_nil, rfl⟩,
      fun _ => rfl, .refl files, id⟩
  | cons part rest ih =>
    obtain ⟨fresh, distinct⟩ := List.nodup_cons.mp distinct
    obtain ⟨directory, number, seated, there, _⟩ := held part List.mem_cons_self
    have removed := FileSystem.remove_of_seated seated
      (Path.not_endsInSlash_child (isName_partFile part)) there
    have first := reduced_clear seated there
    obtain ⟨after, run, later⟩ := ih distinct fun other member =>
      first.holds (held other (List.mem_cons_of_mem _ member)) (by
        rw [List.mem_singleton]
        rintro rfl
        exact fresh member)
    refine ⟨after, ?_, first.trans later (located_of_part seated).1⟩
    have step : store.removeParts fileId (part :: rest) = FileSystem.remove
        (store.partPath fileId part) >>= fun _ => store.removeParts fileId rest := rfl
    rw [step, FileSystem.bind_ok removed, run]

theorem Reduced.missingParts {lost : List UInt32} {piece : UInt32 → ByteArray}
    (reduced : store.Reduced files fileId lost after) (tidy : store.Tidy files fileId)
    (some_parts : 0 < total)
    (held : ∀ part < total, store.Holds files fileId part (piece part)) :
    store.missingParts fileId total after = .ok ((partNumbers total).filter (· ∈ lost)) := by
  obtain ⟨directory, listed, _⟩ := (held 0 some_parts).listed
  refine (listed.kept reduced.kept).missingParts total fun part below => ?_
  rw [decide_eq_false_iff_not]
  constructor
  · intro left
    obtain ⟨other, also, there⟩ := (reduced.holds (held part below) left).listed
    obtain rfl := also.located.unique (listed.located.kept reduced.kept)
    exact ⟨_, there, partOfName?_partFile part⟩
  · rintro ⟨name, there, read⟩ gone
    obtain ⟨root, _, rfl⟩ := root_of_located listed.located
    -- a name that is still there and reads as this part is the name the store gave it
    rcases reduced.nodes (name :: idFile fileId :: root) with ⟨_, nothing⟩ | ⟨apart, same⟩
    · rw [nothing] at there
      contradiction
    · rw [same] at there
      obtain rfl := tidy.names name root there part read
      exact apart part gone _ listed.located rfl

/-- Nothing in the store has the place that the path leads to. -/
def Outside (store : Store) (files : FileSystem) (out : Path) : Prop :=
  ∀ root directory name, files.Located store.root root →
    files.Seated out directory name → ¬ root <:+ name :: directory

theorem outside_of_sibling {name other : FileName} (root : store.root.names = [name])
    (beside : out.names = [other]) (level : out.isAbsolute = store.root.isAbsolute)
    (ordinary : FileSystem.Ordinary name) (apart : name ≠ other) : store.Outside files out := by
  intro top directory called located seated inside
  have walked := located.walked
  rw [root] at walked
  obtain ⟨_, _, _, rfl⟩ := (FileSystem.walk_single ordinary).mp walked
  have above := seated.walked
  have named := seated.named
  rw [beside, FileSystem.start, level] at above
  rw [beside] at named
  cases above
  cases named
  exact apart (List.cons.inj (inside.eq_of_length rfl)).1

/-- The path leads to the place of this part, whether or not anything stands there. -/
def IsPart (store : Store) (files : FileSystem) (out : Path) (fileId : Int64) (part : UInt32) :
    Prop :=
  ∃ directory, files.Located (store.directory fileId) directory ∧
    files.Seated out directory (partFile part)

theorem Outside.not_isPart (outside : store.Outside files out) (fileId : Int64) (part : UInt32) :
    ¬ store.IsPart files out fileId part := by
  rintro ⟨directory, located, seated⟩
  obtain ⟨root, standing, rfl⟩ := root_of_located located
  exact outside root _ _ standing seated (List.suffix_append [partFile part, idFile fileId] root)

section Output

variable {name : FileName} {piece : UInt32 → ByteArray} {written : Nat}
  (seated : files.Seated out directory name)

include seated

theorem part?_filling (filling : files.Filling (name :: directory) number after)
    (other : ¬ store.IsPart files out fileId part) :
    store.part? after fileId part = store.part? files fileId part := by
  have apart : ∀ place, files.Located (store.directory fileId) place →
      partFile part :: place ≠ name :: directory := by
    rintro place located same
    obtain ⟨rfl, rfl⟩ := List.cons.inj same
    exact other ⟨_, located, seated⟩
  ext bytes
  rw [part?_eq_some_iff, part?_eq_some_iff]
  constructor
  · rintro ⟨place, checked, located, there⟩
    have before := located.kept filling.back
    rw [filling.bytesAt? (apart place before)] at there
    exact ⟨place, checked, before, there⟩
  · rintro ⟨place, checked, located, there⟩
    rw [← filling.bytesAt? (apart place located)] at there
    exact ⟨place, checked, located.kept filling.keepsDirectories, there⟩

omit seated in
theorem ask_read (there : store.part? files fileId part = some bytes) :
    FileSystem.ask (fun files => files.read (store.partPath fileId part)) files =
      (.ok bytes, files) := by
  rw [FileSystem.ask]
  rw [part?] at there
  cases read : files.read (store.partPath fileId part) with
  | error error =>
    rw [read] at there
    contradiction
  | ok found =>
    rw [read] at there
    cases there
    rfl

/-- Parts are copied to the end of the open file, one after the other. -/
theorem copyParts_eq {parts : List UInt32} {opened : FileSystem} {written : ByteArray}
    (others : ∀ part ∈ parts, ¬ store.IsPart files out fileId part)
    (filling : files.Filling (name :: directory) number opened)
    (content : opened.content number = written)
    (held : ∀ part ∈ parts, store.part? files fileId part = some (piece part)) :
    let whole := (parts.map piece).foldl (· ++ ·) written
    ∃ after, store.copyParts fileId (.file number) written.size parts opened =
        (.ok whole.size, after) ∧
      files.Filling (name :: directory) number after ∧ after.content number = whole := by
  induction parts generalizing opened written with
  | nil => exact ⟨opened, rfl, filling, content⟩
  | cons part rest ih =>
    have there : store.part? opened fileId part = some (piece part) := by
      rw [part?_filling seated filling (others part List.mem_cons_self),
        held part List.mem_cons_self]
    have added : FileSystem.writeAt (.file number) written.size (piece part) opened =
        (.ok (), opened.setContent number (written ++ piece part)) := by
      rw [FileSystem.writeAt, content, FileSystem.overwrite_end]
    obtain ⟨after, copied, filled, whole⟩ :=
      ih (fun other member => others other (List.mem_cons_of_mem _ member))
        (filling.setContent (written ++ piece part))
        (by rw [FileSystem.content_setContent, if_pos rfl])
        fun other member => held other (List.mem_cons_of_mem _ member)
    refine ⟨after, ?_, filled, whole⟩
    rw [copyParts, FileSystem.bind_ok (ask_read there), FileSystem.bind_ok added,
      ← ByteArray.size_append]
    exact copied

theorem part?_of_copyParts {parts : List UInt32} {opened : FileSystem} {count : Nat}
    (others : ∀ part ∈ parts, ¬ store.IsPart files out fileId part)
    (filling : files.Filling (name :: directory) number opened)
    (copied : store.copyParts fileId (.file number) written parts opened = (.ok count, after)) :
    ∀ part ∈ parts, ∃ bytes, store.part? files fileId part = some bytes := by
  induction parts generalizing opened written with
  | nil => exact fun _ none => absurd none List.not_mem_nil
  | cons part rest ih =>
    rw [copyParts] at copied
    obtain ⟨bytes, _, asked, copied⟩ := FileSystem.of_bind_ok copied
    have read : opened.read (store.partPath fileId part) = .ok bytes := (Prod.mk.inj asked).1
    obtain rfl := (Prod.mk.inj asked).2
    obtain ⟨_, _, added, copied⟩ := FileSystem.of_bind_ok copied
    cases added
    intro other member
    rcases List.mem_cons.mp member with rfl | later
    · refine ⟨bytes, ?_⟩
      rw [← part?_filling seated filling (others other List.mem_cons_self), part?, read]
      rfl
    · exact ih (fun other member => others other (List.mem_cons_of_mem _ member))
        (filling.setContent _) copied other later

end Output

/-- Copying keeps what every write to the open file keeps, wherever it ends. -/
theorem copyParts_keeps {Keeps : FileSystem → Prop} {handle : Handle} {parts : List UInt32}
    {result : Except IoError Nat}
    (writes : ∀ offset bytes before, Keeps before →
      Keeps (FileSystem.writeAt handle offset bytes before).2) (start : Keeps files)
    (copied : store.copyParts fileId handle written parts files = (result, after)) :
    Keeps after := by
  induction parts generalizing files written with
  | nil =>
    cases copied
    exact start
  | cons part rest ih =>
    rw [copyParts] at copied
    rcases FileSystem.bind_cases copied with ⟨bytes, _, asked, copied⟩ | ⟨_, asked, _⟩
    · obtain rfl := (Prod.mk.inj asked).2
      have kept := writes written bytes _ start
      rcases FileSystem.bind_cases copied with ⟨_, _, added, copied⟩ | ⟨_, added, _⟩
      · rw [added] at kept
        exact ih kept copied
      · rwa [added] at kept
    · rwa [(Prod.mk.inj asked).2] at start

/-- Whatever comes of it, nothing but the file at the end of the path is written. -/
theorem copyAll_cases {result : Except IoError Nat} (sound : files.Sound)
    (run : store.copyAll fileId total out files = (result, after)) :
    after = files ∨ ∃ directory name number, files.Seated out directory name ∧
      files.Filling (name :: directory) number after := by
  rw [copyAll] at run
  rcases FileSystem.bind_cases run with ⟨handle, opened, made, run⟩ | ⟨_, failed, _⟩
  · have same : ∃ copied, store.copyParts fileId handle 0 (partNumbers total) opened =
        (copied, after) := by
      rcases FileSystem.bind_cases run with ⟨_, _, copied, run⟩ | ⟨_, copied, _⟩
      · rcases FileSystem.bind_cases run with ⟨_, _, flushed, run⟩ | ⟨_, flushed, _⟩
        · cases run
          exact ⟨_, FileSystem.flush_same flushed ▸ copied⟩
        · exact ⟨_, FileSystem.flush_same flushed ▸ copied⟩
      · exact ⟨_, copied⟩
    obtain ⟨_, copied⟩ := same
    obtain ⟨directory, name, seated, _, outcome⟩ := FileSystem.create_ok made
    rcases outcome with ⟨rfl, rfl⟩ | ⟨number, rfl, created⟩
    · have nothing : ∀ offset bytes before, before = opened →
          (FileSystem.writeAt .sink offset bytes before).2 = opened := fun _ _ _ same => same
      have same := copyParts_keeps nothing rfl copied
      exact .inl same
    · have filled : ∀ offset bytes before, files.Filling (name :: directory) number before →
          files.Filling (name :: directory) number
            (FileSystem.writeAt (.file number) offset bytes before).2 :=
        fun _ _ _ filling => filling.setContent _
      exact .inr ⟨directory, name, number, seated,
        copyParts_keeps filled (created.filling sound) copied⟩
  · exact .inl (FileSystem.create_error failed)

/-- No part is changed when parts are put together, but for one whose place the path leads to. -/
theorem part?_assemble {other : Int64} (sound : files.Sound)
    (apart : ¬ store.IsPart files out other part) :
    store.part? (store.assemble fileId total out files).2 other part =
      store.part? files other part := by
  unfold assemble
  split
  · rfl
  · have kept : ∀ result after, store.copyAll fileId total out files = (result, after) →
        store.part? after other part = store.part? files other part := by
      intro result after run
      rcases copyAll_cases sound run with rfl | ⟨directory, name, _, seated, filling⟩
      · rfl
      · exact part?_filling seated filling apart
    split
    · rename_i run
      exact kept _ _ run
    · rename_i run
      exact kept _ _ run
  · rfl

/-- An empty file has been opened for what is put together. -/
structure Opened (files : FileSystem) (out : Path) (directory : Location) (name : FileName)
    (number : Nat) (opened : FileSystem) : Prop where
  made : FileSystem.create out files = (.ok (.file number), opened)
  seated : files.Seated out directory name
  open_end : out.endsInSlash = false
  filling : files.Filling (name :: directory) number opened
  empty : opened.content number = ByteArray.empty

theorem opened_of_create (sound : files.Sound) {opened : FileSystem}
    (made : FileSystem.create out files = (.ok (.file number), opened)) :
    ∃ directory name, Opened files out directory name number opened := by
  obtain ⟨directory, name, seated, open_end, cases⟩ := FileSystem.create_ok made
  obtain ⟨_, same, created⟩ := cases.resolve_left fun sink => nomatch sink.1
  cases same
  exact ⟨directory, name, made, seated, open_end, created.filling sound,
    by rw [created.content, if_pos rfl]⟩

theorem opened_of_writable (sound : files.Sound)
    (writable : (FileSystem.create out files).1 = .ok (.file number)) :
    ∃ directory name opened, Opened files out directory name number opened := by
  rcases made : FileSystem.create out files with ⟨outcome, opened⟩
  rw [made] at writable
  obtain rfl : outcome = .ok (.file number) := writable
  obtain ⟨directory, name, here⟩ := opened_of_create sound made
  exact ⟨directory, name, opened, here⟩

namespace Opened

variable {name : FileName} {opened : FileSystem} (here : Opened files out directory name number opened)

include here

theorem read (filled : files.Filling (name :: directory) number after) :
    after.read out = .ok (after.content number) := by
  have there : after.node? (name :: directory) = some (.file number) := by
    rw [filled.nodes, if_pos rfl]
  exact (here.seated.kept filled.keepsDirectories).read here.open_end there

theorem assemble {result : Except IoError Nat}
    (none_missing : store.missingParts fileId total files = .ok [])
    (copied : store.copyParts fileId (.file number) 0 (partNumbers total) opened =
      (result, after)) :
    store.assemble fileId total out files = (result.mapError .io, after) := by
  have all_copied : store.copyAll fileId total out files = (result, after) := by
    rw [copyAll, FileSystem.bind_ok here.made]
    cases result with
    | ok count =>
      have flushed : FileSystem.flush (.file number) after = (.ok (), after) := rfl
      rw [FileSystem.bind_ok copied, FileSystem.bind_ok flushed]
      rfl
    | error error => rw [FileSystem.bind_error copied]
  rw [Store.assemble, none_missing]
  dsimp only
  rw [all_copied]
  cases result <;> rfl

end Opened

theorem assemble_of_parts {piece : UInt32 → ByteArray} (sound : files.Sound)
    (none_missing : store.missingParts fileId total files = .ok [])
    (held : ∀ part < total, store.part? files fileId part = some (piece part))
    (others : ∀ part < total, ¬ store.IsPart files out fileId part)
    (writable : (FileSystem.create out files).1 = .ok (.file number)) :
    let whole := ((partNumbers total).map piece).foldl (· ++ ·) ByteArray.empty
    ∃ after, store.assemble fileId total out files = (.ok whole.size, after) ∧
      after.read out = .ok whole := by
  intro whole
  obtain ⟨directory, name, opened, here⟩ := opened_of_writable sound writable
  obtain ⟨after, copied, filled, content⟩ := copyParts_eq here.seated
    (fun part member => others part (mem_partNumbers.mp member)) here.filling here.empty
    fun part member => held part (mem_partNumbers.mp member)
  rw [ByteArray.size_empty] at copied
  refine ⟨after, here.assemble none_missing copied, ?_⟩
  rw [here.read filled, content]

/-- Once all parts are stored, a file that can be written holds them in their order. -/
theorem assemble_eq {piece : UInt32 → ByteArray} (sound : files.Sound) (some_parts : 0 < total)
    (held : ∀ part < total, store.Holds files fileId part (piece part))
    (outside : store.Outside files out)
    (writable : (FileSystem.create out files).1 = .ok (.file number)) :
    let whole := ((partNumbers total).map piece).foldl (· ++ ·) ByteArray.empty
    ∃ after, store.assemble fileId total out files = (.ok whole.size, after) ∧
      after.read out = .ok whole := by
  exact assemble_of_parts sound (missingParts_eq_nil some_parts held)
    (fun part below => (held part below).part?) (fun part _ => outside.not_isPart fileId part)
    writable

theorem opened_of_assemble (sound : files.Sound) {written : Nat}
    (assembled : store.assemble fileId total out files = (.ok written, after)) :
    store.missingParts fileId total files = .ok [] ∧
    ∃ directory name number opened, Opened files out directory name number opened ∧
      store.copyParts fileId (.file number) 0 (partNumbers total) opened = (.ok written, after) := by
  unfold assemble at assembled
  split at assembled
  · cases assembled
  · rename_i none_missing
    refine ⟨none_missing, ?_⟩
    rcases copied : store.copyAll fileId total out files with ⟨outcome, last⟩
    rw [copied] at assembled
    cases outcome with
    | error => cases assembled
    | ok count =>
      cases assembled
      rw [copyAll] at copied
      obtain ⟨handle, opened, made, copied⟩ := FileSystem.of_bind_ok copied
      obtain ⟨_, filled, copied, rest⟩ := FileSystem.of_bind_ok copied
      obtain ⟨_, _, flushed, told⟩ := FileSystem.of_bind_ok rest
      obtain ⟨number, rfl, rfl⟩ := FileSystem.flush_ok flushed
      cases told
      obtain ⟨directory, name, here⟩ := opened_of_create sound made
      exact ⟨directory, name, number, opened, here, copied⟩
  · cases assembled

/-- Whatever is put together was stored, and nothing else. -/
theorem parts_of_assemble (sound : files.Sound)
    (others : ∀ part < total, ¬ store.IsPart files out fileId part) {written : Nat}
    (assembled : store.assemble fileId total out files = (.ok written, after)) :
    ∃ piece : UInt32 → ByteArray,
      (∀ part < total, store.part? files fileId part = some (piece part)) ∧
      let whole := ((partNumbers total).map piece).foldl (· ++ ·) ByteArray.empty
      written = whole.size ∧ after.read out = .ok whole := by
  obtain ⟨none_missing, _, _, number, opened, here, copied⟩ := opened_of_assemble sound assembled
  have there := part?_of_copyParts here.seated
    (fun part member => others part (mem_partNumbers.mp member)) here.filling copied
  let piece := fun part => (store.part? files fileId part).getD ByteArray.empty
  have held : ∀ part < total, store.part? files fileId part = some (piece part) := by
    intro part below
    obtain ⟨bytes, found⟩ := there part (mem_partNumbers.mpr below)
    simp [piece, found]
  obtain ⟨final, again, read⟩ := assemble_of_parts sound none_missing held others
    (by rw [here.made])
  rw [assembled] at again
  cases again
  exact ⟨piece, held, rfl, read⟩

end ChunkedUpload.Store
