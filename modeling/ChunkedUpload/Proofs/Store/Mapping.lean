import ChunkedUpload.Proofs.Store.Writers
import Mathlib.Data.List.Nodup

/-! A store as a map from the numbers of files and parts to bytes. Directories and names stand for
its keys, and what was put last under a key is what all the operations of the store go by. -/
namespace ChunkedUpload.Store

variable {store : Store} {root : Location} {files after : FileSystem} {fileId : Int64}
  {part total : UInt32} {payload : ByteArray} {parts : Int64 × UInt32 → Option ByteArray}

section Lists

variable {numbers : List UInt32} {names : List FileName}

theorem mem_of_stored (stored : store.storedParts fileId files = .ok numbers) :
    part ∈ numbers ↔ store.Lists files fileId part := by
  constructor
  · exact fun member => ⟨numbers, stored, member⟩
  · rintro ⟨others, also, member⟩
    cases stored.symm.trans also
    exact member

theorem mem_of_missing (missing : store.missingParts fileId total files = .ok numbers) :
    part ∈ numbers ↔ part < total ∧ ¬ store.Lists files fileId part := by
  rw [missingParts] at missing
  cases stored : store.storedParts fileId files with
  | error error =>
    rw [stored] at missing
    contradiction
  | ok found =>
    rw [stored] at missing
    cases missing
    rw [List.mem_filter, mem_partNumbers, ← mem_of_stored stored]
    simp

/-- Nothing is written as long as a part is on no list. -/
theorem refused_of_unlisted {out : Path} (below : part < total)
    (unlisted : ¬ store.Lists files fileId part) :
    ∃ error, store.assemble fileId total out files = (.error error, files) := by
  cases found : store.missingParts fileId total files with
  | error error => exact ⟨.io error, by rw [assemble, found]⟩
  | ok numbers =>
    have missing : part ∈ numbers := (mem_of_missing found).mpr ⟨below, unlisted⟩
    cases numbers with
    | nil => contradiction
    | cons first rest => exact ⟨.missing fileId (first :: rest), by rw [assemble, found]⟩

theorem partNumbers_increasing (total : UInt32) : (partNumbers total).Pairwise (· < ·) := by
  rw [partNumbers, List.pairwise_map]
  refine List.pairwise_lt_range.imp_of_mem fun {i j} _ inside below => ?_
  have small := Nat.lt_trans (List.mem_range.mp inside) total.toNat_lt
  rw [UInt32.lt_iff_toNat_lt, UInt32.toNat_ofNat_of_lt' (Nat.lt_trans below small),
    UInt32.toNat_ofNat_of_lt' small]
  exact below

theorem mergeSort_sorted (numbers : List UInt32) :
    (numbers.mergeSort fun a b => decide (a ≤ b)).Pairwise (· ≤ ·) := by
  have sorted : (numbers.mergeSort fun a b => decide (a ≤ b)).Pairwise
      fun a b => decide (a ≤ b) = true :=
    List.pairwise_mergeSort (fun a b c => by simpa using UInt32.le_trans)
      (fun a b => by simpa using UInt32.le_total a b) _
  exact sorted.imp of_decide_eq_true

/-- Names that the store has written are read as different numbers. -/
theorem sorted_increasing (distinct : names.Nodup) (plain : ∀ name ∈ names, Plain name) :
    ((names.filterMap partOfName?).mergeSort fun a b => decide (a ≤ b)).Pairwise (· < ·) := by
  have different : (names.filterMap partOfName?).Nodup := by
    rw [List.Nodup, List.pairwise_filterMap]
    refine distinct.imp_of_mem ?_
    rintro name other member also apart part read _ again rfl
    exact apart ((plain name member part read).trans (plain other also part again).symm)
  have still := (List.mergeSort_perm (names.filterMap partOfName?)
    fun a b => decide (a ≤ b)).nodup_iff.mpr different
  refine ((mergeSort_sorted _).and still).imp ?_
  rintro a b ⟨le, ne⟩
  exact UInt32.lt_of_le_of_ne le ne

end Lists

/-- One part is put after the other. -/
def putAll (store : Store) (puts : List ((Int64 × UInt32) × ByteArray)) : FileSystem.Action Unit :=
  puts.forM fun put => store.putPart put.1.1 put.1.2 put.2

/-- The bytes that were put last under a key. -/
def lastPut (puts : List ((Int64 × UInt32) × ByteArray)) (key : Int64 × UInt32) :
    Option ByteArray := puts.reverse.lookup key

theorem lastPut_concat (puts : List ((Int64 × UInt32) × ByteArray))
    (put : (Int64 × UInt32) × ByteArray) (key : Int64 × UInt32) :
    lastPut (puts ++ [put]) key = if key = put.1 then some put.2 else lastPut puts key := by
  rw [lastPut, List.reverse_concat, List.lookup_cons, lastPut]
  by_cases same : key = put.1
  · simp [same]
  · rw [beq_false_of_ne same, if_neg same]

/-- What a store shows and does when it stands for a map. Some paths no look-up takes, since they
are too long; those to the parts in the map are not among them. -/
structure Maps (store : Store) (files : FileSystem) (parts : Int64 × UInt32 → Option ByteArray) :
    Prop where
  part : ∀ fileId part, store.part? files fileId part = parts (fileId, part)
  taken : ∀ fileId part, (parts (fileId, part)).isSome = true →
    FileSystem.checkPath (store.directory fileId) = .ok ()
  stored : ∀ fileId, FileSystem.checkPath (store.directory fileId) = .ok () →
    ∃ numbers, store.storedParts fileId files = .ok numbers ∧ numbers.Pairwise (· < ·) ∧
      ∀ part, part ∈ numbers ↔ (parts (fileId, part)).isSome = true
  missing : ∀ fileId total, FileSystem.checkPath (store.directory fileId) = .ok () →
    ∃ numbers, store.missingParts fileId total files = .ok numbers ∧ numbers.Pairwise (· < ·) ∧
      ∀ part, part ∈ numbers ↔ part < total ∧ parts (fileId, part) = none
  put : ∀ fileId part payload after, store.putPart fileId part payload files = (.ok (), after) →
    ∀ other number, store.part? after other number =
      if (other, number) = (fileId, part) then some payload else store.part? files other number
  assembled : ∀ fileId total out number,
    FileSystem.checkPath (store.directory fileId) = .ok () → store.Outside files out →
    (FileSystem.create out files).1 = .ok (.file number) →
    (∀ part < total, (parts (fileId, part)).isSome = true) →
    let piece := fun part => (parts (fileId, part)).getD ByteArray.empty
    let whole := ((partNumbers total).map piece).foldl (· ++ ·) ByteArray.empty
    ∃ after, store.assemble fileId total out files = (.ok whole.size, after) ∧
      after.read out = .ok whole
  refused : ∀ fileId total out, (∃ part < total, parts (fileId, part) = none) →
    ∃ error, store.assemble fileId total out files = (.error error, files)
  unchanged : ∀ fileId total out, store.Outside files out → ∀ other part,
    store.part? (store.assemble fileId total out files).2 other part =
      store.part? files other part

/-- The root of the store is an empty directory, or is missing and leads to where nothing is. -/
structure EmptyRoot (store : Store) (files : FileSystem) (root : Location) : Prop where
  sound : files.Sound
  reached : files.Located store.root root ∨
    files.Absent store.root ∧ files.Leads store.root root
  bare : ∀ name, files.node? (name :: root) = none

theorem EmptyRoot.leads (empty : EmptyRoot store files root) : files.Leads store.root root := by
  rcases empty.reached with located | ⟨_, leads⟩
  · exact located.leads
  · exact leads

theorem emptyRoot_empty (down : [Path.dot, Path.dot] ∉ store.root.turns)
    (absent : FileSystem.empty.walk (FileSystem.empty.start store.root) store.root.names =
      .error (.system SystemError.noSuchFile)) :
    EmptyRoot store FileSystem.empty store.root.turns.reverse :=
  ⟨FileSystem.sound_empty, .inr ⟨absent, FileSystem.leads_empty down⟩,
    fun _ => FileSystem.node?_empty _ _⟩

/-- The directories and names in the root of a store stand for these parts, and for nothing else. -/
structure Holding (store : Store) (root : Location) (files : FileSystem)
    (parts : Int64 × UInt32 → Option ByteArray) : Prop where
  sound : files.Sound
  leads : files.Leads store.root root
  reached : files.Located store.root root ∨ files.Absent store.root
  flat : ∀ fileId, files.node? (idFile fileId :: root) = none ∨
    files.node? (idFile fileId :: root) = some .directory
  plain : ∀ fileId name, (files.node? (name :: idFile fileId :: root)).isSome = true → Plain name
  distinct : ∀ fileId, (files.namesAt (idFile fileId :: root)).Nodup
  part : ∀ fileId part, store.part? files fileId part = parts (fileId, part)
  lists : ∀ fileId part, store.Lists files fileId part ↔ (parts (fileId, part)).isSome = true

theorem EmptyRoot.holding (empty : EmptyRoot store files root) :
    Holding store root files fun _ => none := by
  have nothing : ∀ fileId name, files.node? (name :: idFile fileId :: root) = none := by
    intro fileId name
    rw [← Option.not_isSome_iff_eq_none]
    intro there
    have stands := empty.sound.parents _ _ there
    rw [empty.bare] at stands
    contradiction
  have unlocated : ∀ fileId directory, ¬ files.Located (store.directory fileId) directory := by
    intro fileId directory located
    have stands := located.directory
    rw [(leads_directory empty.leads fileId).eq_of_located located, empty.bare] at stands
    contradiction
  refine ⟨empty.sound, empty.leads, empty.reached.imp_right And.left,
    fun _ => .inl (empty.bare _),
    fun fileId name there => ?_, fun fileId => ?_, fun fileId part => ?_, fun fileId part => ?_⟩
  · rw [nothing] at there
    contradiction
  · have none_there : files.namesAt (idFile fileId :: root) = [] := by
      refine List.eq_nil_iff_forall_not_mem.mpr fun name member => ?_
      rw [FileSystem.mem_namesAt, nothing] at member
      contradiction
    rw [none_there]
    exact List.nodup_nil
  · refine Option.eq_none_iff_forall_not_mem.mpr fun bytes there => ?_
    obtain ⟨directory, _, located, _⟩ := part?_eq_some_iff.mp there
    exact unlocated fileId directory located
  · refine iff_of_false (fun listed => ?_) (by simp)
    obtain ⟨directory, _, located, _⟩ := lists_iff.mp listed
    exact unlocated fileId directory located

section Put

variable {other : Int64} {number : UInt32} {bytes : ByteArray} {name : FileName}

theorem mem_done :
    (⟨other, number, bytes, .done⟩ : PartWriting) ∈ [⟨fileId, part, payload, .done⟩] ↔
      (other, number) = (fileId, part) ∧ bytes = payload := by
  simp [and_assoc]

variable (kept : Writers.Kept store root ⟨files, [⟨fileId, part, payload, .begun⟩]⟩
  ⟨after, [⟨fileId, part, payload, .done⟩]⟩)

include kept

theorem located_of_kept : after.Located (store.directory fileId) (idFile fileId :: root) := by
  have listed : store.Lists after fileId part :=
    (kept.lists fileId part).mpr (.inr ⟨payload, mem_done.mpr ⟨rfl, rfl⟩⟩)
  obtain ⟨directory, _, located, _⟩ := lists_iff.mp listed
  rwa [(leads_directory kept.leads fileId).eq_of_located located] at located

theorem directory_of_kept (apart : other ≠ fileId) :
    after.node? (idFile other :: root) = files.node? (idFile other :: root) := by
  refine kept.nodes _ fun writing member => ?_
  obtain rfl := List.mem_singleton.mp member
  refine ⟨by simp, by simp, fun inside => ?_⟩
  have names := inside.eq_of_length (by simp)
  exact apart (idFile_inj (List.cons.inj names).1)

theorem name_of_kept (there : (after.node? (name :: idFile other :: root)).isSome = true) :
    (files.node? (name :: idFile other :: root)).isSome = true ∨
      name = temporaryFile part ∨ name = partFile part := by
  by_cases own : name = temporaryFile part ∨ name = partFile part
  · exact .inr own
  · rw [not_or] at own
    rw [kept.nodes] at there
    · exact .inl there
    · intro writing member
      obtain rfl := List.mem_singleton.mp member
      refine ⟨by simp [own.1], by simp [own.2], fun inside => ?_⟩
      have length := inside.length_le
      simp at length

end Put

namespace Holding

variable (holding : Holding store root files parts)

include holding

theorem storedParts (taken : FileSystem.checkPath (store.directory fileId) = .ok ()) :
    ∃ numbers, store.storedParts fileId files = .ok numbers ∧ numbers.Pairwise (· < ·) := by
  have absent : files.Absent (store.directory fileId) →
      ∃ numbers, store.storedParts fileId files = .ok numbers ∧ numbers.Pairwise (· < ·) := by
    intro absent
    refine ⟨[], ?_, List.Pairwise.nil⟩
    rw [Store.storedParts, absent.list taken]
    rfl
  rcases holding.reached with located | missing
  · rcases holding.flat fileId with free | stands
    · exact absent (located.absent_child (isName_idFile fileId) (ordinary_idFile fileId)
        (short_idFile fileId) free)
    · have below := located.child (isName_idFile fileId) (ordinary_idFile fileId)
        (short_idFile fileId) stands
      have listed : files.list (store.directory fileId) = _ := below.list taken
      refine ⟨_, by rw [Store.storedParts, listed], ?_⟩
      refine sorted_increasing (holding.distinct fileId) fun name member => ?_
      exact holding.plain fileId name ((files.mem_namesAt _ _).mp member)
  · exact absent (missing.child (isName_idFile fileId))

theorem missingParts (taken : FileSystem.checkPath (store.directory fileId) = .ok ())
    (total : UInt32) :
    ∃ numbers, store.missingParts fileId total files = .ok numbers ∧ numbers.Pairwise (· < ·) := by
  obtain ⟨found, stored, _⟩ := holding.storedParts taken
  refine ⟨(partNumbers total).filter fun part => !found.contains part, ?_,
    (partNumbers_increasing total).filter _⟩
  rw [Store.missingParts, stored]
  rfl

theorem checked (here : (parts (fileId, part)).isSome = true) :
    FileSystem.checkPath (store.directory fileId) = .ok () := by
  obtain ⟨directory, checked, _⟩ := lists_iff.mp ((holding.lists fileId part).mpr here)
  exact checked

theorem step (put : store.putPart fileId part payload files = (.ok (), after)) :
    Holding store root after fun key =>
      if key = (fileId, part) then some payload else parts key := by
  have kept := Writers.kept_of_putPart holding.sound holding.leads put
  have below := located_of_kept kept
  refine ⟨kept.sound, kept.leads, .inl ?_, fun other => ?_, fun other name there => ?_,
    fun other => kept.distinct _ (holding.distinct other), fun other number => ?_,
    fun other number => ?_⟩
  · obtain ⟨top, located, eq⟩ := root_of_located below
    rwa [(List.cons.inj eq).2]
  · by_cases mine : other = fileId
    · exact .inr (mine ▸ below.directory)
    · rw [directory_of_kept kept mine]
      exact holding.flat other
  · rcases name_of_kept kept there with before | rfl | rfl
    · exact holding.plain other name before
    · exact plain_temporaryFile part
    · exact plain_partFile part
  · rcases kept.complete other number with ⟨bytes, member, there⟩ | ⟨none, before⟩
    · obtain ⟨key, rfl⟩ := mem_done.mp member
      rw [if_pos key, there]
    · rw [if_neg fun key => none payload (mem_done.mpr ⟨key, rfl⟩), before, holding.part]
  · rw [kept.lists other number, holding.lists]
    split
    · rename_i key
      exact iff_of_true (.inr ⟨payload, mem_done.mpr ⟨key, rfl⟩⟩) rfl
    · rename_i key
      refine or_iff_left ?_
      rintro ⟨bytes, member⟩
      exact key (mem_done.mp member).1

theorem not_lists : ¬ store.Lists files fileId part ↔ parts (fileId, part) = none := by
  rw [holding.lists, Option.not_isSome_iff_eq_none]

theorem assembled {out : Path} {number : Nat}
    (taken : FileSystem.checkPath (store.directory fileId) = .ok ())
    (outside : store.Outside files out)
    (writable : (FileSystem.create out files).1 = .ok (.file number))
    (here : ∀ part < total, (parts (fileId, part)).isSome = true) :
    let piece := fun part => (parts (fileId, part)).getD ByteArray.empty
    let whole := ((partNumbers total).map piece).foldl (· ++ ·) ByteArray.empty
    ∃ after, store.assemble fileId total out files = (.ok whole.size, after) ∧
      after.read out = .ok whole := by
  intro piece
  have held : ∀ part < total, store.part? files fileId part = some (piece part) := by
    intro part below
    obtain ⟨bytes, there⟩ := Option.isSome_iff_exists.mp (here part below)
    simp [holding.part, piece, there]
  obtain ⟨numbers, missing, _⟩ := holding.missingParts taken total
  have none_missing : numbers = [] := by
    refine List.eq_nil_iff_forall_not_mem.mpr fun part member => ?_
    obtain ⟨below, unlisted⟩ := (mem_of_missing missing).mp member
    exact unlisted ((holding.lists fileId part).mpr (here part below))
  exact assemble_of_parts holding.sound (none_missing ▸ missing) held
    (fun part _ => outside.not_isPart fileId part) writable

theorem refused {out : Path} (below : part < total) (none_there : parts (fileId, part) = none) :
    ∃ error, store.assemble fileId total out files = (.error error, files) :=
  refused_of_unlisted below (holding.not_lists.mpr none_there)

theorem maps : store.Maps files parts where
  part := holding.part
  taken := fun _ _ => holding.checked
  stored := by
    intro fileId taken
    obtain ⟨numbers, stored, increasing⟩ := holding.storedParts taken
    exact ⟨numbers, stored, increasing, fun part =>
      (mem_of_stored stored).trans (holding.lists fileId part)⟩
  missing := by
    intro fileId total taken
    obtain ⟨numbers, missing, increasing⟩ := holding.missingParts taken total
    exact ⟨numbers, missing, increasing, fun part =>
      (mem_of_missing missing).trans (and_congr_right' holding.not_lists)⟩
  put := by
    intro fileId part payload after put other number
    rw [(holding.step put).part, holding.part]
  assembled := fun _ _ _ _ => holding.assembled
  refused := fun _ _ _ ⟨_, below, none_there⟩ => holding.refused below none_there
  unchanged := fun _ _ _ outside _ _ => part?_assemble holding.sound (outside.not_isPart _ _)

end Holding

theorem Holding.run {earlier later : List ((Int64 × UInt32) × ByteArray)}
    (holding : Holding store root files (lastPut earlier))
    (run : store.putAll later files = (.ok (), after)) :
    Holding store root after (lastPut (earlier ++ later)) := by
  induction later generalizing earlier files with
  | nil =>
    cases run
    rwa [List.append_nil]
  | cons put rest ih =>
    obtain ⟨_, mid, first, run⟩ := FileSystem.of_bind_ok run
    have next : Holding store root mid (lastPut (earlier ++ [put])) := by
      rw [funext (lastPut_concat earlier put)]
      exact holding.step first
    rw [List.append_cons]
    exact ih next run

theorem sound_of_puts {puts : List ((Int64 × UInt32) × ByteArray)}
    (empty : EmptyRoot store files root) (run : store.putAll puts files = (.ok (), after)) :
    after.Sound := by
  have start : Holding store root files (lastPut []) := empty.holding
  exact (start.run run).sound

/-- Whatever is put into an empty store, in any order and as often as one likes, the store is a map
from keys to the bytes that were put last. -/
theorem maps_of_puts {puts : List ((Int64 × UInt32) × ByteArray)}
    (empty : EmptyRoot store files root) (run : store.putAll puts files = (.ok (), after)) :
    store.Maps after (lastPut puts) := by
  have start : Holding store root files (lastPut []) := empty.holding
  exact (start.run run).maps

/-- Parts of two files, one of them put twice and all of them out of order. -/
theorem maps_of_puts_five :
    let store : Store := ⟨Path.ofString "/parts"⟩
    let puts : List ((Int64 × UInt32) × ByteArray) := [((-3, 10), ⟨#[1]⟩), ((-3, 9), ⟨#[2]⟩),
      ((5, 1), ⟨#[6]⟩), ((-3, 10), ⟨#[7, 8]⟩), ((5, 0), ⟨#[4, 5]⟩)]
    let out := Path.ofString "/out"
    ∃ after, store.putAll puts FileSystem.empty = (.ok (), after) ∧
      store.Maps after (lastPut puts) ∧ store.part? after (-3) 10 = some ⟨#[7, 8]⟩ ∧
      store.part? after (-3) 0 = none ∧
      ∃ last, store.assemble 5 2 out after = (.ok 3, last) ∧ last.read out = .ok ⟨#[4, 5, 6]⟩ := by
  intro store puts out
  have outcome : (store.putAll puts FileSystem.empty).1 = .ok () := by decide +kernel
  have run : store.putAll puts FileSystem.empty =
      (.ok (), (store.putAll puts FileSystem.empty).2) := Prod.ext outcome rfl
  have down : [Path.dot, Path.dot] ∉ store.root.turns := by decide +kernel
  have absent : FileSystem.empty.walk (FileSystem.empty.start store.root) store.root.names =
      .error (.system SystemError.noSuchFile) := by decide +kernel
  have empty : EmptyRoot store FileSystem.empty store.root.turns.reverse :=
    ⟨FileSystem.sound_empty, .inr ⟨absent, FileSystem.leads_empty down⟩,
      fun _ => FileSystem.node?_empty _ _⟩
  have maps := maps_of_puts empty run
  have named : store.root.names = [(Path.ofString "parts").bytes] := by decide +kernel
  have beside : out.names = [(Path.ofString "out").bytes] := by decide +kernel
  have outside : store.Outside (store.putAll puts FileSystem.empty).2 out :=
    outside_of_sibling named beside (by decide +kernel) ⟨by decide +kernel, by decide +kernel⟩
      (by decide +kernel)
  have both : ((partNumbers 2).all fun part => (lastPut puts (5, part)).isSome) = true := by
    decide +kernel
  exact ⟨_, run, maps, by decide +kernel, by decide +kernel,
    maps.assembled 5 2 out 5 (by decide +kernel) outside (by decide +kernel) fun part below =>
      List.all_eq_true.mp both part (mem_partNumbers.mpr below)⟩

end ChunkedUpload.Store
