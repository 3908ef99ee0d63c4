import ChunkedUpload.Proofs.Store.Assembly

/-! Parts that are written into one store at the same time, step by step in any order. As long as no
temporary file is opened that another writing still needs, each part is what it was at first, or
what the last writing to be done has put there. -/
namespace ChunkedUpload

namespace PartWriting

def place (writing : PartWriting) : Int64 × UInt32 := (writing.fileId, writing.part)

/-- The temporary file is in use. -/
def isOpen (writing : PartWriting) : Bool :=
  match writing.stage with
  | .writing _ _ | .flushed => true
  | _ => false

/-- The writing as it began. -/
def call (writing : PartWriting) : PartWriting := { writing with stage := .begun }

variable {store : Store} {files after : FileSystem} {writing other : PartWriting}
  {stage : WriteStage} {move : WriteMove} {root : Location} {fileId : Int64} {part : UInt32}
  {name : FileName}

theorem isOver_of_step? {next : PartWriting × FileSystem}
    (stepped : step? store files writing move = some next) : writing.isOver = false := by
  unfold step? at stepped
  split at stepped
  · split at stepped
    · contradiction
    · rename_i going
      simpa using going
  all_goals first
    | contradiction
    | rename_i stage
      simp [isOver, stage]

theorem stands_of_shut (shut : other.isOpen = false) : other.Stands store files := by
  unfold Stands
  split
  · rename_i stage
    simp [PartWriting.isOpen, stage] at shut
  · rename_i stage
    simp [PartWriting.isOpen, stage] at shut
  · exact trivial

namespace Step

theorem isOpen (step : Step store files writing stage after)
    (now : ({ writing with stage := stage } : PartWriting).isOpen = true) :
    writing.isOpen = true ∨ writing.stage = .placed := by
  cases step with
  | missed | placed | renamed => contradiction
  | opened stage | sunk stage => exact .inr stage
  | wrote stage | swallowed stage | flushed stage =>
    exact .inl (by simp [PartWriting.isOpen, stage])

theorem stands_shut (step : Step store files writing stage after) (shut : writing.isOpen = false)
    (before : writing.stage ≠ .placed) (stands : other.Stands store files) :
    other.Stands store after := by
  have kept := step.keepsDirectories
  cases step with
  | missed grown _ | placed _ grown _ =>
    unfold Stands at stands ⊢
    split
    · rename_i here
      rw [here] at stands
      obtain ⟨within, content, directory, seated, there⟩ := stands
      exact ⟨within, (grown.content _).trans content, directory, seated.kept kept,
        grown.node? there⟩
    · rename_i here
      rw [here] at stands
      obtain ⟨number, content, directory, seated, there⟩ := stands
      exact ⟨number, (grown.content _).trans content, directory, seated.kept kept,
        grown.node? there⟩
    · exact trivial
  | opened stage | sunk stage => exact absurd stage before
  | wrote stage | swallowed stage | flushed stage | renamed stage =>
    simp [PartWriting.isOpen, stage] at shut

section Leads

variable (step : Step store files writing stage after) (sound : files.Sound)
  (stands : writing.Stands store files) (leads : files.Leads store.root root)

include step sound stands leads

/-- Nothing else changes than the file under its temporary name, the part that takes its place, and
the way to both. -/
theorem others {place : Location}
    (apart : place ≠ Store.temporaryFile writing.part :: Store.idFile writing.fileId :: root)
    (off : ¬ place <:+ Store.idFile writing.fileId :: root) :
    (stage = .done ∧ place = Store.partFile writing.part :: Store.idFile writing.fileId :: root) ∨
    after.node? place = files.node? place ∧ ∀ number, files.node? place = some (.file number) →
      after.content number = files.content number := by
  cases step with
  | missed grown made | placed _ grown made =>
    have same := (made _ (Store.leads_directory leads _) place).resolve_right off
    exact .inr ⟨same, fun number _ => grown.content number⟩
  | opened _ seated created =>
    obtain ⟨located, rfl⟩ := Store.located_of_temporary seated
    obtain rfl := (Store.leads_directory leads _).eq_of_located located
    refine .inr ⟨by rw [created.node?, if_neg apart], fun number there => ?_⟩
    rw [created.content, if_neg (created.other sound there apart)]
  | sunk | swallowed | flushed => exact .inr ⟨rfl, fun _ _ => rfl⟩
  | @wrote mine _ _ writing_stage =>
    rw [Stands, writing_stage] at stands
    obtain ⟨_, _, directory, seated, here⟩ := stands
    obtain ⟨located, _⟩ := Store.located_of_temporary seated
    obtain rfl := (Store.leads_directory leads _).eq_of_located located
    refine .inr ⟨rfl, fun number there => ?_⟩
    have distinct : number ≠ mine := by
      rintro rfl
      exact apart (sound.unlinked _ _ number there here)
    rw [FileSystem.content_setContent, if_neg distinct]
  | renamed _ renamed =>
    obtain ⟨located, rfl⟩ := Store.located_of_temporary renamed.seated
    obtain rfl := (Store.leads_directory leads _).eq_of_located located
    obtain ⟨aimed, rfl⟩ := Store.located_of_part renamed.aimed
    obtain rfl := (Store.leads_directory leads _).eq_of_located aimed
    by_cases same : place = Store.partFile writing.part :: Store.idFile writing.fileId :: root
    · exact .inl ⟨rfl, same⟩
    · exact .inr ⟨by rw [renamed.node?, if_neg same, if_neg apart],
        fun number _ => renamed.content number⟩

/-- What is named as a part stays as it is, unless it is the part that is done. -/
theorem named (read : Store.partOfName? name = some part)
    (other : stage = .done → (fileId, part) ≠ writing.place) :
    after.node? (name :: Store.idFile fileId :: root) =
        files.node? (name :: Store.idFile fileId :: root) ∧
      after.bytesAt? (name :: Store.idFile fileId :: root) =
        files.bytesAt? (name :: Store.idFile fileId :: root) := by
  have apart : name :: Store.idFile fileId :: root ≠
      Store.temporaryFile writing.part :: Store.idFile writing.fileId :: root := by
    intro same
    rw [(List.cons.inj same).1, Store.partOfName?_temporaryFile] at read
    contradiction
  have off : ¬ name :: Store.idFile fileId :: root <:+ Store.idFile writing.fileId :: root := by
    intro inside
    have length := inside.length_le
    simp at length
  rcases step.others sound stands leads apart off with ⟨done, same⟩ | ⟨nodes, contents⟩
  · obtain ⟨rfl, below⟩ := List.cons.inj same
    rw [Store.partOfName?_partFile] at read
    have here : fileId = writing.fileId := Store.idFile_inj (List.cons.inj below).1
    exact absurd (Prod.ext here (Option.some.inj read).symm) (other done)
  · exact ⟨nodes, FileSystem.bytesAt?_congr nodes contents⟩

theorem part?_eq (other : stage = .done → (fileId, part) ≠ writing.place) :
    store.part? after fileId part = store.part? files fileId part := by
  have kept := step.keepsDirectories
  have way := Store.leads_directory leads fileId
  obtain ⟨_, same⟩ := step.named sound stands leads (Store.partOfName?_partFile part) other
  ext bytes
  rw [Store.part?_eq_some_iff, Store.part?_eq_some_iff]
  constructor
  · rintro ⟨directory, checked, located, there⟩
    obtain rfl := (way.kept kept).eq_of_located located
    rw [same] at there
    have stood := sound.parents _ _ (FileSystem.node?_of_bytesAt? there)
    exact ⟨_, checked, way.located sound kept located stood, there⟩
  · rintro ⟨directory, checked, located, there⟩
    obtain rfl := way.eq_of_located located
    exact ⟨_, checked, located.kept kept, same.trans there⟩

theorem lists_iff (other : stage = .done → (fileId, part) ≠ writing.place) :
    store.Lists after fileId part ↔ store.Lists files fileId part := by
  have kept := step.keepsDirectories
  have way := Store.leads_directory leads fileId
  rw [Store.lists_iff, Store.lists_iff]
  constructor
  · rintro ⟨directory, checked, located, name, there, read⟩
    obtain rfl := (way.kept kept).eq_of_located located
    rw [(step.named sound stands leads read other).1] at there
    have stood := sound.parents _ _ there
    exact ⟨_, checked, way.located sound kept located stood, name, there, read⟩
  · rintro ⟨directory, checked, located, name, there, read⟩
    obtain rfl := way.eq_of_located located
    rw [← (step.named sound stands leads read other).1] at there
    exact ⟨_, checked, located.kept kept, name, there, read⟩

end Leads

end Step

end PartWriting

/-- The writings for one store, and the files among which they write. -/
structure Writers where
  files : FileSystem
  writings : List PartWriting

namespace Writers

def step? (store : Store) (writers : Writers) (index : Nat) (move : WriteMove) : Option Writers :=
  (writers.writings[index]?).bind fun writing =>
    (PartWriting.step? store writers.files writing move).map fun (next, files) =>
      ⟨files, writers.writings.set index next⟩

/-- Steps in any order, as far as they are fit; any of the writings may still be under way. -/
inductive Run (store : Store) (Fit : Writers → Nat → Prop) (first : Writers) : Writers → Prop
  | start : Run store Fit first first
  | step {writers next : Writers} {index : Nat} {move : WriteMove}
      (ran : Run store Fit first writers) (fit : Fit writers index)
      (stepped : writers.step? store index move = some next) : Run store Fit first next

/-- Whoever is about to open a temporary file, no other writing needs it. -/
def InTurn (writers : Writers) (index : Nat) : Prop :=
  ∀ writing ∈ writers.writings[index]?, writing.stage = .placed →
    ∀ other ∈ writers.writings.eraseIdx index, other.place = writing.place → other.isOpen = false

instance (writers : Writers) (index : Nat) : Decidable (writers.InTurn index) :=
  inferInstanceAs (Decidable (∀ writing ∈ writers.writings[index]?, _))

/-- A run with these acts, as far as they are fit. -/
def run? (store : Store) (Fit : Writers → Nat → Prop)
    [∀ writers index, Decidable (Fit writers index)] (first : Writers) :
    List (Nat × WriteMove) → Option Writers
  | [] => some first
  | (index, move) :: rest =>
    if Fit first index then (first.step? store index move).bind fun next => run? store Fit next rest
    else none

/-- All calls have begun, and nothing has been done for them. -/
structure Begins (store : Store) (root : Location) (first : Writers) : Prop where
  sound : first.files.Sound
  leads : first.files.Leads store.root root
  begun : ∀ writing ∈ first.writings, writing.stage = .begun

/-- A part is as it was at first, or as one of the writings that are done has put it there. -/
def Complete (store : Store) (first last : Writers) (fileId : Int64) (part : UInt32) : Prop :=
  (∃ bytes, ⟨fileId, part, bytes, .done⟩ ∈ last.writings ∧
    store.part? last.files fileId part = some bytes) ∨
  (∀ bytes, ⟨fileId, part, bytes, .done⟩ ∉ last.writings) ∧
    store.part? last.files fileId part = store.part? first.files fileId part

/-- What has become of the files since some writings began. -/
structure Kept (store : Store) (root : Location) (first last : Writers) : Prop where
  sound : last.files.Sound
  leads : last.files.Leads store.root root
  stands : ∀ writing ∈ last.writings, writing.Stands store last.files
  exclusive : ∀ (i j : Nat) (one two : PartWriting), i ≠ j → last.writings[i]? = some one →
    last.writings[j]? = some two → one.place = two.place →
    ¬ (one.isOpen = true ∧ two.isOpen = true)
  calls : last.writings.map PartWriting.call = first.writings.map PartWriting.call
  complete : ∀ fileId part, Complete store first last fileId part
  lists : ∀ fileId part, store.Lists last.files fileId part ↔
    store.Lists first.files fileId part ∨ ∃ bytes, ⟨fileId, part, bytes, .done⟩ ∈ last.writings
  nodes : ∀ place, (∀ writing ∈ last.writings,
      place ≠ Store.temporaryFile writing.part :: Store.idFile writing.fileId :: root ∧
      place ≠ Store.partFile writing.part :: Store.idFile writing.fileId :: root ∧
      ¬ place <:+ Store.idFile writing.fileId :: root) →
    last.files.node? place = first.files.node? place
  distinct : ∀ place, (first.files.namesAt place).Nodup → (last.files.namesAt place).Nodup

section Kept

variable {store : Store} {root : Location} {first writers next : Writers} {writing : PartWriting}
  {stage : WriteStage} {after : FileSystem} {index : Nat} {move : WriteMove} {fileId : Int64}
  {part : UInt32} {bytes : ByteArray}

theorem Begins.not_done (begins : Begins store root first) (bytes : ByteArray) :
    ⟨fileId, part, bytes, .done⟩ ∉ first.writings := fun member => nomatch begins.begun _ member

theorem Begins.kept (begins : Begins store root first) : Kept store root first first where
  sound := begins.sound
  leads := begins.leads
  stands := fun writing member =>
    PartWriting.stands_of_shut (by simp [PartWriting.isOpen, begins.begun writing member])
  exclusive := by
    rintro i j one two - here - - ⟨opened, -⟩
    simp [PartWriting.isOpen, begins.begun one (List.mem_of_getElem? here)] at opened
  calls := rfl
  complete := fun fileId part => .inr ⟨begins.not_done, rfl⟩
  lists := by
    intro fileId part
    refine (or_iff_left ?_).symm
    rintro ⟨bytes, member⟩
    exact begins.not_done bytes member
  nodes := fun _ _ => rfl
  distinct := fun _ => id

theorem step_of_step? (stepped : writers.step? store index move = some next) :
    ∃ writing stage, writers.writings[index]? = some writing ∧ writing.isOver = false ∧
      PartWriting.Step store writers.files writing stage next.files ∧
      next.writings = writers.writings.set index { writing with stage := stage } := by
  obtain ⟨writing, found, moved⟩ := Option.bind_eq_some_iff.mp stepped
  obtain ⟨⟨changed, files⟩, went, rfl⟩ := Option.map_eq_some_iff.mp moved
  obtain ⟨stage, rfl, step⟩ := PartWriting.step_of_step? went
  exact ⟨writing, stage, found, PartWriting.isOver_of_step? went, step, rfl⟩

theorem getElem?_set_cases {writings : List PartWriting} {new other : PartWriting} {i : Nat}
    (found : (writings.set index new)[i]? = some other) :
    i = index ∧ other = new ∨ i ≠ index ∧ writings[i]? = some other := by
  rw [List.getElem?_set] at found
  split at found
  · rename_i here
    split at found
    · exact .inl ⟨here.symm, (Option.some.inj found).symm⟩
    · contradiction
  · rename_i apart
    exact .inr ⟨Ne.symm apart, found⟩

theorem mem_set_done {writings : List PartWriting} (found : writings[index]? = some writing)
    (going : writing.isOver = false) :
    ⟨fileId, part, bytes, .done⟩ ∈ writings.set index { writing with stage := stage } ↔
      ⟨fileId, part, bytes, .done⟩ ∈ writings ∨
        stage = .done ∧ writing.place = (fileId, part) ∧ writing.payload = bytes := by
  constructor
  · intro member
    rcases List.mem_or_eq_of_mem_set member with before | same
    · exact .inl before
    · cases same
      exact .inr ⟨rfl, rfl, rfl⟩
  · rintro (before | ⟨rfl, place, rfl⟩)
    · obtain ⟨i, there⟩ := List.getElem?_of_mem before
      have apart : index ≠ i := by
        rintro rfl
        cases found.symm.trans there
        contradiction
      exact List.mem_of_getElem? ((List.getElem?_set_ne apart).trans there)
    · obtain ⟨rfl, rfl⟩ := Prod.mk.inj place
      exact List.mem_set (List.getElem?_eq_some_iff.mp found).1 _

section Step

variable (kept : Kept store root first writers) (found : writers.writings[index]? = some writing)

include kept found

theorem Kept.mine : writing.Stands store writers.files :=
  kept.stands writing (List.mem_of_getElem? found)

theorem Kept.calls_step :
    (writers.writings.set index { writing with stage := stage }).map PartWriting.call =
      first.writings.map PartWriting.call := by
  rw [← kept.calls]
  refine List.ext_getElem? fun i => ?_
  rw [List.getElem?_map, List.getElem?_map, List.getElem?_set]
  split
  · rename_i here
    subst here
    rw [if_pos (List.getElem?_eq_some_iff.mp found).1, found]
    rfl
  · rfl

variable (moved : PartWriting.Step store writers.files writing stage after)

include moved

/-- Of those that write the same part, no other has its file open along with this one. -/
theorem Kept.alone (turn : writers.InTurn index) {i : Nat} {other : PartWriting}
    (apart : i ≠ index) (there : writers.writings[i]? = some other)
    (same : other.place = writing.place)
    (opened : ({ writing with stage := stage } : PartWriting).isOpen = true) :
    other.isOpen = false := by
  rcases moved.isOpen opened with before | placed
  · rw [← Bool.not_eq_true]
    exact fun also => kept.exclusive i index other writing apart there found same ⟨also, before⟩
  · exact turn writing found placed other
      (List.mem_eraseIdx_iff_getElem?.mpr ⟨i, apart, there⟩) same

theorem Kept.stands_step (turn : writers.InTurn index) :
    ∀ other ∈ writers.writings.set index { writing with stage := stage },
      other.Stands store after := by
  intro other member
  obtain ⟨i, there⟩ := List.getElem?_of_mem member
  rcases getElem?_set_cases there with ⟨-, rfl⟩ | ⟨apart, before⟩
  · exact moved.stands (kept.mine found)
  · have stands := kept.stands other (List.mem_of_getElem? before)
    by_cases same : other.place = writing.place
    · cases shut : other.isOpen with
      | false => exact PartWriting.stands_of_shut shut
      | true =>
        -- it has its file open, so this one has none and is not about to open one
        have mine_shut : writing.isOpen = false := by
          rw [← Bool.not_eq_true]
          exact fun also =>
            kept.exclusive i index other writing apart before found same ⟨shut, also⟩
        refine moved.stands_shut mine_shut (fun placed => ?_) stands
        have other_shut := turn writing found placed other
          (List.mem_eraseIdx_iff_getElem?.mpr ⟨i, apart, before⟩) same
        rw [shut] at other_shut
        contradiction
    · exact moved.stands_other kept.sound (kept.mine found) stands
        fun both => same (Prod.ext both.1 both.2)

theorem Kept.exclusive_step (turn : writers.InTurn index) {i j : Nat} {one two : PartWriting}
    (apart : i ≠ j)
    (here : (writers.writings.set index { writing with stage := stage })[i]? = some one)
    (there : (writers.writings.set index { writing with stage := stage })[j]? = some two)
    (same : one.place = two.place) : ¬ (one.isOpen = true ∧ two.isOpen = true) := by
  rintro ⟨opened, also⟩
  rcases getElem?_set_cases here with ⟨rfl, rfl⟩ | ⟨other, before⟩
  · rcases getElem?_set_cases there with ⟨rfl, rfl⟩ | ⟨other, before⟩
    · exact apart rfl
    · rw [kept.alone found moved turn other before same.symm opened] at also
      contradiction
  · rcases getElem?_set_cases there with ⟨rfl, rfl⟩ | ⟨another, earlier⟩
    · rw [kept.alone found moved turn other before same also] at opened
      contradiction
    · exact kept.exclusive i j one two apart before earlier same ⟨opened, also⟩

theorem Kept.nodes_step {place : Location}
    (apart : ∀ other ∈ writers.writings.set index { writing with stage := stage },
      place ≠ Store.temporaryFile other.part :: Store.idFile other.fileId :: root ∧
      place ≠ Store.partFile other.part :: Store.idFile other.fileId :: root ∧
      ¬ place <:+ Store.idFile other.fileId :: root) :
    after.node? place = first.files.node? place := by
  obtain ⟨temporary, part, off⟩ := apart { writing with stage := stage }
    (List.mem_set (List.getElem?_eq_some_iff.mp found).1 _)
  rcases moved.others kept.sound (kept.mine found) kept.leads temporary off with
    ⟨_, same⟩ | ⟨same, _⟩
  · exact absurd same part
  · rw [same]
    refine kept.nodes place fun other member => ?_
    obtain ⟨i, there⟩ := List.getElem?_of_mem member
    by_cases here : i = index
    · subst here
      cases found.symm.trans there
      exact ⟨temporary, part, off⟩
    · exact apart other (List.mem_of_getElem? ((List.getElem?_set_ne (Ne.symm here)).trans there))

variable (going : writing.isOver = false)

include going

theorem Kept.complete_step (fileId : Int64) (part : UInt32) :
    Complete store first ⟨after, writers.writings.set index { writing with stage := stage }⟩
      fileId part := by
  have mine := kept.mine found
  by_cases here : stage = .done ∧ writing.place = (fileId, part)
  · obtain ⟨rfl, place⟩ := here
    obtain ⟨rfl, rfl⟩ := Prod.mk.inj place
    exact .inl ⟨writing.payload, (mem_set_done found going).mpr (.inr ⟨rfl, rfl, rfl⟩),
      (moved.holds mine).part?⟩
  · have same : store.part? after fileId part = store.part? writers.files fileId part :=
      moved.part?_eq kept.sound mine kept.leads fun done eq => here ⟨done, eq.symm⟩
    rcases kept.complete fileId part with ⟨bytes, member, there⟩ | ⟨none, there⟩
    · exact .inl ⟨bytes, (mem_set_done found going).mpr (.inl member), same.trans there⟩
    · refine .inr ⟨fun bytes member => ?_, same.trans there⟩
      rcases (mem_set_done found going).mp member with before | ⟨done, place, -⟩
      · exact none bytes before
      · exact here ⟨done, place⟩

theorem Kept.lists_step (fileId : Int64) (part : UInt32) : store.Lists after fileId part ↔
    store.Lists first.files fileId part ∨ ∃ bytes, ⟨fileId, part, bytes, .done⟩ ∈
      writers.writings.set index { writing with stage := stage } := by
  have mine := kept.mine found
  by_cases here : stage = .done ∧ writing.place = (fileId, part)
  · obtain ⟨rfl, place⟩ := here
    obtain ⟨rfl, rfl⟩ := Prod.mk.inj place
    exact iff_of_true (moved.holds mine).lists
      (.inr ⟨writing.payload, (mem_set_done found going).mpr (.inr ⟨rfl, rfl, rfl⟩)⟩)
  · rw [moved.lists_iff kept.sound mine kept.leads fun done eq => here ⟨done, eq.symm⟩, kept.lists]
    apply or_congr_right
    apply exists_congr
    intro bytes
    rw [mem_set_done found going]
    exact (or_iff_left fun done => here ⟨done.1, done.2.1⟩).symm

theorem Kept.step (turn : writers.InTurn index) :
    Kept store root first
      ⟨after, writers.writings.set index { writing with stage := stage }⟩ where
  sound := moved.sound kept.sound
  leads := kept.leads.kept moved.keepsDirectories
  stands := kept.stands_step found moved turn
  exclusive := fun _ _ _ _ => kept.exclusive_step found moved turn
  calls := kept.calls_step found
  complete := kept.complete_step found moved going
  lists := kept.lists_step found moved going
  nodes := fun _ => kept.nodes_step found moved
  distinct := fun place before => moved.distinct (kept.distinct place before)

end Step

theorem run_of_run? {Fit : Writers → Nat → Prop}
    [∀ writers index, Decidable (Fit writers index)] {acts : List (Nat × WriteMove)}
    {last : Writers} (ran : Run store Fit first writers)
    (more : run? store Fit writers acts = some last) : Run store Fit first last := by
  induction acts generalizing writers with
  | nil => exact Option.some.inj more ▸ ran
  | cons act rest ih =>
    rw [run?] at more
    split at more
    · rename_i fit
      obtain ⟨next, stepped, later⟩ := Option.bind_eq_some_iff.mp more
      exact ih (ran.step fit stepped) later
    · contradiction

theorem Run.kept {Fit : Writers → Nat → Prop} {last : Writers} (begins : Begins store root first)
    (turns : ∀ writers index, Kept store root first writers → Fit writers index →
      writers.InTurn index) (run : Run store Fit first last) : Kept store root first last := by
  induction run with
  | start => exact begins.kept
  | @step writers next index move _ fit stepped ih =>
    obtain ⟨writing, stage, found, going, step, same⟩ := step_of_step? stepped
    have kept := ih.step found step going (turns _ _ ih fit)
    rwa [← same] at kept

theorem Kept.places (kept : Kept store root first writers) :
    writers.writings.map PartWriting.place = first.writings.map PartWriting.place := by
  have calls := congrArg (List.map PartWriting.place) kept.calls
  rwa [List.map_map, List.map_map] at calls

/-- Where all writings concern different parts, every order will do. -/
theorem Kept.inTurn (kept : Kept store root first writers)
    (distinct : (first.writings.map PartWriting.place).Nodup) (index : Nat) :
    writers.InTurn index := by
  intro writing found _ other member same
  obtain ⟨i, apart, there⟩ := List.mem_eraseIdx_iff_getElem?.mp member
  rw [← kept.places] at distinct
  have inside := (List.getElem?_eq_some_iff.mp there).1
  have eq : (writers.writings.map PartWriting.place)[i]? =
      (writers.writings.map PartWriting.place)[index]? := by
    rw [List.getElem?_map, List.getElem?_map, there, found]
    exact congrArg some same
  exact absurd ((List.getElem?_inj (by simpa using inside) distinct).mp eq) apart

theorem inTurn_single (files : FileSystem) (writing : PartWriting) :
    InTurn ⟨files, [writing]⟩ 0 := by
  rintro _ _ _ other ⟨⟩

section Alone

variable {files : FileSystem} {payload : ByteArray} {later : WriteStage}

theorem Kept.step_single (kept : Kept store root first ⟨files, [⟨fileId, part, payload, stage⟩]⟩)
    (moved : PartWriting.Step store files ⟨fileId, part, payload, stage⟩ later after)
    (going : (⟨fileId, part, payload, stage⟩ : PartWriting).isOver = false) :
    Kept store root first ⟨after, [⟨fileId, part, payload, later⟩]⟩ := by
  have found : (⟨files, [⟨fileId, part, payload, stage⟩]⟩ : Writers).writings[0]? =
      some ⟨fileId, part, payload, stage⟩ := rfl
  exact kept.step found moved going (inTurn_single _ _)

/-- A part that is put in one go is written in steps without any others between. -/
theorem kept_of_putPart (sound : files.Sound) (leads : files.Leads store.root root)
    (put : store.putPart fileId part payload files = (.ok (), after)) :
    Kept store root ⟨files, [⟨fileId, part, payload, .begun⟩]⟩
      ⟨after, [⟨fileId, part, payload, .done⟩]⟩ := by
  have begins : Begins store root ⟨files, [⟨fileId, part, payload, .begun⟩]⟩ :=
    ⟨sound, leads, by simp⟩
  obtain ⟨stage, kept, done⟩ := PartWriting.holds_of_putPart
    (P := fun mid stage => Kept store root ⟨files, [⟨fileId, part, payload, .begun⟩]⟩
      ⟨mid, [⟨fileId, part, payload, stage⟩]⟩)
    begins.kept (fun _ _ _ _ kept going step => kept.step_single step going) put
  obtain rfl := done.mp rfl
  exact kept

end Alone

end Kept

end Writers

end ChunkedUpload
