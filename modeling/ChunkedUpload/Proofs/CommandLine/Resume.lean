import ChunkedUpload.CommandLine.Run
import ChunkedUpload.Proofs.Host.Resend

/-! What the program may say of a part that it was to send again. The call that sends the part has
the same answer whether it is stored or not; the program goes by what its wait has counted. -/
namespace ChunkedUpload.CommandLine

/-- Success means that the part is stored as the file has it, and failure that it is as it was. All
other parts are as they were in any case. -/
structure Outcome.Truthful (outcome : Outcome) (store : Store) (before : FileSystem) (path : Path)
    (fileId : Int64) (part : UInt32) : Prop where
  stored : ∀ text, outcome.result = .ok text → ∃ bytes, before.read path = .ok bytes ∧
    part.toNat < partsFor bytes.size ∧
    store.part? outcome.files fileId part =
      some (bytes.extract (part.toNat * partSize) (min ((part.toNat + 1) * partSize) bytes.size))
  failed : ∀ error, outcome.result = .error error →
    store.Unchanged before outcome.files fileId part
  others : ∀ otherId otherPart, (otherId, otherPart) ≠ (fileId, part) →
    store.Unchanged before outcome.files otherId otherPart

/-- Who has failed without touching the files has done what it says. -/
theorem Outcome.truthful_of_untouched {outcome : Outcome} {store : Store} {before : FileSystem}
    {path : Path} {fileId : Int64} {part : UInt32} {error : CommandError}
    (failed : outcome.result = .error error) (same : outcome.files = before) :
    outcome.Truthful store before path fileId part where
  stored := by
    intro text said
    cases failed.symm.trans said
  failed _ _ := same ▸ .refl _ _ _ _
  others _ _ _ := same ▸ .refl _ _ _ _

namespace Setting

/-- What the program says of a resend that has come to its end. -/
def resumed (setting : Setting) (path : Path) (fileId : Int64) (part : UInt32)
    (asked : Option Path) (run : LocalRun) : Outcome :=
  match run.result with
  | some (.returned (.error error)) => ⟨.error (.resending part path error), "", run.files⟩
  | _ =>
    if 0 < run.resends.failed ∨ run.resends.delivered = 0 then
      ⟨.error (.notStored part fileId (setting.store asked).root), "", run.files⟩
    else ⟨.ok s!"part {part.toNat} of file {fileId.toInt} stored\n", "", run.files⟩

variable {setting : Setting} {path : Path} {fileId : Int64} {part : UInt32} {asked : Option Path}
  {limiter : Admission} {run : LocalRun}

theorem resume_eq (made : Admission.make? setting.config.maxConcurrentUploads = some limiter) :
    setting.resume path fileId part asked = setting.resumed path fileId part asked
      ((setting.store asked).run setting.files limiter
        (setting.job path (some ⟨fileId, part⟩) none)) := by
  rw [resume, made]
  rfl

theorem job_resumes
    (told : ∀ bytes, setting.files.read path = .ok bytes → bytes.size < 2 ^ 64) :
    (setting.job path (some ⟨fileId, part⟩) none).Resumes setting.files path ⟨fileId, part⟩ where
  input := rfl
  resumes := rfl
  limited := by
    change setting.config.limit.bytes.toNat ≤ _
    rw [Config.limit]
    cases AccountTier.ofFlag (some setting.config.privilegedAccount) <;> decide
  told := told

/-- The program says of a part that can be put that it is stored. -/
theorem resume_of_put {bytes : ByteArray} {name : String} {after : FileSystem}
    (made : Admission.make? setting.config.maxConcurrentUploads = some limiter)
    (h : (setting.job path (some ⟨fileId, part⟩) none).Again setting.files bytes name
      ⟨fileId, part⟩)
    (put : (setting.store asked).putPart fileId part (pieceOf bytes part) setting.files =
      (.ok (), after)) :
    setting.resume path fileId part asked =
      ⟨.ok s!"part {part.toNat} of file {fileId.toInt} stored\n", "", after⟩ := by
  obtain ⟨slots, rfl⟩ := Admission.free_of_make? made
  rw [resume_eq made, Host.run_of_put rfl h put]
  rfl

theorem truthful_of_faithful (sound : setting.files.Sound)
    (faithful : run.Faithful (setting.store asked) (setting.job path (some ⟨fileId, part⟩) none)
      setting.files ⟨fileId, part⟩) :
    (setting.resumed path fileId part asked run).Truthful (setting.store asked) setting.files path
      fileId part := by
  cases faithful with
  | refused error => exact Outcome.truthful_of_untouched rfl rfl
  | stored sends went =>
    exact {
      stored := fun _ _ => by
        cases sends.serves with
        | path found serves =>
          obtain ⟨held, read, rfl⟩ := Source.openPath_ok found
          obtain rfl := serves.holds.unique (Content.holds_ofBytes held)
          exact ⟨_, read, sends.inside, (went.holds rfl).part?⟩
      failed := fun _ said => nomatch said
      others := fun _ _ other => went.spares.unchanged sound fun written => other written.2 }
  | lost sends undone went =>
    exact {
      stored := fun _ said => nomatch said
      failed := fun _ _ => went.spares.unchanged sound fun written => undone written.1
      others := fun _ _ _ => went.spares.unchanged sound fun written => undone written.1 }

end Setting

/-- The program says that it has sent a part again only if the part is stored as the file has it,
and if it says that it has not, the part is as it was; all other parts are as they were in any case.
So it is when all moves are made in the fixed order, and so it is in whatever order the call, the
session and the wait make their moves and whichever step of the writing fails. The size of the file
is told in 64 bits. -/
theorem resume_tells_what_is_stored (setting : Setting) (path : Path) (fileId : Int64)
    (part : UInt32) (asked : Option Path) (sound : setting.files.Sound)
    (told : ∀ bytes, setting.files.read path = .ok bytes → bytes.size < 2 ^ 64) :
    let store := setting.store asked
    (setting.resume path fileId part asked).Truthful store setting.files path fileId part ∧
    ∀ limiter run,
      Depot.Resumed store (setting.job path (some ⟨fileId, part⟩) none) setting.files limiter run →
      (setting.resumed path fileId part asked run).Truthful store setting.files path fileId
        part := by
  intro store
  refine ⟨?_, fun limiter run resumed => ?_⟩
  · cases made : Admission.make? setting.config.maxConcurrentUploads with
    | none =>
      rw [Setting.resume, made]
      exact Outcome.truthful_of_untouched rfl rfl
    | some limiter =>
      rw [Setting.resume_eq made]
      exact Setting.truthful_of_faithful sound
        (Store.run_faithful sound (Setting.job_resumes told) made)
  · exact Setting.truthful_of_faithful sound (resumed.faithful sound (Setting.job_resumes told))

/-- The second part of a file of two is sent again and stored; and when the last step of its
writing fails, the program says so, and the part is as it was. -/
theorem second_part_resumed :
    let kept : Store := ⟨Path.ofString "/in"⟩
    let files := (kept.putPart 1 0 twoParts FileSystem.empty).2
    let path := kept.partPath 1 0
    let parts : Store := ⟨Path.ofString "/parts"⟩
    let setting : Setting := ⟨Config.initial, UserDirectories.ofEnvironment fun _ => none, files, 0⟩
    let outcome := setting.resume path 7 1 (some parts.root)
    files.Sound ∧ (∀ bytes, files.read path = .ok bytes → bytes.size < 2 ^ 64) ∧
      (outcome.result.toBool = true ∧ parts.part? outcome.files 7 1 = some ⟨#[65]⟩ ∧
        parts.Unchanged files outcome.files 7 0) ∧
      ∃ run, Depot.Resumed parts (setting.job path (some ⟨7, 1⟩) none) files ⟨1, 1, [], []⟩ run ∧
        (setting.resumed path 7 1 (some parts.root) run).result.toBool = false ∧
        parts.Unchanged files run.files 7 1 := by
  intro kept files path parts setting outcome
  have put : (kept.putPart 1 0 twoParts FileSystem.empty).1 = .ok () := by decide +kernel
  obtain ⟨_, went, stored⟩ := PartWriting.went_of_putPart FileSystem.sound_empty
    (Prod.ext put rfl : kept.putPart 1 0 twoParts FileSystem.empty = (.ok (), files))
  have found : files.read path = .ok twoParts :=
    Store.read_of_part? (went.holds (stored.mp rfl)).part?
  have small : twoParts.size < 2 ^ 64 := by
    rw [size_twoParts]
    decide
  have told : ∀ bytes, files.read path = .ok bytes → bytes.size < 2 ^ 64 := by
    intro bytes read
    cases found.symm.trans read
    exact small
  obtain ⟨truthful, any_order⟩ :=
    resume_tells_what_is_stored setting path 7 1 (some parts.root) went.sound told
  have opened : Source.openPath files path Stream.ofBytes = .ok (Stream.ofBytes twoParts) := by
    have named : path.bytes.isEmpty = false := by decide +kernel
    have plain : files.isDirectory path = false := by decide +kernel
    simp [Source.openPath, named, plain, found]
  have again : (setting.job path (some ⟨7, 1⟩) none).Again files twoParts (Source.nameOf path)
      ⟨7, 1⟩ := by
    constructor
    · exact .path opened (Stream.serves_ofBytes small)
    · rw [size_twoParts]
      decide
    · exact whole_twoParts.few
    · rfl
    · rw [partsFor_twoParts]
      decide
  have request : wholeRequest twoParts 7 (1 : UInt32).toNat = ⟨7, 1, none, ⟨#[65]⟩⟩ :=
    wholeRequest_twoParts 7 1
  have second : pieceOf twoParts 1 = ⟨#[65]⟩ := by
    rw [pieceOf, extract_min, extract_twoParts]
    rfl
  have delivers : (parts.putPart 7 1 (pieceOf twoParts 1) files).1 = .ok () := by
    rw [second]
    decide +kernel
  refine ⟨went.sound, told, ?_, ?_⟩
  · have ends : outcome = _ := Setting.resume_of_put rfl again (Prod.ext delivers rfl)
    have said := congrArg Outcome.result ends
    obtain ⟨bytes, read, _, holds⟩ := truthful.stored _ said
    cases found.symm.trans read
    exact ⟨by rw [said]; rfl, holds.trans (congrArg some second), truthful.others 7 0 (by decide)⟩
  · have puts : (parts.deliver (wholeRequest twoParts 7 (1 : UInt32).toNat) files).1 = .ok () := by
      rwa [request, Store.deliver, ← second]
    obtain ⟨flushed, written, _⟩ := Store.flushed_of_deliver
      (wholeRequest_some_bytes again.inside 7) (Prod.ext puts rfl)
    let error : IoError := .system SystemError.busy
    have resumed := Depot.exists_resumed 0 again rfl (.refused (.io error)) (written.fail rfl error)
    have said : (setting.resumed path 7 1 (some parts.root)
        ⟨some (.returned (.ok none)), ⟨0, 1⟩, [], flushed⟩).result =
          .error (.notStored 1 7 parts.root) := rfl
    exact ⟨_, resumed, by rw [said]; rfl, (any_order _ _ resumed).failed _ said⟩

end ChunkedUpload.CommandLine
