import ChunkedUpload.Proofs.Depot.Saving
import ChunkedUpload.Proofs.Upload.Resending
import ChunkedUpload.Proofs.Uploaders.Returns

/-! Parts that are sent into a store again. The call has its answer before its part is written;
whoever waits for the resends of its uploader takes it over and goes on when its workers have
ended. -/
namespace ChunkedUpload

namespace Uploaders

variable {all next : Uploaders} {id call uploader : Nat} {move : Move} {events : List Event}

theorem Step.waits_of_move (step : Step all (.move id move) events next) :
    next.waits = all.waits := by
  cases step with
  | moved => rfl
  | answered => exact waits_settleResult _ _ _

/-- Once it has its answer, a call is among those whose resends can be waited for. -/
def Recorded (call uploader : Nat) (all : Uploaders) : Prop :=
  ∀ upload, all.call? call = some ⟨uploader, upload⟩ → upload.result.isSome = true →
    ∀ u, all.uploaders[uploader]? = some u → call ∈ u.resends

theorem Step.recorded (step : Step all (.move call move) events next)
    (queues : ∀ upload, next.call? call = some ⟨uploader, upload⟩ →
      upload.result.isSome = true → queuedResend upload = true)
    (recorded : Recorded call uploader all) : Recorded call uploader next := by
  intro upload there answered u here
  have queued := queues upload there answered
  cases step with
  | @moved _ _ before _ after _ found _ _ _ unchanged =>
    rw [call?_setCall, if_pos rfl, found] at there
    cases there
    refine recorded before.upload found ?_ u here
    cases unanswered : before.upload.result with
    | none => simp [unchanged unanswered] at answered
    | some result => rfl
  | @answered _ _ before _ after _ found =>
    rw [call?_congr (calls_settleResult _ _ _), call?_setCall, if_pos rfl, found] at there
    cases there
    simp only [settleResult, queued, if_true, updateUploader, uploaders_updateLimiter,
      List.getElem?_modify] at here
    obtain ⟨old, _, rfl⟩ := Option.map_eq_some_iff.mp here
    simp

end Uploaders

namespace Depot

/-- A part of the file is sent again by a new call, whose end is waited for. What it does to the
files succeeds. -/
inductive Resent (store : Store) (bytes : ByteArray) (fileId : Int64) (part : UInt32)
    (first : Depot) : Depot → Prop
  | intro {job : UploadJob} {name : String} {call wait uploader : Nat}
      {earlier later : List DepotAct} {mid last : Depot} {events more : List Event}
      (again : job.Again first.files bytes name ⟨fileId, part⟩)
      (new : first.all.call? call = none) (unused : mid.all.wait? wait = none)
      (sent : runSteps? (step? store) first (.act (.save call uploader job false) :: earlier) =
        some (mid, events))
      (answered : ((mid.all.call? call).bind fun call => call.upload.result).isSome = true)
      (waited : runSteps? (step? store) mid
        (.act (.await wait uploader) :: (later ++ [.act (.settle wait)])) = some (last, more))
      (own : ∀ act ∈ earlier ++ later, act.IsOf call ∧ act.isCancel = false)
      (delivered : ∀ call ∈ (events ++ more).filterMap Event.ended?, call.2 = .delivered) :
      Resent store bytes fileId part first last

section Resent

variable {store : Store} {bytes : ByteArray} {fileId : Int64} {part : UInt32} {job : UploadJob}
  {name : String} {call wait uploader : Nat} {first last depot next : Depot}
  {files : FileSystem} {past events : List Event} {drains : List Nat}

/-- The call asks for nothing but its part. -/
theorem course_of_request {again : ResumePart} (h : job.Again files bytes name again) :
    Course [wholeRequest bytes again.fileId again.part.toNat] files (Move.Calm files)
      (Upload.Repeats job files bytes name again) where
  kept := Upload.step_repeats h
  standing _ _ repeats := ⟨_, _, _, repeats.1⟩
  started _ _ repeats :=
    repeats.1.started (List.Sublist · [wholeRequest bytes again.fileId again.part.toNat])
      (List.nil_sublist _) fun _ resending => resending.repeating.started_isPrefix.sublist
  distinct := List.nodup_singleton _
  calm _ := id

theorem course_of_again (h : job.Again files bytes name ⟨fileId, part⟩) :
    Course (wholeRequests bytes fileId) files (Move.Calm files)
      (Upload.Repeats job files bytes name ⟨fileId, part⟩) :=
  { course_of_request h with
    started := fun past upload repeats => ((course_of_request h).started past upload repeats).trans
      (List.singleton_sublist.mpr (wholeRequest_mem fileId h.inside))
    distinct := wholeRequests_distinct h.few fileId }

theorem Resent.inside (resent : Resent store bytes fileId part first last) :
    part.toNat < partsFor bytes.size := by
  cases resent with
  | intro again => exact again.inside

/-- The call sends the part again, and has been recorded if it has its answer. -/
abbrev Again (store : Store) (job : UploadJob) (files : FileSystem) (bytes : ByteArray)
    (name : String) (again : ResumePart) (call uploader : Nat) (past : List Event)
    (depot : Depot) : Prop :=
  Serving store (wholeRequests bytes again.fileId) files call uploader
    (Upload.Repeats job files bytes name again) past depot ∧
  Uploaders.Recorded call uploader depot.all

theorem step_own {act : DepotAct} (own : act.IsOf call)
    (stepped : step? store depot act = some (next, events)) :
    next.all = depot.all ∨ ∃ move, Uploaders.Step depot.all (.move call move) events next.all := by
  cases act with
  | write index move =>
    obtain ⟨_, _, _, _, _, _, _, rfl⟩ := step_of_write stepped
    exact .inl rfl
  | act act =>
    obtain ⟨all, writings, acted, _, rfl⟩ := step_of_act stepped
    cases act with
    | move id move =>
      obtain rfl : id = call := own
      exact .inr ⟨_, Uploaders.step_of_step? acted⟩
    | save | await | settle => exact own.elim

theorem step_again (h : job.Again files bytes name ⟨fileId, part⟩) :
    StepKeeps (step? store) (Again store job files bytes name ⟨fileId, part⟩ call uploader)
      (fun act => act.IsOf call ∧ act.isCancel = false) := by
  intro past depot act next events ⟨serving, recorded⟩ ⟨own, calm⟩ stepped
  have served := step_serving (course_of_again h) past depot act next events serving
    ⟨own, by simp [calm]⟩ stepped
  refine ⟨served, ?_⟩
  rcases step_own own stepped with same | ⟨move, step⟩
  · rw [same]
    exact recorded
  · refine step.recorded (fun upload there answered => ?_) recorded
    obtain ⟨found, here, repeats, _⟩ := served.upload
    cases here.symm.trans there
    exact repeats.queuedResend h answered

theorem step_waiting {found : Option ResendWait} :
    StepKeeps (step? store) (fun _ depot => depot.all.wait? wait = found)
      (fun act => act.IsOf call ∧ act.isCancel = false) := by
  intro past depot act next events waits ⟨own, _⟩ stepped
  rcases step_own own stepped with same | ⟨move, step⟩
  · rw [same]
    exact waits
  · rw [Uploaders.wait?, step.waits_of_move]
    exact waits

theorem Serving.aside {requests : List PartRequest} {Keeps : List Event → Upload → Prop}
    {all : Uploaders} {writings : List (PartRequest × WriteStage)}
    (serving : Serving store requests files call uploader Keeps past depot)
    (heeded : Heeded depot.writings [] writings) (same : all.calls = depot.all.calls) :
    Serving store requests files call uploader Keeps past
      { depot with all := all, writings := writings } := by
  obtain ⟨upload, found, keeps, opening⟩ := serving.upload
  have kept : Kept store requests files (past ++ [])
    { depot with all := all, writings := writings } := serving.kept.heed heeded
  rw [List.append_nil] at kept
  exact ⟨kept, upload, (Uploaders.call?_congr same call).trans found, keeps, opening⟩

theorem Again.awaited {again : ResumePart}
    (h : Again store job files bytes name again call uploader past depot)
    (answered : ((depot.all.call? call).bind fun call => call.upload.result).isSome = true)
    (unused : depot.all.wait? wait = none)
    (stepped : step? store depot (.act (.await wait uploader)) = some (next, events)) :
    events = [] ∧ Serving store (wholeRequests bytes again.fileId) files call uploader
      (Upload.Repeats job files bytes name again) past next ∧
    ∃ drains, call ∈ drains ∧ next.all.wait? wait = some ⟨uploader, drains, none⟩ := by
  obtain ⟨serving, recorded⟩ := h
  obtain ⟨all, writings, acted, heeded, rfl⟩ := step_of_act stepped
  obtain ⟨upload, there, _⟩ := serving.upload
  rw [there] at answered
  cases Uploaders.step_of_step? acted with
  | @awaited _ _ u found =>
    refine ⟨rfl, serving.aside heeded rfl, u.resends, recorded upload there answered u found, ?_⟩
    rw [Uploaders.wait?, Uploaders.lookup_snoc, if_pos rfl]
    rw [Uploaders.wait?] at unused
    rw [unused, Option.none_or]

theorem Serving.settled {requests : List PartRequest} {Keeps : List Event → Upload → Prop}
    (serving : Serving store requests files call uploader Keeps past depot)
    (drained : call ∈ drains) (waits : depot.all.wait? wait = some ⟨uploader, drains, none⟩)
    (stepped : step? store depot (.act (.settle wait)) = some (next, events)) :
    events = [] ∧ Serving store requests files call uploader Keeps past next ∧
    ∃ upload dispatch outcome summary, Keeps past upload ∧ upload.stage = .dispatching dispatch ∧
      dispatch.producer = .finished outcome summary := by
  obtain ⟨all, writings, acted, heeded, rfl⟩ := step_of_act stepped
  cases Uploaders.step_of_step? acted with
  | settled found _ ended =>
    cases waits.symm.trans found
    obtain ⟨summary, counted⟩ := Uploaders.summary_of_totals ended drained
    obtain ⟨_, dispatch, outcome, there, stage, phase⟩ := Uploaders.finished_of_summary counted
    obtain ⟨upload, here, keeps, _⟩ := serving.upload
    cases here.symm.trans there
    exact ⟨rfl, serving.aside heeded rfl, upload, dispatch, outcome, summary, keeps, stage, phase⟩

/-- When the wait is over nothing is being written, every part is still stored, and so is the one
that was sent again. -/
theorem Resent.rests (resent : Resent store bytes fileId part first last) (rests : first.Rests) :
    last.Rests ∧ store.Has last.files (wholeRequest bytes fileId part.toNat) ∧
    ∀ request ∈ wholeRequests bytes fileId, store.Has first.files request →
      store.Has last.files request := by
  obtain @⟨job, name, call, wait, uploader, earlier, later, mid, _, events, more, again, new,
    unused, sent, answered, waited, own, delivered⟩ := resent
  have fits : ∀ act ∈ earlier, act.IsOf call ∧ act.isCancel = false :=
    fun act member => own act (List.mem_append_left _ member)
  have fits_later : ∀ act ∈ later, act.IsOf call ∧ act.isCancel = false :=
    fun act member => own act (List.mem_append_right _ member)
  -- the call comes, and runs till it has its answer
  obtain ⟨begun, _, seen, stepped, ran, rfl⟩ := runSteps_cons sent
  obtain ⟨rfl, there, serving⟩ := Serving.start
    (Upload.Repeats job first.files bytes name ⟨fileId, part⟩) rests.sound rests.idle new
    ⟨⟨rfl, rfl, rfl⟩, rfl⟩ stepped
  have unrecorded : Uploaders.Recorded call uploader begun.all := by
    intro upload found ended
    cases there.symm.trans found
    cases ended
  have ready := run_keeps (step_again again) earlier _ _ _ _ ⟨serving, unrecorded⟩ fits ran
  -- somebody waits for it, and it goes on
  obtain ⟨taken, _, rest, awaited, ran, rfl⟩ := runSteps_cons waited
  obtain ⟨rfl, serving, drains, drained, waits⟩ := Again.awaited ready answered unused awaited
  obtain ⟨ended, further, _, went, settled, rfl⟩ := runSteps_split ran
  have served := run_keeps (step_serving (course_of_again again)) later _ _ _ _ serving
    (fun act member => ⟨(fits_later act member).1, by simp [(fits_later act member).2]⟩) went
  have still := run_keeps step_waiting later _ _ [] _ waits fits_later went
  obtain ⟨_, _, _, stepped, none_left, rfl⟩ := runSteps_cons settled
  cases none_left
  obtain ⟨rfl, served, upload, dispatch, outcome, summary, repeats, stage, phase⟩ :=
    served.settled drained still stepped
  obtain ⟨⟨_, here⟩, _⟩ := repeats
  simp only [stage] at here
  obtain ⟨resending, _⟩ := here
  simp only [List.nil_append, List.append_nil] at delivered resending served
  obtain ⟨_, calls, _⟩ := resending.working.finished phase
  exact ⟨⟨served.kept.idle calls, served.kept.sound⟩,
    served.kept.stored _ (wholeRequest_mem fileId again.inside)
      (.inr (.inr (resending.delivered phase delivered))),
    fun request asked before => served.kept.stored request asked (.inl before)⟩

end Resent

end Depot

end ChunkedUpload
