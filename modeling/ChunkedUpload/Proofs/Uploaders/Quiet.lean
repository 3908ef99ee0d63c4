import ChunkedUpload.Proofs.Keys
import ChunkedUpload.Proofs.Upload.Alike
import ChunkedUpload.Proofs.Upload.Interrupted
import ChunkedUpload.Proofs.Uploaders.Runs

/-! Loud calls and quiet ones. A quiet call keeps the loss of parts to itself. Two runs of a process
that differ only in who is quiet take the same course, and nobody but the caller can tell them
apart. -/
namespace ChunkedUpload

def UploadJob.quiet (job : UploadJob) : UploadJob := { job with failOnPartError := false }

theorem UploadJob.alike_quiet (job : UploadJob) : job.Alike job.quiet :=
  ⟨rfl, rfl, rfl, rfl, fun _ => rfl⟩

namespace Upload

/-- What a quiet caller hears where a loud one has this: an error that arose once there were workers
is kept from it, unless it has cancelled the upload itself. -/
def quietResult? (upload : Upload) : Option Result :=
  match upload.stage, upload.result with
  | .dispatching _, some (.returned (.error error)) =>
    some (.returned (if error = .cancelled then .error .cancelled else .ok none))
  | _, result => result

theorem conclude_quiet (job : UploadJob) (plan : UploadPlan) (name : String)
    (summary : PoolSummary) {outcome : DispatchOutcome}
    (sensible : ∀ error, outcome = .failed error → error ≠ .cancelled) :
    conclude job.quiet plan name summary outcome =
      match conclude job plan name summary outcome with
      | .error error => if error = .cancelled then .error .cancelled else .ok none
      | .ok reference => .ok reference := by
  have degraded : ∀ error, error ≠ .cancelled → degrade job.quiet error =
      match degrade job error with
      | .error error => if error = .cancelled then .error .cancelled else .ok none
      | .ok reference => .ok reference := by
    intro error other
    unfold degrade
    cases loud : job.failOnPartError <;> simp [UploadJob.quiet, other]
  cases outcome with
  | exhausted checksum =>
    unfold conclude
    dsimp only
    split
    · exact degraded _ (by simp)
    · rfl
  | cancelled => simp [conclude]
  | failed error => exact degraded error (sensible error rfl)
  | resumeQueued => rfl

end Upload

theorem Dispatch.result?_quiet {job : UploadJob} {dispatch : Dispatch}
    (sensible : dispatch.Sensible) : dispatch.result? job.quiet =
      (dispatch.result? job).map fun result =>
        match result with
        | .returned (.error error) =>
          .returned (if error = .cancelled then .error .cancelled else .ok none)
        | other => other := by
  unfold result?
  split
  · rfl
  · rfl
  · rename_i outcome summary phase
    have fits : ∀ error, outcome = .failed error → error ≠ .cancelled := by
      rintro error rfl
      exact sensible _ (by rw [phase]; rfl)
    rw [Upload.conclude_quiet job _ _ _ fits]
    simp only [Option.map_some]
    cases Upload.conclude job dispatch.plan dispatch.source.name summary outcome <;> rfl
  · rfl
  · rfl

namespace Upload

theorem quiet_result {job : UploadJob} {Allowed : Move → Prop} {past : List Event}
    {upload : Upload} (standing : Standing job Allowed (Dispatch.Known job Allowed) past upload) :
    (upload.under upload.job.quiet).result = upload.quietResult? := by
  obtain ⟨rfl, here⟩ := standing
  unfold under quietResult?
  dsimp only
  cases stage : upload.stage with
  | dispatching dispatch =>
    simp only [stage] at here
    obtain ⟨known, answer⟩ := here
    rw [answer]
    dsimp only
    rw [Dispatch.result?_quiet known.sensible]
    cases dispatch.result? upload.job with
    | none => rfl
    | some result =>
      cases result with
      | returned value => cases value <;> rfl
      | crashed => rfl
  | waiting | opening | locating | connecting | «over» => rfl

theorem isSome_under {upload : Upload} {other : UploadJob} (answered : upload.Answered) :
    (upload.under other).result.isSome = upload.result.isSome := by
  unfold under
  dsimp only
  split
  · rename_i dispatch stage
    rw [answered.dispatch dispatch stage]
    unfold Dispatch.result?
    split <;> rfl
  · rfl

end Upload

namespace Uploaders

section Hushed

variable (which : Nat → Bool)

/-- The call as it is when it is one of those that are to be quiet. -/
def hush (id : Nat) (call : SaveCall) : SaveCall :=
  if which id then { call with upload := call.upload.under call.upload.job.quiet } else call

/-- The process in which these calls are quiet. -/
def hushed (all : Uploaders) : Uploaders :=
  { all with calls := all.calls.map fun entry => (entry.1, hush which entry.1 entry.2) }

end Hushed

end Uploaders

/-- The act of a process in which these calls are quiet. -/
def UploaderAct.hushed (which : Nat → Bool) : UploaderAct → UploaderAct
  | save id uploader job cancelled =>
    save id uploader (if which id then job.quiet else job) cancelled
  | act => act

namespace Uploaders

section Hushed

variable {which : Nat → Bool} {all next : Uploaders} {id : Nat} {call : SaveCall}
  {act : UploaderAct} {events : List Event}

@[simp] theorem call?_hushed (which : Nat → Bool) (all : Uploaders) (id : Nat) :
    (all.hushed which).call? id = (all.call? id).map (hush which id) :=
  lookup_map_value _ _ _

@[simp] theorem hush_uploader (which : Nat → Bool) (id : Nat) (call : SaveCall) :
    (hush which id call).uploader = call.uploader := by
  unfold hush
  split <;> rfl

@[simp] theorem hush_stage (which : Nat → Bool) (id : Nat) (call : SaveCall) :
    (hush which id call).upload.stage = call.upload.stage := by
  unfold hush
  split <;> rfl

theorem hushed_setCall (which : Nat → Bool) (all : Uploaders) (id : Nat) (call : SaveCall) :
    (all.setCall id call).hushed which = (all.hushed which).setCall id (hush which id call) := by
  simp only [hushed, setCall, List.map_map]
  congr 1
  refine List.map_congr_left fun entry _ => ?_
  by_cases same : entry.1 = id <;> simp [same]

theorem hushed_updateLimiter (which : Nat → Bool) (all : Uploaders) (uploader : Nat)
    (f : Admission → Admission) :
    (all.updateLimiter uploader f).hushed which = (all.hushed which).updateLimiter uploader f := by
  unfold updateLimiter
  have same : (all.hushed which).uploaders = all.uploaders := rfl
  rw [same]
  split <;> rfl

theorem queuedResend_hush (which : Nat → Bool) (id : Nat) (call : SaveCall) :
    queuedResend (hush which id call).upload = queuedResend call.upload := by
  unfold queuedResend
  rw [hush_stage]

theorem hushed_settleResult (which : Nat → Bool) (all : Uploaders) (id : Nat) (call : SaveCall) :
    (all.settleResult id call).hushed which =
      (all.hushed which).settleResult id (hush which id call) := by
  unfold settleResult
  rw [queuedResend_hush, hush_uploader, ← hushed_updateLimiter]
  split <;> rfl

@[simp] theorem summary?_hushed (which : Nat → Bool) (all : Uploaders) (id : Nat) :
    (all.hushed which).summary? id = all.summary? id := by
  unfold summary?
  rw [call?_hushed]
  cases all.call? id with
  | none => rfl
  | some call => simp only [Option.map_some, Option.bind_some, hush_stage]

@[simp] theorem totals?_hushed (which : Nat → Bool) (all : Uploaders) (ids : List Nat) :
    (all.hushed which).totals? ids = all.totals? ids := by
  induction ids with
  | nil => rfl
  | cons id rest ih => simp only [totals?, summary?_hushed, ih]

theorem hushed_addCall (which : Nat → Bool) (all : Uploaders) (id uploader : Nat)
    (job : UploadJob) (cancelled : Bool) :
    (all.addCall id uploader job cancelled).hushed which =
      (all.hushed which).addCall id uploader (if which id then job.quiet else job) cancelled := by
  have begun : hush which id ⟨uploader, Upload.begin job cancelled⟩ =
      ⟨uploader, Upload.begin (if which id then job.quiet else job) cancelled⟩ := by
    unfold hush
    split <;> rfl
  simp only [addCall, hushed, List.map_append, List.map_cons, List.map_nil, begun]

theorem hushed_save (which : Nat → Bool) (all : Uploaders) (id uploader : Nat) (job : UploadJob)
    (cancelled : Bool) :
    (all.hushed which).step? ((UploaderAct.save id uploader job cancelled).hushed which) =
      (all.step? (.save id uploader job cancelled)).map fun step => (step.1.hushed which, step.2) := by
  have joined := hushed_addCall which all id uploader job cancelled
  cases cancelled with
  | true => exact congrArg (fun next => some (next, [])) joined.symm
  | false =>
    have settled := hushed_updateLimiter which (all.addCall id uploader job false) uploader
      fun limiter => limiter.request id
    rw [joined] at settled
    exact congrArg (fun next => some (next, [])) settled.symm

theorem hush_step {move : Move} {upload : Upload} (answered : call.upload.Answered)
    (stepped : call.upload.step? move = some (upload, events)) :
    ∃ quiet, (hush which id call).upload.step? move = some (quiet, events) ∧
      { hush which id call with upload := quiet } = hush which id { call with upload := upload } ∧
      ((hush which id call).upload.result.isNone && quiet.result.isSome) =
        (call.upload.result.isNone && upload.result.isSome) := by
  obtain ⟨job, still⟩ := (Upload.step_of_step? answered.dispatch stepped).kept answered
  unfold hush
  split
  · have quietly := Upload.step?_under call.upload.job.alike_quiet answered stepped
    refine ⟨_, quietly, by rw [job], ?_⟩
    rw [Upload.isSome_under still, ← Option.not_isSome, ← Option.not_isSome,
      Upload.isSome_under answered]
  · exact ⟨upload, stepped, rfl, rfl⟩

theorem hushed_move {move : Move} {limiter : Admission} {upload : Upload}
    (answered : call.upload.Answered) (found : all.call? id = some call)
    (limited : all.limiter? call.uploader = some limiter)
    (admitted : move = .enter → id ∈ limiter.holders)
    (stepped : call.upload.step? move = some (upload, events)) :
    (all.hushed which).step? (.move id move) =
      (all.step? (.move id move)).map fun step => (step.1.hushed which, step.2) := by
  obtain ⟨quiet, moved, same, ends⟩ := @hush_step which id call events move upload answered stepped
  have there : (all.hushed which).call? id = some (hush which id call) := by
    rw [call?_hushed, found, Option.map_some]
  have limited' : (all.hushed which).limiter? (hush which id call).uploader = some limiter := by
    rw [hush_uploader]
    exact limited
  rw [step?_move there limited' admitted moved, step?_move found limited admitted stepped, same,
    ends, Option.map_some]
  split
  · rw [hushed_settleResult, hushed_setCall]
  · rw [hushed_setCall]

/-- Each step of the process is possible with quiet calls as well. -/
theorem hushed_step (answered : ∀ id call, all.call? id = some call → call.upload.Answered)
    (stepped : all.step? act = some (next, events)) :
    (all.hushed which).step? (act.hushed which) = some (next.hushed which, events) := by
  have same : (all.hushed which).step? (act.hushed which) =
      (all.step? act).map fun step => (step.1.hushed which, step.2) := by
    cases step_of_step? stepped with
    | saved | refused => exact hushed_save _ _ _ _ _ _
    | moved found limited admitted moved | answered found limited admitted moved =>
      exact hushed_move (answered _ _ found) found limited admitted moved
    | @awaited id uploader u found =>
      simp [step?, UploaderAct.hushed, found, hushed, updateUploader]
    | @settled id wait total found unsettled ended =>
      have there : (all.hushed which).wait? id = some wait := found
      have counted : ∀ wait, (all.setWait id wait).hushed which = (all.hushed which).setWait id wait :=
        fun _ => rfl
      rw [stepped]
      simp [step?, UploaderAct.hushed, there, unsettled, ended, counted]
  rw [same, stepped, Option.map_some]

/-- The log of the process in which these calls are quiet: what is seen is the same. -/
def hushedLog (which : Nat → Bool) (log : Log) : Log :=
  log.map fun entry => (entry.1.hushed which, entry.2)

theorem Run.answered {first all : Uploaders} {log : Log} (run : Run first log all)
    (fresh : first.calls = []) (id : Nat) (call : SaveCall) (found : all.call? id = some call) :
    call.upload.Answered := by
  have whole := @Run.of_call first all log id run fresh
  rw [found] at whole
  obtain ⟨job, cancelled, _, ran⟩ := whole
  exact (Upload.run_known (fun _ _ => trivial : ∀ move ∈ movesOf id log, True) ran).answered

theorem Run.hushed {first all : Uploaders} {log : Log} (run : Run first log all)
    (fresh : first.calls = []) (which : Nat → Bool) :
    Run first (hushedLog which log) (all.hushed which) := by
  induction run with
  | start =>
    cases first
    cases fresh
    exact .start
  | @step log all next act events ran begun stepped ih =>
    have new : (act.hushed which).IsNew (all.hushed which) := by
      cases act with
      | save id => simpa [UploaderAct.IsNew, UploaderAct.hushed] using begun
      | await | move | settle => exact begun
    have quietly := ih.step new (hushed_step (ran.answered fresh) stepped)
    simpa [hushedLog] using quietly

theorem movesOf_hushed (which : Nat → Bool) (id : Nat) (log : Log) :
    movesOf id (hushedLog which log) = movesOf id log := by
  rw [movesOf, hushedLog, List.filterMap_map]
  refine List.filterMap_congr fun entry _ => ?_
  rcases entry with ⟨_ | _ | _ | _, _⟩ <;> rfl

theorem Run.quiet_result {first all : Uploaders} {log : Log} (run : Run first log all)
    (fresh : first.calls = []) (found : all.call? id = some call) :
    (call.upload.under call.upload.job.quiet).result = call.upload.quietResult? := by
  have whole := @Run.of_call first all log id run fresh
  rw [found] at whole
  obtain ⟨job, cancelled, _, ran⟩ := whole
  exact Upload.quiet_result
    (Upload.run_known (fun _ _ => trivial : ∀ move ∈ movesOf id log, True) ran)

end Hushed

end Uploaders

open Uploaders in
/-- Whichever calls of a process are made quiet, the process can do all that it has done before:
the calls make the same moves, ask for the same, queue, send and report the same, and everything
stands as before with the limiters, with the resends and with those who wait for them. Every call
has come just as far, and it has its answer when it had one; only an error that arose once it had
workers is kept from a quiet caller, who gets no reference instead. -/
theorem quiet_calls_differ_in_answer {first all : Uploaders} {log : Log} (fresh : first.calls = [])
    (run : Run first log all) (which : Nat → Bool) :
    ∃ quiet : Uploaders, Run first (hushedLog which log) quiet ∧
      (∀ id, movesOf id (hushedLog which log) = movesOf id log) ∧
      (hushedLog which log).map Prod.snd = log.map Prod.snd ∧
      quiet.limiters = all.limiters ∧ quiet.uploaders = all.uploaders ∧ quiet.waits = all.waits ∧
      (∀ id, all.call? id = none → quiet.call? id = none) ∧
      ∀ id call, all.call? id = some call → ∃ upload,
        quiet.call? id = some { call with upload := upload } ∧
        upload.stage = call.upload.stage ∧ upload.cancelled = call.upload.cancelled ∧
        (which id = false → upload = call.upload) ∧
        (which id = true → upload.job = call.upload.job.quiet ∧
          upload.result = call.upload.quietResult?) := by
  refine ⟨all.hushed which, run.hushed fresh which, fun id => movesOf_hushed which id log, ?_,
    rfl, rfl, rfl, fun id missing => ?_, fun id call found => ?_⟩
  · rw [hushedLog, List.map_map]
    rfl
  · rw [call?_hushed, missing, Option.map_none]
  · rw [call?_hushed, found, Option.map_some]
    unfold hush
    cases chosen : which id with
    | false => exact ⟨call.upload, rfl, rfl, rfl, fun _ => rfl, fun other => by simp at other⟩
    | true =>
      exact ⟨_, rfl, rfl, rfl, fun other => by simp at other,
        fun _ => ⟨rfl, run.quiet_result fresh found⟩⟩

/-- The only part of a call is refused: a loud caller hears of it, a quiet one does not. -/
theorem refused_part_kept_quiet :
    let job := plainJob (Stream.ofBytes ⟨#[65]⟩)
    let first : Uploaders := ⟨[⟨1, 1, [], []⟩], [⟨0, []⟩], [], []⟩
    let moves : List Move := [.enter, .openInput FileSystem.empty, .locate (.ok 2),
      .connect (.ok ()), .seek, .read, .enqueue, .take 0, .notify, .read,
      .finish 0 (.refused (.connection "gone")), .stop, .take 0, .stop, .join]
    let acts : List UploaderAct := .save 0 0 job false :: moves.map (.move 0)
    ∃ log loud quiet call upload, runSteps? Uploaders.logged? first acts = some (loud, log) ∧
      Uploaders.Run first (Uploaders.hushedLog (fun _ => true) log) quiet ∧
      loud.call? 0 = some call ∧
      call.upload.result = some (.returned (.error (.partsFailed 1))) ∧
      quiet.call? 0 = some { call with upload := upload } ∧
      upload.result = some (.returned (.ok none)) := by
  intro job first moves acts
  have outcome : ((runSteps? Uploaders.logged? first acts).bind fun ran =>
      (ran.1.call? 0).bind fun call => (call.upload.result.bind Result.error?).map fun error =>
        (error, call.upload.fileId?.isSome)) = some (.partsFailed 1, true) := by decide +kernel
  obtain ⟨⟨loud, log⟩, ran, later⟩ := Option.bind_eq_some_iff.mp outcome
  obtain ⟨call, found, given⟩ := Option.bind_eq_some_iff.mp later
  obtain ⟨error, failed, facts⟩ := Option.map_eq_some_iff.mp given
  obtain ⟨result, answer, made⟩ := Option.bind_eq_some_iff.mp failed
  rw [Result.eq_of_error made] at answer
  obtain ⟨rfl, begun⟩ := Prod.mk.inj facts
  have run := Uploaders.run_of_logged ran
  obtain ⟨quiet, quietly, _, _, _, _, _, _, calls⟩ :=
    quiet_calls_differ_in_answer rfl run fun _ => true
  obtain ⟨upload, there, _, _, _, hushed⟩ := calls 0 call found
  refine ⟨log, loud, quiet, call, upload, ran, quietly, found, answer, there, ?_⟩
  rw [(hushed rfl).2]
  cases stage : call.upload.stage with
  | dispatching dispatch => simp [Upload.quietResult?, stage, answer]
  | waiting | opening | locating | connecting | «over» => simp [Upload.fileId?, stage] at begun

end ChunkedUpload
