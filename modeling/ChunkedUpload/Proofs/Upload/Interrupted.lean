import ChunkedUpload.Proofs.Upload.Ending
import ChunkedUpload.Proofs.Upload.Loss
import ChunkedUpload.Proofs.Upload.Pieces

/-! Uploads that end early, because a read fails, somebody cancels or all workers crash. What the
session has seen by then is a beginning of the file, and it sees nothing afterwards. -/
namespace ChunkedUpload

namespace Dispatch

/-- A dispatch whose pool is followed, whose requests are in line with its source and whose outcome
fits its plan. -/
structure Known (job : UploadJob) (Allowed : Move → Prop) (events : List Event)
    (dispatch : Dispatch) : Prop where
  working : Working job Allowed events dispatch
  sensible : dispatch.Sensible

variable {job : UploadJob} {Allowed : Move → Prop} {events : List Event} {dispatch : Dispatch}
  {bytes : ByteArray} {outcome : DispatchOutcome} {summary : PoolSummary}

theorem Working.whole (working : Working job Allowed events dispatch) (whole : job.resume = none) :
    dispatch.plan.mode.isResend = false ∧ dispatch.plan.startPart = 0 ∧
    dispatch.plan.fileId = job.freshId := by
  obtain ⟨_, _, _, opened, _⟩ := working.origin
  have planned := opened.planned
  rw [whole] at planned
  have mode : dispatch.plan.mode.isResend = false := by
    rw [UploadPlan.make_mode planned, UploadMode.select]
    split <;> rfl
  have plan := (UploadPlan.make_whole planned mode).2
  exact ⟨mode, by rw [plan], by rw [plan]⟩

theorem Working.carries (working : Working job Allowed events dispatch)
    (carried : ∀ files, Allowed (.openInput files) → job.input.Carries files bytes) :
    dispatch.source.Carries bytes := by
  obtain ⟨files, source, allowed, opened, moved⟩ := working.origin
  exact ((carried files allowed).opened opened.opened).moved moved

theorem Working.queued_pieces (working : Working job Allowed events dispatch)
    (whole : job.resume = none) (carries : dispatch.source.Carries bytes)
    (phase : dispatch.producer = .finished outcome summary) :
    let count := (events.filterMap Event.queued?).length
    events.filterMap Event.queued? = dispatch.plan.pieces bytes count ∧
    count ≤ partsFor bytes.size ∧ ∀ i < count, i * partSize < bytes.size := by
  obtain ⟨_, first, _⟩ := working.whole whole
  have made : made events dispatch = _ := made_of_none (by rw [phase]; rfl)
  intro count
  have pieces := working.fed.made_pieces first carries
  have few := working.fed.made_few first carries
  rw [made] at pieces few
  refine ⟨pieces, few, fun i inside => ?_⟩
  exact working.fed.made_inside first carries (by rwa [made])

end Dispatch

namespace Upload

variable {job : UploadJob} {Allowed : Move → Prop}

theorem start_known {files : FileSystem} {source : Source} {plan : UploadPlan} {endpoint : Int32}
    (opening : Allowed (.openInput files)) (opened : Opened files job source plan) :
    Dispatch.Known job Allowed [.askedHome, .askedSession endpoint] (startDispatch source plan) :=
  ⟨Dispatch.start_working endpoint opening opened, Dispatch.start_sensible source plan⟩

theorem step_known : StepKeeps step? (Standing job Allowed (Dispatch.Known job Allowed)) Allowed :=
  step_standing (fun _ _ _ _ opening opened => start_known opening opened)
    fun _ _ _ _ _ known _ step =>
      ⟨Dispatch.step_working step known.working, Dispatch.step_sensible step known.sensible⟩

theorem run_known {cancelled : Bool} {moves : List Move} {last : Upload} {events : List Event}
    (allowed : ∀ move ∈ moves, Allowed move)
    (run : (begin job cancelled).run? moves = some (last, events)) :
    Standing job Allowed (Dispatch.Known job Allowed) events last := by
  have fresh : Standing job Allowed (Dispatch.Known job Allowed) [] (begin job cancelled) :=
    ⟨rfl, rfl, rfl⟩
  rw [run?_eq] at run
  exact run_holds step_known moves _ _ _ fresh allowed run

/-- When an upload has ended the workers have begun with the first of the queued parts, with all of
them unless a call crashed, and have ended whatever they began. -/
theorem Ended.calls {job : UploadJob} {cancelled : Bool} {moves : List Move} {last : Upload}
    {events : List Event} (run : (begin job cancelled).run? moves = some (last, events))
    (ended : last.Ended) :
    events.filterMap Event.started? <+: events.filterMap Event.queued? ∧
    ((events.filterMap Event.ended?).map Prod.fst).Perm (events.filterMap Event.started?) ∧
    ((∀ call ∈ events.filterMap Event.ended?, call.2 ≠ .crashed) →
      events.filterMap Event.started? = events.filterMap Event.queued?) ∧
    ∀ dispatch, last.stage = .dispatching dispatch →
      ∀ worker ∈ dispatch.pool.workers, worker.isGone = true := by
  obtain ⟨_, here⟩ := run_known (fun _ _ => trivial : ∀ move ∈ moves, True) run
  cases ended with
  | refused stage =>
    simp only [stage] at here
    obtain ⟨unqueued, unstarted, _⟩ := here
    have unended := run_unended run (by simp [stage])
    rw [unqueued, unstarted, unended]
    exact ⟨List.nil_prefix, .refl _, fun _ => rfl, by simp [stage]⟩
  | finished stage phase gone =>
    simp only [stage] at here
    obtain ⟨begins, calls, _, all⟩ := here.1.working.finished phase
    refine ⟨begins, calls, all, fun dispatch same => ?_⟩
    cases stage.symm.trans same
    simpa [Pool.isStopped] using gone

section Whole

variable {past : List Event} {upload : Upload} {bytes : ByteArray}

theorem Standing.ended_of_returned {value : Except UploadError (Option FileReference)}
    (standing : Standing job Allowed (Dispatch.Known job Allowed) past upload)
    (whole : job.resume = none) (returned : upload.result = some (.returned value)) :
    upload.Ended := by
  rcases standing.answer_cases returned with
    ⟨dispatch, stage, ⟨working, sensible⟩, given⟩ | ⟨_, _, stage, _⟩
  · obtain ⟨mode, _⟩ := working.whole whole
    obtain ⟨outcome, summary, phase⟩ := sensible.finished_of_returned mode given
    exact .finished stage phase (working.finished phase).2.2.1
  · exact .refused stage

theorem Standing.queued_of_ended
    (standing : Standing job Allowed (Dispatch.Known job Allowed) past upload)
    (whole : job.resume = none)
    (carried : ∀ files, Allowed (.openInput files) → job.input.Carries files bytes)
    (ended : upload.Ended) :
    let count := (past.filterMap Event.queued?).length
    ∃ plan : UploadPlan, plan.fileId = job.freshId ∧
      past.filterMap Event.queued? = plan.pieces bytes count ∧ count ≤ partsFor bytes.size ∧
      ∀ i < count, i * partSize < bytes.size := by
  obtain ⟨_, here⟩ := standing
  cases ended with
  | refused stage =>
    simp only [stage] at here
    rw [here.1]
    exact ⟨⟨job.freshId, 0, 0, .small, 0⟩, rfl, rfl, Nat.zero_le _, by simp⟩
  | @finished dispatch _ _ stage phase =>
    simp only [stage] at here
    have working := here.1.working
    exact ⟨dispatch.plan, (working.whole whole).2.2,
      working.queued_pieces whole (working.carries carried) phase⟩

end Whole

end Upload

/-- The upload of a whole file, wherever it was cut short: the session has seen the first pieces of
the file, each once, and all of those that were queued unless a call crashed. When the caller has
its answer, every call has ended, every worker too, and no call begins afterwards. -/
theorem early_end_leaves_prefix {job : UploadJob} {bytes : ByteArray} {cancelled : Bool}
    {moves : List Move} {last : Upload} {events : List Event}
    {value : Except UploadError (Option FileReference)} (whole : job.resume = none)
    (carried : ∀ files, .openInput files ∈ moves → job.input.Carries files bytes)
    (few : bytes.size ≤ (2 ^ 32 - 1) * partSize)
    (run : (Upload.begin job cancelled).run? moves = some (last, events))
    (returned : last.result = some (.returned value)) :
    let queued := events.filterMap Event.queued?
    let started := events.filterMap Event.started?
    let ended := events.filterMap Event.ended?
    ∃ (j : Nat) (plan : UploadPlan), j ≤ queued.length ∧ plan.fileId = job.freshId ∧
      started = plan.pieces bytes j ∧
      started.map (fun request => request.part.toNat) = List.range j ∧
      (∀ i, i + 1 < j → (plan.piece bytes i).payload.size = partSize) ∧
      ((∀ call ∈ ended, call.2 ≠ .crashed) → j = queued.length) ∧
      (ended.map Prod.fst).Perm started ∧
      (∀ dispatch, last.stage = .dispatching dispatch →
        ∀ worker ∈ dispatch.pool.workers, worker.isGone = true) ∧
      ∀ later final more, last.run? later = some (final, more) → more = [] := by
  intro queued started ended
  have known := Upload.run_known (fun _ => id : ∀ move ∈ moves, move ∈ moves) run
  have finished := known.ended_of_returned whole returned
  obtain ⟨begins, calls, all, gone⟩ := finished.calls run
  obtain ⟨plan, fileId, pieces, count, inside⟩ := known.queued_of_ended whole carried finished
  have short := begins.length_le
  -- a beginning of the first pieces is itself the first pieces
  have sent : started = plan.pieces bytes started.length :=
    (List.prefix_iff_eq_take.mp begins).trans (pieces ▸ plan.pieces_take bytes (pieces ▸ short))
  refine ⟨started.length, plan, short, fileId, sent, ?_, fun i below => ?_,
    fun calm => congrArg List.length (all calm), calls, gone, fun _ _ _ => finished.run⟩
  · have fits : started.length ≤ 2 ^ 32 :=
      Nat.le_trans short (Nat.le_trans count (Nat.le_of_lt (partsFor_lt few)))
    exact (congrArg _ sent).trans (plan.pieces_numbered bytes fits)
  · have next : i + 1 < started.length := below
    have last := inside (i + 1) (Nat.lt_of_lt_of_le next short)
    exact plan.piece_full bytes (Nat.le_of_lt last)

/-- A read that fails when the only byte of its stream has been sent. -/
theorem prefix_after_failed_read :
    let bytes : ByteArray := ⟨#[65]⟩
    let stream := { Stream.ofBytes bytes with
      reply := fun number _ => if number = 2 then .failure (.system SystemError.busy) else .upTo 1 }
    let job := plainJob stream
    ∃ last events, (Upload.begin job false).run? onePartMoves = some (last, events) ∧
      last.result = some (.returned (.error (.io (.system SystemError.busy)))) ∧
      ∃ plan : UploadPlan, plan.fileId = 7 ∧
        events.filterMap Event.started? = [plan.piece bytes 0] := by
  intro bytes stream job
  have outcome : (((Upload.begin job false).run? onePartMoves).bind fun ran =>
      (ran.1.result.bind Result.error?).map fun error =>
        (error, (ran.2.filterMap Event.queued?).length,
          (ran.2.filterMap Event.ended?).countP fun call => call.2 = .crashed)) =
      some (.io (.system SystemError.busy), 1, 0) := by decide +kernel
  obtain ⟨⟨last, events⟩, run, later⟩ := Option.bind_eq_some_iff.mp outcome
  obtain ⟨error, given, counts⟩ := Option.map_eq_some_iff.mp later
  obtain ⟨result, answer, failed⟩ := Option.bind_eq_some_iff.mp given
  rw [Result.eq_of_error failed] at answer
  simp only [Prod.mk.injEq] at counts
  obtain ⟨rfl, one, calm⟩ := counts
  have carried : ∀ files, .openInput files ∈ onePartMoves → job.input.Carries files bytes := by
    intro files _
    refine .stream (Content.holds_ofBytes bytes) ?_
    intro number position count answered
    simp only [stream] at answered
    split at answered <;> cases answered
    exact Nat.one_pos
  obtain ⟨j, plan, _, fileId, sent, _, _, all, _⟩ :=
    early_end_leaves_prefix rfl carried (by decide) run answer
  refine ⟨last, events, run, answer, plan, fileId, ?_⟩
  rw [sent, all (by simpa using calm), one]
  rfl

end ChunkedUpload
