import ChunkedUpload.Proofs.Plan.Coverage
import ChunkedUpload.Proofs.Upload.Alike
import ChunkedUpload.Proofs.Upload.Backing
import ChunkedUpload.Proofs.Upload.Calm
import ChunkedUpload.Proofs.Upload.Interrupted
import ChunkedUpload.Proofs.Upload.Token

/-! What the callback of an upload is told. A report follows each part that got into the queue,
before anything more is read, and counts the parts up to there. How many reports there are depends
on how far the upload comes; what they say does not. -/
namespace ChunkedUpload

def Event.reported? : Event → Option (UInt64 × UInt64)
  | reported current total => some (current, total)
  | _ => none

/-- The events before an upload has its workers. -/
def Event.Asks : Event → Prop
  | askedHome | askedSession _ => True
  | _ => False

namespace Progress

/-- The report of this number, counted from zero. -/
def report (size : UInt64) (k : Nat) : UInt64 × UInt64 :=
  ((afterParts (UInt32.ofNat (k + 1)) (UInt64.ofNat partSize) size).bytes, size)

variable {size : UInt64} {k : Nat}

theorem toNat_report (few : k + 1 < 2 ^ 32) :
    (report size k).1.toNat = min ((k + 1) * partSize) size.toNat := by
  have bytes : ((UInt32.ofNat (k + 1)).toUInt64 * UInt64.ofNat partSize).toNat =
      (k + 1) * partSize := by
    rw [UInt64.toNat_mul, UInt32.toNat_toUInt64, UInt32.toNat_ofNat_of_lt' few]
    have same : (UInt64.ofNat partSize).toNat = partSize := rfl
    rw [same, Nat.mod_eq_of_lt]
    rw [partSize]
    omega
  unfold report afterParts
  dsimp only
  rw [← bytes]
  generalize (UInt32.ofNat (k + 1)).toUInt64 * UInt64.ofNat partSize = count
  rw [UInt64.toNat_min]

theorem report_le (size : UInt64) (k : Nat) : (report size k).1 ≤ size := by
  rw [UInt64.le_iff_toNat_le, report, afterParts, UInt64.toNat_min]
  exact Nat.min_le_right _ _

theorem report_mono {i j : Nat} (order : i ≤ j) (few : j + 1 < 2 ^ 32) :
    (report size i).1 ≤ (report size j).1 := by
  rw [UInt64.le_iff_toNat_le, toNat_report (by omega), toNat_report few]
  have more : (i + 1) * partSize ≤ (j + 1) * partSize := Nat.mul_le_mul_right _ (by omega)
  omega

/-- Before the last of the parts that cover the size, a report falls short of it. -/
theorem report_short (inside : k + 1 < partsFor size.toNat) (few : k + 1 < 2 ^ 32) :
    (report size k).1.toNat = (k + 1) * partSize ∧ (k + 1) * partSize < size.toNat := by
  have short := lt_partsFor_iff.mp inside
  rw [toNat_report few]
  omega

theorem report_full (last : k + 1 = partsFor size.toNat) (few : k + 1 < 2 ^ 32) :
    (report size k).1 = size := by
  have enough := partsFor_covers size.toNat
  rw [← UInt64.toNat_inj, toNat_report few, last]
  omega

end Progress

/-- The first reports of an upload of this size. -/
def reportsOf (size : UInt64) (count : Nat) : List (UInt64 × UInt64) :=
  (List.range count).map (Progress.report size)

section ReportsOf

variable {size : UInt64} {count : Nat}

theorem reportsOf_succ : reportsOf size (count + 1) =
    reportsOf size count ++ [Progress.report size count] := by
  simp [reportsOf, List.range_succ]

theorem getElem?_reportsOf {k : Nat} {report : UInt64 × UInt64}
    (found : (reportsOf size count)[k]? = some report) :
    k < count ∧ report = Progress.report size k := by
  rw [reportsOf, List.getElem?_map] at found
  obtain ⟨i, at_i, rfl⟩ := Option.map_eq_some_iff.mp found
  obtain ⟨inside, rfl⟩ := List.getElem?_eq_some_iff.mp at_i
  rw [List.length_range] at inside
  exact ⟨inside, by rw [List.getElem_range]⟩

theorem toNat_reportsOf (few : count < 2 ^ 32) :
    (reportsOf size count).map (fun report => (report.1.toNat, report.2.toNat)) =
      (List.range count).map fun k => (min ((k + 1) * partSize) size.toNat, size.toNat) := by
  rw [reportsOf, List.map_map]
  refine List.map_congr_left fun k inside => ?_
  have fits := Nat.lt_of_le_of_lt (List.mem_range.mp inside) few
  exact Prod.ext (Progress.toNat_report fits) rfl

theorem reportsOf_sorted (few : count < 2 ^ 32) :
    (reportsOf size count).Pairwise fun earlier later => earlier.1 ≤ later.1 := by
  rw [reportsOf, List.pairwise_map]
  refine List.pairwise_lt_range.imp_of_mem fun _ inside order => ?_
  exact Progress.report_mono (Nat.le_of_lt order) (Nat.lt_of_le_of_lt (List.mem_range.mp inside) few)

theorem reportsOf_le {report : UInt64 × UInt64} (told : report ∈ reportsOf size count) :
    report.1 ≤ size := by
  obtain ⟨k, _, rfl⟩ := List.mem_map.mp told
  exact Progress.report_le size k

/-- As many reports as there are parts all tell something new, and the last alone tells of the
whole. -/
theorem reportsOf_whole (whole : count = partsFor size.toNat) (few : count < 2 ^ 32) :
    ((reportsOf size count).Pairwise fun earlier later => earlier.1 < later.1) ∧
    ∀ k report, (reportsOf size count)[k]? = some report →
      (report.1 = size ↔ k + 1 = count) := by
  constructor
  · rw [reportsOf, List.pairwise_map]
    refine List.pairwise_lt_range.imp_of_mem fun {i j} _ inside order => ?_
    have within := List.mem_range.mp inside
    have early : i + 1 < partsFor size.toNat := by omega
    obtain ⟨now, short⟩ := Progress.report_short early (by omega)
    rw [UInt64.lt_iff_toNat_lt, now, Progress.toNat_report (by omega)]
    have more : (i + 1) * partSize < (j + 1) * partSize :=
      Nat.mul_lt_mul_of_pos_right (by omega) partSize_pos
    omega
  · intro k report found
    obtain ⟨inside, rfl⟩ := getElem?_reportsOf found
    constructor
    · intro full
      by_contra more
      have early : k + 1 < partsFor size.toNat := by omega
      obtain ⟨now, short⟩ := Progress.report_short early (by omega)
      rw [full] at now
      omega
    · intro last
      exact Progress.report_full (last.trans whole) (by omega)

end ReportsOf

/-- So many parts were accepted of which the callback has not been told. -/
def DispatchOutcome.Owes (owed : Nat) : DispatchOutcome → Prop
  | cancelled => owed ≤ 1
  | resumeQueued => owed = 1
  | exhausted _ | failed _ => owed = 0

def Producer.Owes (owed : Nat) : Producer → Prop
  | notifying => owed = 1
  | stopping _ outcome | joining outcome | finished outcome _ => outcome.Owes owed
  | seeking | reading | stalled | queueing _ | abandoned => owed = 0

namespace Dispatch

/-- The callback was told of the first parts that were accepted, and has missed one at most. A part
that is sent again is none of its business. -/
structure Told (events : List Event) (dispatch : Dispatch) : Prop where
  reports : events.filterMap Event.reported? = reportsOf dispatch.plan.fileSize dispatch.reports
  owes : ∃ owed, (events.filterMap Event.queued?).length = dispatch.reports + owed ∧
    dispatch.producer.Owes owed
  resend : dispatch.plan.mode.isResend = true →
    dispatch.reports = 0 ∧ dispatch.producer ≠ .notifying

/-- A producer that has gone was taken along by a callback on its own task. -/
def Deserted (callback : Callback) (dispatch : Dispatch) : Prop :=
  dispatch.producer = .abandoned → callback.style = .async ∧
    ∃ k, dispatch.reports = k + 1 ∧ callback.effect k = .crashes

/-- A loop that failed has a source that failed or nothing to send again, or else calls that
crashed have left it without workers. -/
def Broken (events : List Event) (dispatch : Dispatch) : Prop :=
  ∀ error, dispatch.producer.outcome? = some (.failed error) →
    (∃ failure, error = .io failure) ∨ dispatch.plan.mode.isResend = true ∨
      ∃ call ∈ events.filterMap Event.ended?, call.2 = .crashed

section Reports

variable {job : UploadJob} {callback : Callback} {Allowed : Move → Prop}
  {events more : List Event} {dispatch after : Dispatch} {move : Move}

theorem shown_of_called (called : job.callback = some callback) :
    (dispatch.shown job).filterMap Event.reported? =
      [(dispatch.progress.bytes, dispatch.plan.fileSize)] := by
  unfold shown report notifier Notifier.notify
  rw [called]
  dsimp only
  split <;> rfl

theorem crash_of_report (called : job.callback = some callback)
    (crashed : (dispatch.report job).effect = .crashes) :
    callback.style = .async ∧ callback.effect dispatch.reports = .crashes := by
  unfold report notifier Notifier.notify at crashed
  rw [called] at crashed
  dsimp only at crashed
  split at crashed
  · contradiction
  · rename_i contained
    cases style : callback.style with
    | async => exact ⟨rfl, crashed⟩
    | blocking => exact absurd crashed (contained style)

theorem start_told (source : Source) (plan : UploadPlan) (endpoint : Int32) :
    Told [.askedHome, .askedSession endpoint] (Upload.startDispatch source plan) where
  reports := rfl
  owes := ⟨0, rfl, rfl⟩
  resend _ := ⟨rfl, by simp [Upload.startDispatch]⟩

/-- A step that tells nothing and gets nothing into the queue. -/
theorem Told.keep (h : Told events dispatch) (plan : after.plan = dispatch.plan)
    (reports : after.reports = dispatch.reports)
    (silent : more.filterMap Event.reported? = [] ∧ more.filterMap Event.queued? = [])
    (owes : ∀ owed, dispatch.producer.Owes owed → after.producer.Owes owed)
    (phase : after.producer = .notifying → dispatch.producer = .notifying) :
    Told (events ++ more) after := by
  obtain ⟨untold, unqueued⟩ := silent
  obtain ⟨owed, count, here⟩ := h.owes
  constructor
  · rw [List.filterMap_append, untold, List.append_nil, plan, reports, h.reports]
  · rw [List.filterMap_append, unqueued, List.append_nil, reports]
    exact ⟨owed, count, owes owed here⟩
  · intro resend
    rw [plan] at resend
    rw [reports]
    exact ⟨(h.resend resend).1, mt phase (h.resend resend).2⟩

theorem Told.accept (h : Told events dispatch) {request : PartRequest}
    (phase : dispatch.producer = .queueing request) (plan : after.plan = dispatch.plan)
    (reports : after.reports = dispatch.reports) (owes : after.producer.Owes 1)
    (whole : after.producer = .notifying → dispatch.plan.mode.isResend = false) :
    Told (events ++ [.queued request]) after := by
  obtain ⟨owed, count, here⟩ := h.owes
  rw [phase, Producer.Owes] at here
  subst owed
  constructor
  · simpa [Event.reported?, plan, reports] using h.reports
  · exact ⟨1, by simp [Event.queued?, count, reports], owes⟩
  · intro resend
    rw [plan] at resend
    rw [reports]
    refine ⟨(h.resend resend).1, fun now => ?_⟩
    rw [whole now] at resend
    contradiction

/-- The report that is due tells of all the parts that were accepted. -/
theorem Told.report (h : Told events dispatch) (working : Working job Allowed events dispatch)
    (called : job.callback = some callback) (phase : dispatch.producer = .notifying)
    (plan : after.plan = dispatch.plan) (reports : after.reports = dispatch.reports + 1)
    (next : after.producer = .reading ∨ after.producer = .abandoned) :
    Told (events ++ dispatch.shown job) after := by
  obtain ⟨owed, count, here⟩ := h.owes
  rw [phase, Producer.Owes] at here
  subst owed
  have whole : dispatch.plan.mode.isResend = false := by
    by_contra resend
    exact (h.resend (by simpa using resend)).2 phase
  obtain ⟨_, _, _, opened, _⟩ := working.origin
  obtain ⟨_, made⟩ := UploadPlan.make_whole opened.planned whole
  have first : dispatch.plan.startPart = 0 := by rw [made]
  have now : dispatch.nextPart = UInt32.ofNat (dispatch.reports + 1) := by
    rw [working.fed.next (by rw [phase]; rfl), first, UInt32.zero_add, count]
  constructor
  · rw [List.filterMap_append, shown_of_called called, h.reports, plan, reports, reportsOf_succ,
      progress, now]
    rfl
  · rw [List.filterMap_append, (shown_silent dispatch job).1, List.append_nil, reports]
    refine ⟨0, count, ?_⟩
    rcases next with phase | phase <;> rw [phase] <;> rfl
  · intro resend
    rw [plan, whole] at resend
    contradiction

theorem step_told (called : job.callback = some callback)
    (step : Step job dispatch move more after) (working : Working job Allowed events dispatch)
    (h : Told events dispatch) : Told (events ++ more) after := by
  cases step with
  | sought phase | unsought phase | filled phase | broken phase | stalled phase | refused phase =>
    refine h.keep rfl rfl ⟨rfl, rfl⟩ (fun owed here => ?_) (by simp [leave])
    rw [phase] at here
    exact here
  | ended phase =>
    unfold endOfInput
    split <;> refine h.keep rfl rfl ⟨rfl, rfl⟩ (fun owed here => ?_) (by simp [leave]) <;>
      rw [phase] at here <;> exact here
  | queued phase _ whole => exact h.accept phase rfl rfl rfl fun _ => whole
  | resent phase => exact h.accept phase rfl rfl rfl (by simp [leave])
  | notified phase => exact h.report working called phase rfl rfl (.inl rfl)
  | deserted phase => exact h.report working called phase rfl rfl (.inr rfl)
  | aborted waiting =>
    refine h.keep rfl rfl ⟨rfl, rfl⟩ (fun owed here => ?_) (by simp [leave])
    rcases phase_of_cancellable waiting with phase | phase | ⟨_, phase⟩ | phase <;>
      rw [phase, Producer.Owes] at here <;> subst owed <;>
      simp [leave, Producer.Owes, DispatchOutcome.Owes]
  | stopped phase | unneeded phase | told phase | joined phase =>
    refine h.keep rfl rfl ⟨rfl, rfl⟩ (fun owed here => ?_) (by simp)
    rw [phase] at here
    exact here
  | @took _ _ begun =>
    have silent : (begun.toList.map Event.started).filterMap Event.reported? = [] ∧
        (begun.toList.map Event.started).filterMap Event.queued? = [] := by
      cases begun <;> exact ⟨rfl, rfl⟩
    exact h.keep rfl rfl silent (fun _ => id) id
  | finished => exact h.keep rfl rfl ⟨rfl, rfl⟩ (fun _ => id) id

theorem step_deserted (called : job.callback = some callback)
    (step : Step job dispatch move more after) (h : Deserted callback dispatch) :
    Deserted callback after := by
  cases step with
  | deserted phase crashed =>
    obtain ⟨style, effect⟩ := crash_of_report called crashed
    exact fun _ => ⟨style, dispatch.reports, rfl, effect⟩
  | ended =>
    unfold endOfInput
    split <;> exact fun gone => nomatch gone
  | sought | unsought | filled | broken | stalled | refused | queued | resent | notified | aborted
  | stopped | unneeded | told | joined => exact fun gone => nomatch gone
  | took | finished => exact h

theorem step_broken (step : Step job dispatch move more after)
    (working : Working job Allowed events dispatch) (h : Broken events dispatch) :
    Broken (events ++ more) after := by
  have keep : after.plan = dispatch.plan →
      after.producer.outcome? = dispatch.producer.outcome? → Broken (events ++ more) after := by
    intro plan same error failed
    rw [plan]
    refine (h error (same ▸ failed)).imp_right (Or.imp_right fun ⟨call, ended, crashed⟩ => ?_)
    exact ⟨call, by simp [List.filterMap_append, ended], crashed⟩
  cases step with
  | unsought _ sought =>
    obtain ⟨⟨failure, rfl, _⟩, _⟩ := Source.seekToPart_error sought
    rintro _ ⟨⟩
    exact .inl ⟨failure, rfl⟩
  | broken =>
    rintro _ ⟨⟩
    exact .inl ⟨_, rfl⟩
  | ended =>
    unfold endOfInput
    split
    · rename_i resend
      exact fun _ _ => .inr (.inl resend)
    · exact fun _ failed => nomatch failed
  | refused phase closed =>
    refine fun _ _ => .inr (.inr ?_)
    by_contra calm
    have answered : ∀ call ∈ events.filterMap Event.ended?, call.2 ≠ .crashed :=
      fun call ended crashed => calm ⟨call, by simpa using ended, crashed⟩
    have still := working.open_queue answered (by rw [phase]; rfl)
    rw [closed] at still
    contradiction
  | sought phase | filled phase | stalled phase | queued phase | notified phase | deserted phase =>
    exact fun _ failed => nomatch failed
  | resent | aborted => exact fun _ failed => nomatch failed
  | stopped phase | unneeded phase | told phase | joined phase => exact keep rfl (by rw [phase]; rfl)
  | took | finished => exact keep rfl rfl

end Reports

end Dispatch

namespace Upload

theorem Step.asks {upload next : Upload} {move : Move} {events : List Event}
    (step : Step upload move events next)
    (before : ∀ dispatch, next.stage ≠ .dispatching dispatch) :
    (∀ dispatch, upload.stage ≠ .dispatching dispatch) ∧ ∀ event ∈ events, event.Asks := by
  cases step with
  | cancelled => exact ⟨before, by simp⟩
  | entered stage | withdrawn stage | unopened stage | unplanned stage | opened stage
  | unlocated stage | located stage | unconnected stage =>
    exact ⟨fun _ => by simp [stage], by simp [Event.Asks]⟩
  | connected => exact absurd rfl (before _)
  | dispatched => exact absurd rfl (before _)

/-- Before an upload has its workers, nothing is seen of it but its questions. -/
theorem run_asks {job : UploadJob} {cancelled : Bool} {moves : List Move} {last : Upload}
    {events : List Event} (run : (begin job cancelled).run? moves = some (last, events))
    (before : ∀ dispatch, last.stage ≠ .dispatching dispatch) : ∀ event ∈ events, event.Asks := by
  have kept : StepKeeps step? (fun past upload => upload.Answered ∧
      ((∀ dispatch, upload.stage ≠ .dispatching dispatch) → ∀ event ∈ past, event.Asks))
      (fun _ => True) := by
    intro past upload move next seen ⟨answered, earlier⟩ _ stepped
    have step := step_of_step? answered.dispatch stepped
    refine ⟨(step.kept answered).2, fun unstarted event member => ?_⟩
    obtain ⟨same, asks⟩ := step.asks unstarted
    rcases List.mem_append.mp member with old | new
    · exact earlier same event old
    · exact asks event new
  rw [run?_eq] at run
  exact (run_holds kept moves _ _ _ ⟨begin_answered job cancelled, by simp⟩
    (fun _ _ => trivial) run).2 before

/-- All that is known of the reports of an upload that has its workers. -/
structure Reporting (job : UploadJob) (Allowed : Move → Prop) (callback : Callback)
    (events : List Event) (dispatch : Dispatch) : Prop where
  known : Dispatch.Known job Allowed events dispatch
  told : dispatch.Told events
  deserted : dispatch.Deserted callback
  broken : dispatch.Broken events

theorem run_reporting {job : UploadJob} {callback : Callback} {cancelled : Bool}
    {moves : List Move} {last : Upload} {events : List Event}
    (called : job.callback = some callback)
    (run : (begin job cancelled).run? moves = some (last, events)) :
    Standing job (fun move => move ∈ moves) (Reporting job (fun move => move ∈ moves) callback)
      events last := by
  refine run_standing (fun _ source plan endpoint opening opened => ?_)
    (fun _ _ _ _ _ h _ step => ?_) (fun _ => id) run
  · exact ⟨start_known opening opened, Dispatch.start_told source plan endpoint,
      (fun gone => nomatch gone), (fun _ failed => nomatch failed)⟩
  · have working := h.known.working
    exact ⟨⟨Dispatch.step_working step working, Dispatch.step_sensible step h.known.sensible⟩,
      Dispatch.step_told called step working h.told,
      Dispatch.step_deserted called step h.deserted,
      Dispatch.step_broken step working h.broken⟩

theorem Reporting.length {job : UploadJob} {Allowed : Move → Prop} {callback : Callback}
    {events : List Event} {dispatch : Dispatch}
    (h : Reporting job Allowed callback events dispatch) :
    (events.filterMap Event.reported?).length = dispatch.reports := by
  rw [h.told.reports, reportsOf, List.length_map, List.length_range]

section Told

variable {job : UploadJob} {callback : Callback} {size : UInt64} {cancelled : Bool}
  {moves : List Move} {last : Upload} {events : List Event}
  (called : job.callback = some callback)
  (run : (begin job cancelled).run? moves = some (last, events))

include run

theorem unreported_of_early (before : ∀ dispatch, last.stage ≠ .dispatching dispatch) :
    events.filterMap Event.reported? = [] ∧ events.filterMap Event.queued? = [] := by
  have asks := run_asks run before
  constructor
  all_goals
    rw [List.filterMap_eq_nil_iff]
    intro event member
    cases event with
    | askedHome | askedSession => rfl
    | queued | started | ended | reported => exact absurd (asks _ member) id

include called

/-- At any time the reports are the first ones, and one of them at most is still due. -/
theorem run_paced
    (measured : ∀ files source, .openInput files ∈ moves →
      (Source.ofInput files job.input job.limit.bytes).1 = .ok source → source.size = size) :
    let reports := events.filterMap Event.reported?
    let accepted := events.filterMap Event.queued?
    reports = reportsOf size reports.length ∧ reports.length ≤ accepted.length ∧
      accepted.length ≤ reports.length + 1 := by
  intro reports accepted
  by_cases before : ∀ dispatch, last.stage ≠ .dispatching dispatch
  · obtain ⟨untold, unqueued⟩ := unreported_of_early run before
    simp [reports, accepted, untold, unqueued, reportsOf]
  · obtain ⟨dispatch, stage⟩ := not_forall.mp before
    obtain ⟨_, here⟩ := run_reporting called run
    simp only [not_not.mp stage] at here
    obtain ⟨reporting, _⟩ := here
    obtain ⟨files, source, opening, opened, _⟩ := reporting.known.working.origin
    have sized : dispatch.plan.fileSize = size :=
      (UploadPlan.make_fileSize opened.planned).trans (measured _ _ opening opened.opened)
    obtain ⟨owed, count, owes⟩ := reporting.told.owes
    have few : owed ≤ 1 := by
      unfold Producer.Owes DispatchOutcome.Owes at owes
      split at owes
      all_goals try split at owes
      all_goals omega
    have told := reporting.told.reports
    rw [sized] at told
    have length : reports.length = dispatch.reports := reporting.length
    have taken : accepted.length = dispatch.reports + owed := count
    exact ⟨by rw [length]; exact told, by omega, by omega⟩

/-- Nothing is read while a report is due. -/
theorem paced_of_read {next : Upload} {more : List Event}
    (stepped : last.step? .read = some (next, more)) :
    (events.filterMap Event.queued?).length = (events.filterMap Event.reported?).length := by
  obtain ⟨_, here⟩ := run_reporting called run
  cases stage : last.stage with
  | dispatching dispatch =>
    simp only [stage] at here
    obtain ⟨reporting, _⟩ := here
    obtain ⟨phase, _⟩ := read_of_step stage stepped
    obtain ⟨owed, count, owes⟩ := reporting.told.owes
    rw [phase, Producer.Owes] at owes
    rw [reporting.length, count, owes, Nat.add_zero]
  | waiting | opening | locating | connecting | «over» => simp [step?, stage] at stepped

theorem unreported_of_resume (resume : job.resume ≠ none) :
    events.filterMap Event.reported? = [] := by
  by_cases before : ∀ dispatch, last.stage ≠ .dispatching dispatch
  · exact (unreported_of_early run before).1
  · obtain ⟨dispatch, stage⟩ := not_forall.mp before
    obtain ⟨_, here⟩ := run_reporting called run
    simp only [not_not.mp stage] at here
    obtain ⟨reporting, _⟩ := here
    obtain ⟨_, _, _, opened, _⟩ := reporting.known.working.origin
    have resend : dispatch.plan.mode.isResend = true := by
      rw [UploadPlan.make_mode opened.planned, UploadMode.isResend_select]
      exact Option.isSome_iff_ne_none.mpr resume
    rw [reporting.told.reports, (reporting.told.resend resend).1]
    rfl

/-- When a steady source has been read without a failure and every call was answered, each part of
it was reported. -/
theorem reported_whole {dispatch : Dispatch} {value : Except UploadError (Option FileReference)}
    (whole : job.resume = none) (stage : last.stage = .dispatching dispatch)
    (returned : last.result = some (.returned value)) (awake : last.cancelled = false)
    (answered : ∀ call ∈ events.filterMap Event.ended?, call.2 ≠ .crashed)
    (unbroken : ∀ error, dispatch.producer.outcome? ≠ some (.failed (.io error)))
    (steady : dispatch.source.stream.Steady) :
    (events.filterMap Event.reported?).length = partsFor dispatch.source.stream.content.size := by
  obtain ⟨_, here⟩ := run_reporting called run
  simp only [stage] at here
  obtain ⟨reporting, answer⟩ := here
  obtain ⟨mode, first, _⟩ := reporting.known.working.whole whole
  obtain ⟨outcome, summary, phase⟩ :=
    reporting.known.sensible.finished_of_returned mode (answer.symm.trans returned)
  have left : dispatch.producer.outcome? = some outcome := by
    rw [phase]
    rfl
  cases outcome with
  | exhausted checksum =>
    obtain ⟨owed, count, owes⟩ := reporting.told.owes
    rw [phase] at owes
    obtain ⟨_, covered⟩ := reporting.known.working.fed.covered phase first steady
    rw [reporting.length, ← covered, count, owes, Nat.add_zero]
  | resumeQueued =>
    have resend := reporting.known.sensible _ left
    rw [DispatchOutcome.Fits, mode] at resend
    contradiction
  | cancelled =>
    have wanted := (run_token run).2 (by rw [Reported, stage]; exact left)
    rw [awake] at wanted
    contradiction
  | failed error =>
    rcases reporting.broken error left with ⟨failure, rfl⟩ | resend | ⟨call, ended, crashed⟩
    · exact absurd left (unbroken failure)
    · rw [mode] at resend
      contradiction
    · exact absurd crashed (answered call ended)

theorem crashed_by_callback (crashed : last.result = some .crashed) :
    callback.style = .async ∧ ∃ k, (events.filterMap Event.reported?).length = k + 1 ∧
      callback.effect k = .crashes := by
  rcases (run_reporting called run).answer_cases crashed with
    ⟨dispatch, stage, reporting, given⟩ | ⟨_, _, _, _, refused⟩
  · rw [reporting.length]
    rcases Dispatch.answer_cases given with ⟨_, other⟩ | ⟨_, _, _, other⟩ | ⟨phase, _⟩
    · cases other
    · cases other
    · exact reporting.deserted phase
  · cases refused

end Told

end Upload

/-- The callbacks run on a thread of their own and cancel the upload at the same times. What else
they do, crashes included, is their own affair. -/
structure Callback.Beside (callback other : Callback) : Prop where
  style : callback.style = .blocking
  other_style : other.style = .blocking
  cancels : ∀ k, other.effect k = .cancels ↔ callback.effect k = .cancels

theorem Callback.Beside.alike {callback other : Callback} (beside : callback.Beside other)
    {job : UploadJob} (called : job.callback = some callback) :
    job.Alike { job with callback := some other } := by
  refine ⟨rfl, rfl, rfl, rfl, fun dispatch => ?_⟩
  have cancels := beside.cancels dispatch.reports
  unfold Dispatch.report Dispatch.notifier Notifier.notify
  simp only [called, beside.style, beside.other_style]
  cases ours : callback.effect dispatch.reports <;>
    cases theirs : other.effect dispatch.reports <;> simp [ours, theirs] at cancels ⊢

/-- What a callback is told, at any moment of any run. The reports made so far tell of the first
parts, one after the other; none is made before its part was accepted, and nothing is read while one
is due. An upload that is not cancelled, whose source gives as many bytes as it was measured to have
and whose calls are all answered, makes one report for each part, unless the callback itself takes
it along. A part that is sent again is not reported. And what a callback on a thread of its own does,
other than to cancel, makes no difference to anything. -/
theorem reports_follow_parts {job : UploadJob} {callback : Callback} {size : UInt64}
    {cancelled : Bool} {moves : List Move} {last : Upload} {events : List Event}
    (called : job.callback = some callback)
    (measured : ∀ files source, .openInput files ∈ moves →
      (Source.ofInput files job.input job.limit.bytes).1 = .ok source → source.size = size)
    (run : (Upload.begin job cancelled).run? moves = some (last, events))
    (few : (events.filterMap Event.queued?).length < 2 ^ 32) :
    let reports := events.filterMap Event.reported?
    let accepted := events.filterMap Event.queued?
    reports.map (fun report => (report.1.toNat, report.2.toNat)) =
      (List.range reports.length).map (fun k => (min ((k + 1) * partSize) size.toNat, size.toNat)) ∧
    (reports.Pairwise fun earlier later => earlier.1 ≤ later.1) ∧
    (∀ report ∈ reports, report.1 ≤ size) ∧
    reports.length ≤ accepted.length ∧ accepted.length ≤ reports.length + 1 ∧
    (∀ next more, last.step? .read = some (next, more) → accepted.length = reports.length) ∧
    (∀ dispatch value, job.resume = none → last.stage = .dispatching dispatch →
      last.result = some (.returned value) → last.cancelled = false →
      (∀ call ∈ events.filterMap Event.ended?, call.2 ≠ .crashed) →
      (∀ error, dispatch.producer.outcome? ≠ some (.failed (.io error))) →
      dispatch.source.stream.Steady → dispatch.source.stream.content.size = size.toNat →
      reports.length = partsFor size.toNat ∧
      (reports.Pairwise fun earlier later => earlier.1 < later.1) ∧
      ∀ k report, reports[k]? = some report → (report.1 = size ↔ k + 1 = reports.length)) ∧
    (last.result = some .crashed → callback.style = .async ∧
      ∃ k, reports.length = k + 1 ∧ callback.effect k = .crashes) ∧
    (job.resume ≠ none → reports = []) ∧
    ∀ other, callback.Beside other → ∃ twin,
      (Upload.begin { job with callback := some other } cancelled).run? moves =
        some (twin, events) ∧ twin.result = last.result := by
  intro reports accepted
  obtain ⟨first, behind, close⟩ := Upload.run_paced called run measured
  have told : reports = reportsOf size reports.length := first
  have fits : reports.length < 2 ^ 32 := Nat.lt_of_le_of_lt behind few
  refine ⟨?_, ?_, ?_, behind, close, fun _ _ => Upload.paced_of_read called run, ?_,
    Upload.crashed_by_callback called run, Upload.unreported_of_resume called run, ?_⟩
  · rw [← toNat_reportsOf fits, ← told]
  · rw [told]
    exact reportsOf_sorted fits
  · rw [told]
    exact fun _ => reportsOf_le
  · intro dispatch value whole stage returned awake answered unbroken steady sized
    have all := Upload.reported_whole called run whole stage returned awake answered unbroken steady
    rw [sized] at all
    obtain ⟨rising, full⟩ := reportsOf_whole all fits
    rw [← told] at rising
    exact ⟨all, rising, fun k report found => full k report (told ▸ found)⟩
  · intro other beside
    have standing := Upload.run_working (fun _ _ => trivial : ∀ move ∈ moves, True) run
    have same : last.job = job := standing.1
    have alike := beside.alike called
    have ran := Upload.run?_under alike (Upload.begin_answered job cancelled) run
    exact ⟨_, ran, Upload.under_result standing.answered (by rw [same])⟩

/-- The two reports of a full part and one byte more. A callback on a thread of its own may crash
with each of them. -/
theorem two_reports_of_two_parts :
    let quiet : Callback := ⟨.blocking, fun _ => .returns⟩
    let crashing : Callback := ⟨.blocking, fun _ => .crashes⟩
    let job := { plainJob twoPartStream with callback := some quiet }
    ∃ moves last events twin, (Upload.begin job false).run? moves = some (last, events) ∧
      (events.filterMap Event.reported?).map (fun report => (report.1.toNat, report.2.toNat)) =
        [(524288, 524289), (524289, 524289)] ∧
      (Upload.begin { job with callback := some crashing } false).run? moves =
        some (twin, events) ∧ twin.result = last.result := by
  intro quiet crashing job
  have whole : job.Whole FileSystem.empty twoParts "a" :=
    { whole_twoParts with
      returns := by
        rintro _ ⟨⟩ _
        rfl }
  obtain ⟨moves, last, events, _, run, ended, answer⟩ := Upload.exists_delivered 1 whole
  obtain ⟨⟨standing, awake⟩, delivered⟩ := ended
  obtain ⟨dispatch, stage, undisturbed, given⟩ := (standing.answer_cases answer).resolve_right
    fun ⟨_, _, _, refusal, _⟩ => whole.unrefused refusal
  obtain ⟨sum, summary, phase, _⟩ := Dispatch.exhausted_of_answer undisturbed.producer given
  have carries := undisturbed.carries
  have queued := (undisturbed.working.fed.queued_all carries undisturbed.plan phase).1
  have few : (events.filterMap Event.queued?).length < 2 ^ 32 := by
    rw [queued, wholeRequests_twoParts]
    decide
  have measured : ∀ files source, .openInput files ∈ moves →
      (Source.ofInput files job.input job.limit.bytes).1 = .ok source → source.size = 524289 := by
    intro files source _ opened
    obtain ⟨stream, _, _, same, measuring⟩ := Source.ofInput_ok opened
    obtain rfl : twoPartStream = stream := Option.some.inj same
    obtain ⟨rfl, _⟩ := Source.ofStream_ok measuring
    rw [← UInt64.toNat_inj, serves_twoParts.reported, size_twoParts]
    decide
  obtain ⟨values, _, _, _, _, _, all_told, _, _, contained⟩ :=
    reports_follow_parts rfl measured run few
  obtain ⟨all, _⟩ := all_told dispatch _ rfl stage answer awake
    (fun call member crashed => by simp [delivered call member] at crashed)
    (fun error failed => by simp [phase, Producer.outcome?] at failed)
    carries.steady (carries.holds.size.trans size_twoParts)
  have beside : quiet.Beside crashing := ⟨rfl, rfl, by simp [quiet, crashing]⟩
  obtain ⟨twin, ran, same⟩ := contained crashing beside
  refine ⟨moves, last, events, twin, run, ?_, ran, same⟩
  rw [values, all]
  rfl

end ChunkedUpload
