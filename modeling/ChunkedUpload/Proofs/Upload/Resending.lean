import ChunkedUpload.Proofs.Upload.Interrupted
import ChunkedUpload.Proofs.Upload.Token
import ChunkedUpload.Proofs.Upload.Whole
import ChunkedUpload.Uploaders

/-! A part that is sent again, with nobody to cancel it and workers that do not crash. The producer
goes straight to the part and queues the request that the upload of the whole file would send for
it; with that the caller has its answer, and the workers go on alone. -/
namespace ChunkedUpload

/-- One part of these bytes is to be sent again, under the identifier of the earlier upload. -/
structure UploadJob.Again (job : UploadJob) (files : FileSystem) (bytes : ByteArray)
    (name : String) (again : ResumePart) : Prop where
  serves : job.input.Serves files bytes name
  within : bytes.size ≤ job.limit.bytes.toNat
  few : bytes.size ≤ (2 ^ 32 - 1) * partSize
  resumes : job.resume = some again
  inside : again.part.toNat < partsFor bytes.size

def UploadPlan.ofPart (bytes : ByteArray) (again : ResumePart) : UploadPlan where
  fileId := again.fileId
  fileSize := UInt64.ofNat bytes.size
  totalParts := UInt32.ofNat (partsFor bytes.size)
  mode := .resend (decide (bigFileThreshold < bytes.size))
  startPart := again.part

theorem partsFor_inside {size i : Nat} (below : i < partsFor size) : i * partSize < size := by
  have most := ((partsFor_eq_iff size _).mp rfl).2
  have less : (i + 1) * partSize ≤ partsFor size * partSize := Nat.mul_le_mul_right _ below
  rw [Nat.succ_mul] at less
  omega

section Again

variable {job : UploadJob} {files : FileSystem} {bytes : ByteArray} {name : String}
  {again : ResumePart}

theorem UploadJob.Again.opens (h : job.Again files bytes name again) :
    ∃ source, (Source.ofInput files job.input job.limit.bytes).1 = .ok source ∧
      source.Honest bytes name ∧ source.size.toNat = bytes.size :=
  h.serves.opens (Nat.lt_of_le_of_lt (Nat.zero_le _) (partsFor_inside h.inside)) h.within

theorem UploadJob.Again.plan (h : job.Again files bytes name again) {size : UInt64}
    (sized : size.toNat = bytes.size) :
    UploadPlan.make size job.resume job.freshId = .ok (UploadPlan.ofPart bytes again) := by
  have same : size = UInt64.ofNat bytes.size := by
    rw [← sized, UInt64.ofNat_toNat]
  have inside : ¬ totalParts size ≤ again.part := by
    rw [UInt32.le_iff_toNat_le, toNat_totalParts, sized, Nat.mod_eq_of_lt (partsFor_lt h.few)]
    exact Nat.not_le_of_lt h.inside
  rw [h.resumes]
  simp only [UploadPlan.make, if_neg inside]
  simp only [UploadMode.select, UploadPlan.ofPart, isBigFile_eq sized, totalParts, sized, ← same,
    partsFor]

theorem UploadJob.Again.of_opened (h : job.Again files bytes name again) {source : Source}
    {plan : UploadPlan} (opened : Upload.Opened files job source plan) :
    source.Honest bytes name ∧ plan = UploadPlan.ofPart bytes again := by
  obtain ⟨found, opens, honest, sized⟩ := h.opens
  obtain rfl : found = source := Except.ok.inj (opens.symm.trans opened.opened)
  exact ⟨honest, Except.ok.inj (opened.planned.symm.trans (h.plan sized))⟩

end Again

/-- How far the producer has come with the only request, and what it has queued till then. -/
def Producer.Resends (request : PartRequest) (queued : List PartRequest) : Producer → Prop
  | seeking | reading => queued = []
  | queueing found => found = request ∧ queued = []
  | stopping _ .resumeQueued | joining .resumeQueued | finished .resumeQueued _ =>
    queued = [request]
  | _ => False

namespace Dispatch

/-- Where a resend is whose source is honest and whom nobody cancels. -/
structure Repeating (job : UploadJob) (Allowed : Move → Prop) (bytes : ByteArray) (name : String)
    (again : ResumePart) (events : List Event) (dispatch : Dispatch) : Prop where
  working : Working job Allowed events dispatch
  honest : dispatch.source.Honest bytes name
  plan : dispatch.plan = UploadPlan.ofPart bytes again
  producer : dispatch.producer.Resends (wholeRequest bytes again.fileId again.part.toNat)
    (events.filterMap Event.queued?)

/-- A resend that nothing has disturbed. -/
structure Resending (job : UploadJob) (files : FileSystem) (bytes : ByteArray) (name : String)
    (again : ResumePart) (events : List Event) (dispatch : Dispatch) : Prop where
  working : Working job (Move.Smooth files) events dispatch
  honest : dispatch.source.Honest bytes name
  plan : dispatch.plan = UploadPlan.ofPart bytes again
  answered : ∀ call ∈ events.filterMap Event.ended?, call.2 ≠ .crashed
  producer : dispatch.producer.Resends (wholeRequest bytes again.fileId again.part.toNat)
    (events.filterMap Event.queued?)

section Repeating

variable {job : UploadJob} {Allowed : Move → Prop} {files : FileSystem} {bytes : ByteArray}
  {name : String} {again : ResumePart} {events more : List Event} {dispatch after : Dispatch}
  {move : Move}

theorem start_repeating (h : job.Again files bytes name again) {source : Source}
    {plan : UploadPlan} (endpoint : Int32) (allowed : Allowed (.openInput files))
    (opened : Upload.Opened files job source plan) :
    Repeating job Allowed bytes name again [.askedHome, .askedSession endpoint]
      (Upload.startDispatch source plan) where
  working := start_working endpoint allowed opened
  honest := (h.of_opened opened).1
  plan := (h.of_opened opened).2
  producer := rfl

theorem Working.silent (working : Working job Allowed events dispatch)
    (nothing : events.filterMap Event.queued? = []) :
    events.filterMap Event.started? = [] ∧ events.filterMap Event.ended? = [] := by
  obtain ⟨_, _, tracked⟩ := working.tracked
  have begins := tracked.started_isPrefix
  rw [nothing, List.prefix_nil] at begins
  have calls := (Pool.run_counted tracked.followed.run).calls
  rw [← tracked.followed.started, ← tracked.followed.ended, begins, List.nil_perm] at calls
  exact ⟨begins, List.map_eq_nil_iff.mp (List.append_eq_nil_iff.mp calls).2⟩

theorem Repeating.nothing_queued (h : Repeating job Allowed bytes name again events dispatch)
    (feeding : dispatch.producer.isFeeding = true) : events.filterMap Event.queued? = [] := by
  have producer := h.producer
  cases phase : dispatch.producer with
  | seeking | reading =>
    rw [phase] at producer
    exact producer
  | queueing request =>
    rw [phase] at producer
    exact producer.2
  | stalled | notifying =>
    rw [phase] at producer
    exact producer.elim
  | stopping | joining | finished | abandoned =>
    rw [phase] at feeding
    contradiction

/-- A worker that could crash would have to have something to send first. -/
theorem Repeating.open_queue (h : Repeating job Allowed bytes name again events dispatch)
    (feeding : dispatch.producer.isFeeding = true) : dispatch.pool.queue.isClosed = false := by
  apply h.working.open_queue _ feeding
  rw [(h.working.silent (h.nothing_queued feeding)).2]
  simp

theorem Repeating.not_gives_ended (h : Repeating job Allowed bytes name again events dispatch)
    (asked : job.Again files bytes name again) (phase : dispatch.producer = .reading)
    {source : Source} : ¬ dispatch.source.Gives .ended source := by
  intro given
  have nothing := h.nothing_queued (by rw [phase]; rfl)
  have position := h.working.fed.position (by rw [phase]; rfl)
  have unmade : made events dispatch = [] := by rw [made, nothing, phase]; rfl
  have first : dispatch.plan.startPart = again.part := by rw [h.plan]; rfl
  have no_payload : payloadSize [] = 0 := rfl
  rw [unmade, first, no_payload, Nat.add_zero] at position
  cases given with
  | ended spent =>
    have behind := spent h.honest.serving.steady
    rw [h.honest.holds.size, position] at behind
    exact absurd (partsFor_inside asked.inside) (Nat.not_lt.mpr behind)

/-- What is made of the source is the request that the upload of the whole file sends. -/
theorem request_of_made (fed : Fed events dispatch) (honest : dispatch.source.Honest bytes name)
    (plan : dispatch.plan = UploadPlan.ofPart bytes again) {request : PartRequest}
    (only : made events dispatch = [request]) :
    request = wholeRequest bytes again.fileId again.part.toNat := by
  -- it is the first that was made, so it begins where the plan does
  have found : (made events dispatch)[0]? = some request := by rw [only]; rfl
  obtain ⟨same, _⟩ := fed.numbered 0 request found
  have payload := fed.sliced honest.serving.steady 0 request found
  have first : dispatch.plan.startPart = again.part := by rw [plan]; rfl
  have zero : UInt32.ofNat 0 = 0 := rfl
  rw [first, Nat.add_zero, honest.holds.slice] at payload
  rw [same, payload, first, zero, UInt32.add_zero, wholeRequest, extract_min, Nat.succ_mul,
    UInt32.ofNat_toNat, plan]
  simp only [UploadPlan.request, UploadPlan.ofPart, UploadMode.sendsBigParts, decide_eq_true_eq]

theorem step_resends (h : job.Again files bytes name again) (awake : move ≠ .abort)
    (step : Step job dispatch move more after)
    (repeating : Repeating job Allowed bytes name again events dispatch) :
    after.producer.Resends (wholeRequest bytes again.fileId again.part.toNat)
      ((events ++ more).filterMap Event.queued?) := by
  have later := step_working step repeating.working
  have producer := repeating.producer
  have resend : dispatch.plan.mode.isResend = true := by
    rw [repeating.plan]
    rfl
  rw [List.filterMap_append]
  cases step with
  | sought phase =>
    have nothing := repeating.nothing_queued (by rw [phase]; rfl)
    rw [nothing]
    rfl
  | unsought _ sought => exact absurd sought (repeating.honest.seekToPart_ne_error _ _)
  | filled phase given =>
    have nothing := repeating.nothing_queued (by rw [phase]; rfl)
    rw [nothing]
    refine ⟨request_of_made later.fed (repeating.honest.moved (Source.moved_of_gives given))
      repeating.plan ?_, rfl⟩
    rw [made, List.append_nil, nothing]
    rfl
  | ended phase given => exact absurd given (repeating.not_gives_ended h phase)
  | broken _ given => exact absurd given (repeating.honest.not_gives_failed _)
  | stalled _ given => exact absurd given repeating.honest.not_gives_pending
  | refused phase closed =>
    have open_queue := repeating.open_queue (by rw [phase]; rfl)
    rw [closed] at open_queue
    contradiction
  | queued _ _ whole =>
    rw [resend] at whole
    contradiction
  | resent phase =>
    rw [phase] at producer
    obtain ⟨rfl, nothing⟩ := producer
    rw [nothing]
    rfl
  -- a resend makes no reports
  | notified phase | deserted phase =>
    rw [phase] at producer
    exact producer.elim
  | aborted => exact absurd rfl awake
  | @stopped outcome phase | @unneeded _ outcome phase | @told _ outcome _ phase
  | @joined outcome phase =>
    rw [phase] at producer
    cases outcome with
    | resumeQueued =>
      rw [List.filterMap_nil, List.append_nil]
      exact producer
    | exhausted | cancelled | failed => exact producer.elim
  | @took _ _ begun =>
    have silent : (begun.toList.map Event.started).filterMap Event.queued? = [] := by
      cases begun <;> rfl
    rw [silent, List.append_nil]
    exact producer
  | finished =>
    rw [List.filterMap_cons_none rfl, List.filterMap_nil, List.append_nil]
    exact producer

theorem step_repeating (h : job.Again files bytes name again) (awake : move ≠ .abort)
    (step : Step job dispatch move more after)
    (repeating : Repeating job Allowed bytes name again events dispatch) :
    Repeating job Allowed bytes name again (events ++ more) after := by
  obtain ⟨plan, moved⟩ := step_moved step
  exact ⟨step_working step repeating.working, repeating.honest.moved moved,
    plan.trans repeating.plan, step_resends h awake step repeating⟩

theorem Repeating.queued_isPrefix (h : Repeating job Allowed bytes name again events dispatch) :
    events.filterMap Event.queued? <+: [wholeRequest bytes again.fileId again.part.toNat] := by
  have producer := h.producer
  unfold Producer.Resends at producer
  split at producer
  · rw [producer]
    exact List.nil_prefix
  · rw [producer]
    exact List.nil_prefix
  · rw [producer.2]
    exact List.nil_prefix
  · exact producer ▸ List.prefix_refl _
  · exact producer ▸ List.prefix_refl _
  · exact producer ▸ List.prefix_refl _
  · exact producer.elim

theorem Repeating.started_isPrefix (h : Repeating job Allowed bytes name again events dispatch) :
    events.filterMap Event.started? <+: [wholeRequest bytes again.fileId again.part.toNat] := by
  obtain ⟨_, _, tracked⟩ := h.working.tracked
  exact tracked.started_isPrefix.trans h.queued_isPrefix

theorem Repeating.answered_of_result (h : Repeating job Allowed bytes name again events dispatch)
    {result : Result} (answer : dispatch.result? job = some result) :
    result = .returned (.ok none) ∧ dispatch.producer.outcome? = some .resumeQueued := by
  have producer := h.producer
  rcases answer_cases answer with ⟨queued, given⟩ | ⟨outcome, summary, phase, given⟩ | ⟨phase, _⟩
  · exact ⟨given, queued⟩
  · rw [phase] at producer
    cases outcome with
    | resumeQueued => exact ⟨given, by rw [phase]; rfl⟩
    | exhausted | cancelled | failed => exact producer.elim
  · rw [phase] at producer
    exact producer.elim

end Repeating

section Resending

variable {job : UploadJob} {files : FileSystem} {bytes : ByteArray} {name : String}
  {again : ResumePart} {events more : List Event} {dispatch after : Dispatch} {move : Move}

theorem Resending.repeating (h : Resending job files bytes name again events dispatch) :
    Repeating job (Move.Smooth files) bytes name again events dispatch :=
  ⟨h.working, h.honest, h.plan, h.producer⟩

theorem start_resending (h : job.Again files bytes name again) {source : Source}
    {plan : UploadPlan} (endpoint : Int32) (smooth : Move.Smooth files (.openInput files))
    (opened : Upload.Opened files job source plan) :
    Resending job files bytes name again [.askedHome, .askedSession endpoint]
      (Upload.startDispatch source plan) := by
  have started := start_repeating h endpoint smooth opened
  exact ⟨started.working, started.honest, started.plan, by simp [Event.ended?], started.producer⟩

theorem step_resending (h : job.Again files bytes name again) (smooth : move.Smooth files)
    (step : Step job dispatch move more after)
    (resending : Resending job files bytes name again events dispatch) :
    Resending job files bytes name again (events ++ more) after := by
  have later := step_repeating h smooth.2.2 step resending.repeating
  refine ⟨later.working, later.honest, later.plan, ?_, later.producer⟩
  intro call member
  rw [List.filterMap_append, List.mem_append] at member
  rcases member with earlier | now
  · exact resending.answered call earlier
  · obtain ⟨worker, rfl⟩ := answer_of_step step now
    exact smooth.1

theorem Resending.delivered (h : Resending job files bytes name again events dispatch)
    {outcome : DispatchOutcome} {summary : PoolSummary}
    (phase : dispatch.producer = .finished outcome summary)
    (all : ∀ call ∈ events.filterMap Event.ended?, call.2 = .delivered) :
    (wholeRequest bytes again.fileId again.part.toNat, .delivered) ∈
      events.filterMap Event.ended? := by
  obtain ⟨_, calls, _, complete⟩ := h.working.finished phase
  have producer := h.producer
  rw [phase] at producer
  cases outcome with
  | resumeQueued =>
    rw [complete h.answered, producer] at calls
    obtain ⟨call, member, request⟩ :=
      List.mem_map.mp (calls.mem_iff.mpr (List.mem_singleton_self _))
    rw [← request, ← all call member]
    exact member
  | exhausted | cancelled | failed => exact producer.elim

end Resending

end Dispatch

namespace Upload

/-- A call that sends a part again, that was not cancelled and that nothing has disturbed. -/
def Repeats (job : UploadJob) (files : FileSystem) (bytes : ByteArray) (name : String)
    (again : ResumePart) (past : List Event) (upload : Upload) : Prop :=
  Standing job (Move.Smooth files) (Dispatch.Resending job files bytes name again) past upload ∧
  upload.cancelled = false

section Repeats

variable {job : UploadJob} {files : FileSystem} {bytes : ByteArray} {name : String}
  {again : ResumePart} {past : List Event} {upload : Upload}

theorem step_repeats (h : job.Again files bytes name again) :
    StepKeeps step? (Repeats job files bytes name again) (Move.Calm files) := by
  intro past upload move next events ⟨standing, awake⟩ calm stepped
  have smooth := smooth_of_awake awake calm (step_of_step? standing.answer stepped)
  refine ⟨step_standing ?_ ?_ past upload move next events standing smooth stepped, ?_⟩
  · intro found source plan endpoint opening opened
    obtain rfl : found = files := opening.1
    exact Dispatch.start_resending h endpoint opening opened
  · intro past dispatch move events after resending smooth step
    exact Dispatch.step_resending h smooth step resending
  · rcases token_of_step stepped with same | ⟨_, rfl | ⟨dispatch, stage, phase, _⟩⟩
    · exact same.trans awake
    · exact absurd calm id
    · obtain ⟨_, here⟩ := standing
      simp only [stage] at here
      have producer := here.1.producer
      rw [phase] at producer
      exact producer.elim

theorem Repeats.dispatch (repeats : Repeats job files bytes name again past upload)
    (h : job.Again files bytes name again) {result : Result}
    (answer : upload.result = some result) :
    ∃ dispatch, upload.stage = .dispatching dispatch ∧
      Dispatch.Resending job files bytes name again past dispatch ∧
      result = .returned (.ok none) ∧ dispatch.producer.outcome? = some .resumeQueued := by
  rcases repeats.1.answer_cases answer with
    ⟨dispatch, stage, resending, given⟩ | ⟨_, _, _, refusal, _⟩
  · exact ⟨dispatch, stage, resending, resending.repeating.answered_of_result given⟩
  · obtain ⟨source, opens, _, sized⟩ := h.opens
    exact absurd refusal (unrefused_of_planned opens (h.plan sized))

theorem Repeats.queuedResend (repeats : Repeats job files bytes name again past upload)
    (h : job.Again files bytes name again) (answered : upload.result.isSome = true) :
    Uploaders.queuedResend upload = true := by
  obtain ⟨result, answer⟩ := Option.isSome_iff_exists.mp answered
  obtain ⟨dispatch, stage, _, _, outcome⟩ := repeats.dispatch h answer
  rw [Uploaders.queuedResend, stage]
  dsimp only
  cases phase : dispatch.producer with
  | stopping left found | joining found | finished found summary =>
    rw [phase] at outcome
    cases outcome
    rfl
  | seeking | reading | stalled | queueing | notifying | abandoned =>
    rw [phase] at outcome
    cases outcome

end Repeats

end Upload

end ChunkedUpload
