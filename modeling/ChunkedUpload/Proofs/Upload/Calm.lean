import ChunkedUpload.Proofs.Plan
import ChunkedUpload.Proofs.Upload.Feeding

/-! The upload of a whole file that nothing disturbs: the source gives what it reports, nobody
cancels, there is a session, and every call of it is answered. Such an upload leaves its loop at the
end of its source and in no other way. -/
namespace ChunkedUpload

/-- The stream gives these bytes, in whatever pieces, tells how many they are and never fails. -/
structure Stream.Serves (stream : Stream) (bytes : ByteArray) : Prop where
  holds : stream.content.Holds bytes
  reported : stream.reportedSize.toNat = bytes.size
  serving : stream.Serving
  seeking : ∀ number, stream.seekFailure number = none

theorem Stream.serves_ofBytes {bytes : ByteArray} (small : bytes.size < 2 ^ 64) :
    (ofBytes bytes).Serves bytes where
  holds := Content.holds_ofBytes bytes
  reported := UInt64.toNat_ofNat_of_lt' small
  serving := serving_ofContent (Content.ofBytes bytes)
  seeking := fun _ => rfl

/-- The input gives these bytes under this name. -/
inductive Input.Serves (files : FileSystem) : Input → ByteArray → String → Prop
  | path {path : Path} {handle : ByteArray → Stream} {stream : Stream} {bytes : ByteArray}
      (found : Source.openPath files path handle = .ok stream) (serves : stream.Serves bytes) :
      Serves files (.path path handle) bytes (Source.nameOf path)
  | stream {stream : Stream} {name : Option String} {bytes : ByteArray}
      (serves : stream.Serves bytes) :
      Serves files (.stream stream name) bytes (name.getD Source.defaultName)

/-- The upload of a whole file within the limits, with a callback that returns if there is one. -/
structure UploadJob.Whole (job : UploadJob) (files : FileSystem) (bytes : ByteArray)
    (name : String) : Prop where
  serves : job.input.Serves files bytes name
  some_bytes : 0 < bytes.size
  within : bytes.size ≤ job.limit.bytes.toNat
  few : bytes.size ≤ (2 ^ 32 - 1) * partSize
  whole : job.resume = none
  returns : ∀ callback, job.callback = some callback → ∀ number, callback.effect number = .returns

/-- What may happen to an upload that nothing disturbs. -/
def Move.Calm (files : FileSystem) : Move → Prop
  | openInput found => found = files
  | locate answer => ∃ endpoint, answer = .ok endpoint
  | connect answer => answer = .ok ()
  | finish _ reply => reply ≠ .crashed
  | cancel => False
  | _ => True

/-- Calm, and no move of a cancelled upload. -/
def Move.Smooth (files : FileSystem) (move : Move) : Prop :=
  move.Calm files ∧ move ≠ .withdraw ∧ move ≠ .abort

/-- The source has these bytes and this name, and never fails. -/
structure Source.Honest (source : Source) (bytes : ByteArray) (name : String) : Prop where
  holds : source.stream.content.Holds bytes
  serving : source.stream.Serving
  seeking : ∀ number, source.stream.seekFailure number = none
  name : source.name = name

theorem Source.Honest.moved {source after : Source} {bytes : ByteArray} {name : String}
    (honest : source.Honest bytes name) (moved : source.Moved after) : after.Honest bytes name where
  holds := by rw [moved.content]; exact honest.holds
  serving := by rw [Stream.Serving, moved.reply]; exact honest.serving
  seeking := by rw [moved.seekFailure]; exact honest.seeking
  name := moved.name.trans honest.name

section Honest

variable {source after : Source} {bytes : ByteArray} {name : String}

theorem Source.Honest.seekToPart_ne_error (honest : source.Honest bytes name) (part : UInt32)
    (error : UploadError) : source.seekToPart part ≠ (.error error, after) := by
  intro sought
  obtain ⟨⟨failure, _, fails⟩, _⟩ := Source.seekToPart_error sought
  rw [honest.seeking] at fails
  contradiction

theorem Source.Honest.not_gives_failed (honest : source.Honest bytes name) (error : IoError) :
    ¬ source.Gives (.failed error) after := by
  intro given
  cases given with
  | failed answered =>
    obtain ⟨number, place, fails⟩ := answered
    obtain ⟨count, _, served⟩ := honest.serving number place
    cases served.symm.trans fails

theorem Source.Honest.not_gives_pending (honest : source.Honest bytes name) :
    ¬ source.Gives .pending after := by
  intro given
  cases given with
  | pending answered =>
    obtain ⟨number, place, hangs⟩ := answered
    obtain ⟨count, _, served⟩ := honest.serving number place
    cases served.symm.trans hangs

end Honest

def UploadPlan.ofBytes (bytes : ByteArray) (fileId : Int64) : UploadPlan where
  fileId := fileId
  fileSize := UInt64.ofNat bytes.size
  totalParts := UInt32.ofNat (partsFor bytes.size)
  mode := if bigFileThreshold < bytes.size then .big else .small
  startPart := 0

theorem UploadPlan.whole_ofBytes (bytes : ByteArray) (fileId : Int64) :
    (ofBytes bytes fileId).mode.isResend = false := by
  unfold ofBytes
  split <;> rfl

section Whole

variable {job : UploadJob} {files : FileSystem} {bytes : ByteArray} {name : String}

theorem Stream.Serves.opens {stream : Stream} (serves : stream.Serves bytes) (name : String)
    (owned : Bool) {limit : UInt64} (some_bytes : 0 < bytes.size)
    (within : bytes.size ≤ limit.toNat) :
    ∃ source, (Source.ofStream stream name owned limit).1 = .ok source ∧
      source.Honest bytes name ∧ source.size.toNat = bytes.size := by
  obtain ⟨holds, reported, serving, seeking⟩ := serves
  have positive : stream.reportedSize ≠ 0 := by
    intro zero
    rw [zero] at reported
    exact absurd reported.symm (Nat.ne_of_gt some_bytes)
  have inside : stream.reportedSize ≤ limit := by
    rw [UInt64.le_iff_toNat_le, reported]
    exact within
  exact ⟨_, Source.ofStream_opens seeking positive inside name owned,
    ⟨holds, serving, seeking, rfl⟩, reported⟩

theorem Stream.Serves.of_opened {stream : Stream} (serves : stream.Serves bytes) {owned : Bool}
    {limit : UInt64} {source : Source}
    (opened : (Source.ofStream stream name owned limit).1 = .ok source) :
    source.Honest bytes name ∧ source.size.toNat = bytes.size ∧ 0 < bytes.size := by
  obtain ⟨rfl, some_bytes, _⟩ := Source.ofStream_ok opened
  refine ⟨⟨serves.holds, serves.serving, serves.seeking, rfl⟩, serves.reported, ?_⟩
  rw [← serves.reported]
  exact Nat.pos_of_ne_zero fun zero => some_bytes (UInt64.toNat_inj.mp zero)

theorem Input.Serves.opens {input : Input} {limit : UInt64}
    (serves : input.Serves files bytes name) (some_bytes : 0 < bytes.size)
    (within : bytes.size ≤ limit.toNat) :
    ∃ source, (Source.ofInput files input limit).1 = .ok source ∧ source.Honest bytes name ∧
      source.size.toNat = bytes.size := by
  cases serves with
  | path found serves =>
    simpa only [Source.ofInput, found] using serves.opens _ true some_bytes within
  | stream serves => exact serves.opens _ false some_bytes within

theorem Input.Serves.of_opened {input : Input} {limit : UInt64} {source : Source}
    (serves : input.Serves files bytes name)
    (opened : (Source.ofInput files input limit).1 = .ok source) :
    source.Honest bytes name ∧ source.size.toNat = bytes.size ∧ 0 < bytes.size := by
  cases serves with
  | path found serves =>
    simp only [Source.ofInput, found] at opened
    exact serves.of_opened opened
  | stream serves => exact serves.of_opened opened

theorem UploadJob.Whole.opens (whole : job.Whole files bytes name) :
    ∃ source, (Source.ofInput files job.input job.limit.bytes).1 = .ok source ∧
      source.Honest bytes name ∧ source.size.toNat = bytes.size :=
  whole.serves.opens whole.some_bytes whole.within

theorem isBigFile_eq {size : UInt64} (sized : size.toNat = bytes.size) :
    isBigFile size = decide (bigFileThreshold < bytes.size) := by
  rw [isBigFile, sized]

theorem UploadPlan.make_ofBytes {size : UInt64} (sized : size.toNat = bytes.size)
    (freshId : Int64) : make size none freshId = .ok (ofBytes bytes freshId) := by
  have same : size = UInt64.ofNat bytes.size := by
    rw [← sized, UInt64.ofNat_toNat]
  simp only [make, UploadMode.select, ofBytes, isBigFile_eq sized, ChunkedUpload.totalParts, sized,
    ← same, partsFor, decide_eq_true_eq]

theorem UploadJob.Whole.plan (whole : job.Whole files bytes name) {size : UInt64}
    (sized : size.toNat = bytes.size) :
    UploadPlan.make size job.resume job.freshId = .ok (UploadPlan.ofBytes bytes job.freshId) := by
  rw [whole.whole]
  exact UploadPlan.make_ofBytes sized job.freshId

theorem UploadJob.Whole.of_opened (whole : job.Whole files bytes name) {source : Source}
    {plan : UploadPlan} (opened : Upload.Opened files job source plan) :
    source.Honest bytes name ∧ plan = UploadPlan.ofBytes bytes job.freshId := by
  obtain ⟨found, opens, honest, sized⟩ := whole.opens
  obtain rfl : found = source := Except.ok.inj (opens.symm.trans opened.opened)
  exact ⟨honest, Except.ok.inj (opened.planned.symm.trans (whole.plan sized))⟩

theorem UploadJob.Whole.report (whole : job.Whole files bytes name) (dispatch : Dispatch) :
    (dispatch.report job).effect = .returns := by
  unfold Dispatch.report Notifier.notify Dispatch.notifier
  cases callback : job.callback with
  | none => rfl
  | some called =>
    simp only [whole.returns called callback]
    cases called.style <;> rfl

theorem Upload.moves_of_awake {upload next : Upload} {move : Move} {events : List Event}
    (awake : upload.cancelled = false) (step : Upload.Step upload move events next) :
    move ≠ .withdraw ∧ move ≠ .abort := by
  constructor
  · rintro rfl
    cases step with
    | withdrawn _ wanted =>
      rw [awake] at wanted
      contradiction
    | dispatched _ step => cases step
  · rintro rfl
    cases step with
    | dispatched _ _ _ aborts =>
      have cancelled := aborts rfl
      rw [awake] at cancelled
      contradiction

theorem Upload.smooth_of_awake {upload next : Upload} {move : Move} {events : List Event}
    (awake : upload.cancelled = false) (calm : move.Calm files)
    (step : Upload.Step upload move events next) : move.Smooth files :=
  ⟨calm, moves_of_awake awake step⟩

theorem Upload.Refusal.mono {Allowed Other : Move → Prop} {error : UploadError}
    (refusal : Refusal job Allowed error)
    (kept : ∀ move, (∀ worker reply, move ≠ .finish worker reply) → Allowed move → Other move) :
    Refusal job Other error := by
  cases refusal with
  | withdrawn allowed => exact .withdrawn (kept _ (by simp) allowed)
  | unopened allowed failed => exact .unopened (kept _ (by simp) allowed) failed
  | unplanned allowed opened failed => exact .unplanned (kept _ (by simp) allowed) opened failed
  | unlocated allowed => exact .unlocated (kept _ (by simp) allowed)
  | unconnected allowed => exact .unconnected (kept _ (by simp) allowed)

theorem Upload.unrefused_of_planned {source : Source} {plan : UploadPlan}
    (opens : (Source.ofInput files job.input job.limit.bytes).1 = .ok source)
    (planned : UploadPlan.make source.size job.resume job.freshId = .ok plan)
    {error : UploadError} : ¬ Upload.Refusal job (Move.Smooth files) error := by
  intro refusal
  cases refusal with
  | withdrawn smooth => exact smooth.2.1 rfl
  | unopened smooth failed =>
    obtain rfl := smooth.1
    cases opens.symm.trans failed
  | unplanned smooth opened failed =>
    obtain rfl := smooth.1
    cases opens.symm.trans opened
    cases failed.symm.trans planned
  | unlocated smooth =>
    obtain ⟨_, located⟩ := smooth.1
    cases located
  | unconnected smooth => cases smooth.1

theorem UploadJob.Whole.unrefused (whole : job.Whole files bytes name) {error : UploadError} :
    ¬ Upload.Refusal job (Move.Smooth files) error := by
  obtain ⟨found, opens, _, sized⟩ := whole.opens
  exact Upload.unrefused_of_planned opens (whole.plan sized)

end Whole

/-- Whether nothing has gone wrong with the producer. -/
def Producer.isUndisturbed : Producer → Bool
  | stalled | abandoned => false
  | stopping _ (.exhausted _) | joining (.exhausted _) | finished (.exhausted _) _ => true
  | stopping _ _ | joining _ | finished _ _ => false
  | seeking | reading | queueing _ | notifying => true

theorem Producer.exhausted_of_undisturbed {producer : Producer} {outcome : DispatchOutcome}
    (undisturbed : producer.isUndisturbed = true) (left : producer.outcome? = some outcome) :
    ∃ sum, outcome = .exhausted sum := by
  cases producer with
  | seeking | reading | stalled | queueing | notifying | abandoned => cases left
  | stopping | joining | finished =>
    cases left
    cases outcome with
    | exhausted sum => exact ⟨sum, rfl⟩
    | resumeQueued | cancelled | failed => contradiction

namespace Dispatch

/-- An upload with its workers that nothing has disturbed. -/
structure Undisturbed (job : UploadJob) (files : FileSystem) (bytes : ByteArray) (name : String)
    (events : List Event) (dispatch : Dispatch) : Prop where
  working : Working job (Move.Smooth files) events dispatch
  honest : dispatch.source.Honest bytes name
  plan : dispatch.plan = UploadPlan.ofBytes bytes job.freshId
  answered : ∀ call ∈ events.filterMap Event.ended?, call.2 ≠ .crashed
  producer : dispatch.producer.isUndisturbed = true

section Undisturbed

variable {job : UploadJob} {files : FileSystem} {bytes : ByteArray} {name : String}
  {events more : List Event} {dispatch after : Dispatch} {move : Move}

theorem start_undisturbed (whole : job.Whole files bytes name) {source : Source}
    {plan : UploadPlan} (endpoint : Int32) (smooth : Move.Smooth files (.openInput files))
    (opened : Upload.Opened files job source plan) :
    Undisturbed job files bytes name [.askedHome, .askedSession endpoint]
      (Upload.startDispatch source plan) where
  working := start_working endpoint smooth opened
  honest := (whole.of_opened opened).1
  plan := (whole.of_opened opened).2
  answered := by simp [Event.ended?]
  producer := rfl

/-- As long as the producer feeds its workers and none of them crashes, one is left. -/
theorem Working.open_queue {Allowed : Move → Prop} (h : Working job Allowed events dispatch)
    (answered : ∀ call ∈ events.filterMap Event.ended?, call.2 ≠ .crashed)
    (feeding : dispatch.producer.isFeeding = true) : dispatch.pool.queue.isClosed = false := by
  obtain ⟨log, sent, tracked⟩ := h.tracked
  obtain ⟨rfl, connected⟩ := tracked.feeding feeding
  have run := tracked.followed.run
  rw [(Pool.run_staffed run).closed]
  by_contra gone
  have stopped : dispatch.pool.isStopped = true := by simpa using gone
  rw [tracked.followed.ended] at answered
  obtain ⟨sent, _⟩ := Pool.stopped_without_crash run stopped connected tracked.accepted
    (Nat.zero_le _) answered
  omega

theorem Undisturbed.open_queue (h : Undisturbed job files bytes name events dispatch)
    (feeding : dispatch.producer.isFeeding = true) : dispatch.pool.queue.isClosed = false :=
  h.working.open_queue h.answered feeding

theorem answer_of_step (step : Step job dispatch move more after) {call : PartRequest × Reply}
    (ended : call ∈ more.filterMap Event.ended?) : ∃ worker, move = .finish worker call.2 := by
  cases step with
  | @finished worker reply pool request =>
    obtain rfl : call = (request, reply) := by simpa [Event.ended?] using ended
    exact ⟨worker, rfl⟩
  | @took worker pool begun => cases begun <;> simp [Event.ended?] at ended
  | notified | deserted => simp [(shown_silent dispatch job).2.2] at ended
  | sought | unsought | filled | ended | broken | stalled | refused | aborted | stopped | unneeded
  | told | joined | queued | resent => simp [Event.ended?] at ended

theorem step_producer (whole : job.Whole files bytes name) (smooth : move.Smooth files)
    (step : Step job dispatch move more after)
    (h : Undisturbed job files bytes name events dispatch) :
    after.producer.isUndisturbed = true := by
  have resend : dispatch.plan.mode.isResend = false := by
    rw [h.plan]
    exact UploadPlan.whole_ofBytes bytes job.freshId
  have producer := h.producer
  cases step with
  | unsought _ sought => exact absurd sought (h.honest.seekToPart_ne_error _ _)
  | ended phase =>
    unfold endOfInput
    rw [if_neg (by simpa using resend)]
    rfl
  | broken _ given => exact absurd given (h.honest.not_gives_failed _)
  | stalled _ given => exact absurd given h.honest.not_gives_pending
  | refused phase closed =>
    have open_queue := h.open_queue (by rw [phase]; rfl)
    rw [closed] at open_queue
    contradiction
  | resent _ _ again =>
    rw [resend] at again
    contradiction
  | deserted _ crashed =>
    rw [whole.report] at crashed
    contradiction
  | aborted => exact absurd rfl smooth.2.2
  | sought | filled | queued | notified => rfl
  | @stopped outcome phase | @unneeded _ outcome phase | @told _ outcome _ phase
  | @joined outcome phase =>
    rw [phase] at producer
    cases outcome <;> exact producer
  | took | finished => exact producer

theorem step_undisturbed (whole : job.Whole files bytes name) (smooth : move.Smooth files)
    (step : Step job dispatch move more after)
    (h : Undisturbed job files bytes name events dispatch) :
    Undisturbed job files bytes name (events ++ more) after := by
  obtain ⟨same_plan, moved⟩ := step_moved step
  refine ⟨step_working step h.working, h.honest.moved moved, same_plan.trans h.plan, ?_,
    step_producer whole smooth step h⟩
  intro call member
  rw [List.filterMap_append, List.mem_append] at member
  rcases member with earlier | now
  · exact h.answered call earlier
  · obtain ⟨worker, rfl⟩ := answer_of_step step now
    exact smooth.1

end Undisturbed

end Dispatch

namespace Upload

theorem ended_of_step {upload next : Upload} {move : Move} {events : List Event}
    (step : Step upload move events next) {call : PartRequest × Reply}
    (ended : call ∈ events.filterMap Event.ended?) : ∃ worker, move = .finish worker call.2 := by
  cases step with
  | dispatched _ step => exact Dispatch.answer_of_step step ended
  | cancelled | entered | withdrawn | unopened | unplanned | opened | unlocated | located
  | unconnected | connected => simp [Event.ended?] at ended

end Upload

end ChunkedUpload
