import ChunkedUpload.Proofs.Upload.Background
import ChunkedUpload.Proofs.Upload.Backing
import ChunkedUpload.Proofs.Upload.Interrupted

/-! Requests and the plan they were made from. The plan comes from the size that was measured when
the source was opened, the requests from what the source gave later. Each request is for the next
part and carries the next stretch of the content, of a part at most; it fits the plan as long as the
content and the measured size agree about its part. -/
namespace ChunkedUpload

/-- The request is for a part of the plan and has as many bytes as the plan gives this part. -/
def PartRequest.Fits (request : PartRequest) (plan : UploadPlan) : Prop :=
  request.part < plan.totalParts ∧
  request.payload.size = min partSize (plan.fileSize.toNat - request.part.toNat * partSize)

instance (request : PartRequest) (plan : UploadPlan) : Decidable (request.Fits plan) :=
  inferInstanceAs (Decidable (_ ∧ _))

/-- Requests that carry one stretch of a content after the other. -/
def Stretched (content : Content) (offset : Nat) (requests : List PartRequest) : Prop :=
  ∀ i request, requests[i]? = some request → request.payload =
    content.slice (offset + payloadSize (requests.take i)) request.payload.size

section Stretched

variable {content : Content} {offset : Nat} {requests : List PartRequest}

theorem stretched_nil : Stretched content offset [] := by
  intro i request found
  cases found

theorem Stretched.of_prefix {earlier : List PartRequest} (h : Stretched content offset requests)
    (begins : earlier <+: requests) : Stretched content offset earlier := by
  obtain ⟨rest, rfl⟩ := begins
  intro i request found
  have inside := (List.getElem?_eq_some_iff.mp found).1
  have here := h i request ((List.getElem?_append_left inside).trans found)
  rwa [List.take_append_of_le_length (Nat.le_of_lt inside)] at here

theorem Stretched.snoc (h : Stretched content offset requests) {request : PartRequest}
    (next : request.payload =
      content.slice (offset + payloadSize requests) request.payload.size) :
    Stretched content offset (requests ++ [request]) := by
  apply forall_snoc
  · intro i earlier found
    have inside := (List.getElem?_eq_some_iff.mp found).1
    rw [List.take_append_of_le_length (Nat.le_of_lt inside)]
    exact h i earlier found
  · rwa [List.take_left]

theorem Stretched.size_le (h : Stretched content offset requests)
    (some_bytes : ∀ request ∈ requests, 0 < request.payload.size) :
    payloadSize requests ≤ content.size - offset := by
  cases requests using List.reverseRecOn with
  | nil => exact Nat.zero_le _
  | append_singleton earlier last =>
    have there : (earlier ++ [last])[earlier.length]? = some last := by simp
    have stretch := congrArg ByteArray.size (h earlier.length last there)
    have size := some_bytes last (by simp)
    rw [Content.size_slice, List.take_left] at stretch
    rw [payloadSize_snoc]
    omega

end Stretched

/-- A request for the part `p` that has as much of a content as lies in this part. It fits if the
content has the measured size, or if both reach as far as the end of the part. -/
theorem PartRequest.fits_iff {plan : UploadPlan} {request : PartRequest} {p size : Nat}
    (part : request.part.toNat = p)
    (cut : request.payload.size = min partSize (size - p * partSize))
    (some_bytes : 0 < request.payload.size)
    (total : plan.totalParts.toNat = partsFor plan.fileSize.toNat) :
    request.Fits plan ↔ size = plan.fileSize.toNat ∨
      (p + 1) * partSize ≤ min size plan.fileSize.toNat := by
  rw [Fits, UInt32.lt_iff_toNat_lt, part, total, cut, Nat.succ_mul]
  constructor
  · rintro ⟨_, same⟩
    omega
  · intro agree
    have inside : p * partSize < plan.fileSize.toNat := by
      have pos := partSize_pos
      omega
    exact ⟨lt_partsFor inside, by omega⟩

theorem UploadPlan.totalParts_of_few {plan : UploadPlan} {size : UInt64}
    {resume : Option ResumePart} {freshId : Int64} (made : make size resume freshId = .ok plan)
    (few : partsFor plan.fileSize.toNat < 2 ^ 32) :
    plan.totalParts.toNat = partsFor plan.fileSize.toNat := by
  rw [make_fileSize made] at few ⊢
  rw [make_totalParts made, toNat_totalParts, Nat.mod_eq_of_lt few]

theorem Source.ofInput_within {files : FileSystem} {input : Input} {limit : UInt64}
    {source : Source} (opened : (ofInput files input limit).1 = .ok source) :
    source.size ≤ limit := by
  obtain ⟨stream, _, _, _, measured⟩ := ofInput_ok opened
  obtain ⟨rfl, _, within⟩ := ofStream_ok measured
  exact within

namespace Dispatch

section Made

variable {job : UploadJob} {events more : List Event} {dispatch after : Dispatch} {move : Move}

theorem made_of_step (step : Step job dispatch move more after) (other : move ≠ .read) :
    made (events ++ more) after <+: made events dispatch := by
  cases step with
  | filled | ended | broken | stalled => exact absurd rfl other
  | sought phase | unsought phase => simp [made, leave, Producer.waiting?, phase]
  | refused phase | aborted => simp [made, leave, Producer.waiting?]
  | queued phase | resent phase =>
    simp [made, leave, Producer.waiting?, Event.queued?, phase]
  | notified phase =>
    simp [made, Producer.waiting?, phase, (shown_silent dispatch job).1]
  | deserted phase =>
    simp [made, desert, Producer.waiting?, phase, (shown_silent dispatch job).1]
  | stopped phase | unneeded phase | told phase | joined phase =>
    simp [made, Producer.waiting?, phase]
  | @took _ _ begun =>
    have unqueued : (begun.toList.map Event.started).filterMap Event.queued? = [] := by
      cases begun <;> rfl
    simp [made, unqueued]
  | finished => simp [made, Event.queued?]

/-- What the producer has made of its source are stretches of it. -/
def Cut (events : List Event) (dispatch : Dispatch) : Prop :=
  Stretched dispatch.source.stream.content (dispatch.plan.startPart.toNat * partSize)
    (made events dispatch)

theorem Cut.keep (cut : Cut events dispatch) (plan : after.plan = dispatch.plan)
    (content : after.source.stream.content = dispatch.source.stream.content)
    (begins : made (events ++ more) after <+: made events dispatch) :
    Cut (events ++ more) after := by
  rw [Cut, plan, content]
  exact Stretched.of_prefix cut begins

theorem Cut.read (cut : Cut events dispatch) (fed : Fed events dispatch)
    (phase : dispatch.producer = .reading) : Cut (events ++ []) dispatch.read := by
  have step : dispatch.producer.isInStep = true := by rw [phase]; rfl
  have before : made events dispatch = _ := made_of_none (by rw [phase]; rfl)
  have given := dispatch.source.readPart_gives
  unfold Dispatch.read
  split <;> rename_i found <;> rw [found] at given <;>
    have content := (Source.moved_of_gives given).content
  · rename_i payload source
    have stretch := Source.readPart_stretch found
    rw [fed.position step] at stretch
    have more : Stretched dispatch.source.stream.content
        (dispatch.plan.startPart.toNat * partSize)
        (made events dispatch ++ [dispatch.plan.request dispatch.nextPart payload]) :=
      Stretched.snoc cut stretch
    rw [before, ← content] at more
    rw [List.append_nil]
    exact more
  · unfold endOfInput
    split <;> exact cut.keep rfl content (by simp [made, leave, Producer.waiting?])
  · exact cut.keep rfl content (by simp [made, leave, Producer.waiting?])
  · exact cut.keep rfl content (by simp [made, Producer.waiting?])

end Made

end Dispatch

namespace Upload

variable {job : UploadJob} {Allowed : Move → Prop}

theorem step_cut : StepKeeps step? (fun past upload =>
    Standing job Allowed (Dispatch.Working job Allowed) past upload ∧
    ∀ dispatch, upload.stage = .dispatching dispatch → Dispatch.Cut past dispatch) Allowed := by
  intro past upload move next seen ⟨standing, cut⟩ allowed stepped
  have after := step_standing
    (fun _ _ _ endpoint opening opened => Dispatch.start_working endpoint opening opened)
    (fun _ _ _ _ _ working _ step => Dispatch.step_working step working) _ _ _ _ _ standing
    allowed stepped
  refine ⟨after, fun dispatch stage => ?_⟩
  have step := step_of_step? standing.answer stepped
  cases step with
  | cancelled =>
    rw [List.append_nil]
    exact cut dispatch stage
  | entered | withdrawn | unopened | unplanned | opened | unlocated | located | unconnected =>
    cases stage
  | @connected source plan endpoint before =>
    cases stage
    obtain ⟨rfl, here⟩ := standing
    simp only [before] at here
    obtain ⟨rfl, _⟩ := here
    exact stretched_nil
  | @dispatched earlier after _ _ _ before step =>
    cases stage
    by_cases reads : move = .read
    · subst reads
      obtain ⟨phase, _, rfl, same⟩ := read_of_step before stepped
      cases (Stage.dispatching.inj (congrArg Upload.stage same))
      obtain ⟨rfl, here⟩ := standing
      simp only [before] at here
      exact (cut _ before).read here.1.fed phase
    · obtain ⟨plan, moved⟩ := Dispatch.step_moved step
      exact (cut _ before).keep plan moved.content (Dispatch.made_of_step step reads)

theorem run_cut {cancelled : Bool} {moves : List Move} {last : Upload} {events : List Event}
    (allowed : ∀ move ∈ moves, Allowed move)
    (run : (begin job cancelled).run? moves = some (last, events)) :
    Standing job Allowed (Dispatch.Working job Allowed) events last ∧
    ∀ dispatch, last.stage = .dispatching dispatch → Dispatch.Cut events dispatch := by
  have fresh : Standing job Allowed (Dispatch.Working job Allowed) [] (begin job cancelled) :=
    ⟨rfl, rfl, rfl⟩
  rw [run?_eq] at run
  exact run_holds step_cut moves _ _ _ ⟨fresh, by simp [begin]⟩ allowed run

theorem sent_once {cancelled : Bool} {moves : List Move} {last : Upload} {events : List Event}
    (run : (begin job cancelled).run? moves = some (last, events))
    (again : job.resume.isSome = true) : (events.filterMap Event.started?).length ≤ 1 := by
  apply (run_queuedOnce run).started fun sent => sent.length ≤ 1
  · exact Nat.zero_le 1
  · rintro dispatch ⟨known, once⟩
    obtain ⟨_, _, tracked⟩ := known.working.tracked
    have few := tracked.started_isPrefix.length_le
    have queued := once (known.working.isResend.trans again)
    split at queued
    · obtain ⟨request, one⟩ := queued
      rwa [one] at few
    · rw [queued] at few
      exact Nat.le_trans few (Nat.zero_le 1)

end Upload

def Upload.plan? (upload : Upload) : Option UploadPlan :=
  match upload.stage with
  | .dispatching dispatch => some dispatch.plan
  | _ => none

theorem Upload.stage_of_plan {upload : Upload} {plan : UploadPlan}
    (planned : upload.plan? = some plan) :
    ∃ dispatch, upload.stage = .dispatching dispatch ∧ dispatch.plan = plan := by
  unfold plan? at planned
  split at planned
  · rename_i dispatch stage
    exact ⟨dispatch, stage, Option.some.inj planned⟩
  · contradiction

/-- What an upload sends, whatever its source says about its size. Each request is for the next part
of its plan and carries the next stretch of the content. It fits the plan just in case the content
has the size that was measured or both reach as far as the end of its part, if the source gives some
bytes with each read while it has more. So the bytes sent are within the limit as long as the
content is, and nothing but the content holds them back. -/
theorem requests_fit_iff (job : UploadJob) (cancelled : Bool) (moves : List Move) (last : Upload)
    (events : List Event) (run : (Upload.begin job cancelled).run? moves = some (last, events)) :
    let sent := events.filterMap Event.started?
    ((∀ dispatch, last.stage ≠ .dispatching dispatch) → sent = []) ∧
    ∀ dispatch, last.stage = .dispatching dispatch →
      let plan := dispatch.plan
      let content := dispatch.source.stream.content
      let first := plan.startPart.toNat
      (∀ stream name, job.input = .stream stream name →
        content = stream.content ∧ dispatch.source.stream.reply = stream.reply ∧
        plan.fileSize = stream.reportedSize) ∧
      plan.fileSize ≤ job.limit.bytes ∧ payloadSize sent ≤ content.size - first * partSize ∧
      (job.resume = none → plan.startPart = 0) ∧
      (job.resume.isSome = true → sent.length ≤ 1 ∧ plan.startPart < plan.totalParts) ∧
      ∀ i request, sent[i]? = some request →
        request = plan.request (plan.startPart + UInt32.ofNat i) request.payload ∧
        0 < request.payload.size ∧ request.payload.size ≤ partSize ∧
        request.payload = content.slice (first * partSize + payloadSize (sent.take i))
          request.payload.size ∧
        (dispatch.source.stream.Steady →
          partsFor content.size < 2 ^ 32 → partsFor plan.fileSize.toNat < 2 ^ 32 →
          (request.Fits plan ↔ content.size = plan.fileSize.toNat ∨
            (first + i + 1) * partSize ≤ min content.size plan.fileSize.toNat)) := by
  intro sent
  obtain ⟨standing, cut⟩ := Upload.run_cut (fun _ _ => trivial : ∀ move ∈ moves, True) run
  refine ⟨standing.unstarted, fun dispatch stage => ?_⟩
  intro plan content first
  obtain ⟨_, here⟩ := standing
  simp only [stage] at here
  obtain ⟨working, _⟩ := here
  have begins : sent <+: Dispatch.made events dispatch := working.started_isPrefix
  have numbered : Numbered plan sent := forall_prefix begins working.fed.numbered
  have stretched := Stretched.of_prefix (cut dispatch stage) begins
  obtain ⟨files, source, _, opened, moved⟩ := working.origin
  have measured := UploadPlan.make_fileSize opened.planned
  refine ⟨fun stream name given => ?_, ?_, ?_, fun whole => (working.whole whole).2.1,
    fun again => ⟨?_, ?_⟩, fun i request found => ?_⟩
  · have found := opened.opened
    rw [given] at found
    obtain ⟨rfl, _⟩ := Source.ofStream_ok found
    exact ⟨moved.content, moved.reply, measured⟩
  · rw [show plan.fileSize = source.size from measured]
    exact Source.ofInput_within opened.opened
  · apply stretched.size_le
    intro request member
    obtain ⟨i, found⟩ := List.mem_iff_getElem?.mp member
    exact (numbered i request found).2.1
  · exact Upload.sent_once run again
  · exact UploadPlan.make_startPart_lt opened.planned (working.isResend.trans again)
  · obtain ⟨same, some_bytes, most⟩ := numbered i request found
    refine ⟨same, some_bytes, most, stretched i request found, fun steady few planned => ?_⟩
    have slice := forall_prefix begins (working.fed.sliced steady) i request found
    have size : request.payload.size = min partSize (content.size - (first + i) * partSize) :=
      (congrArg ByteArray.size slice).trans (Content.size_slice _ _ _)
    have inside : (first + i) * partSize < content.size := by omega
    have place : first + i < 2 ^ 32 := Nat.lt_trans (lt_partsFor inside) few
    have part : request.part.toNat = first + i := by
      have number := congrArg (fun request => request.part.toNat) same
      simp only [UploadPlan.request, UInt32.toNat_add, UInt32.toNat_ofNat'] at number
      omega
    exact PartRequest.fits_iff part size some_bytes
      (UploadPlan.totalParts_of_few opened.planned planned)

/-- A stream of a full part and one byte more, which is what it reports. -/
theorem two_parts_fit :
    let stream := twoPartStream
    ∃ moves last events dispatch,
      (Upload.begin (plainJob stream) false).run? moves = some (last, events) ∧
      last.stage = .dispatching dispatch ∧
      (events.filterMap Event.started?).map PartRequest.part = [0, 1] ∧
      ∀ request ∈ events.filterMap Event.started?, request.Fits dispatch.plan := by
  intro stream
  obtain ⟨moves, last, events, _, run, ended, answer⟩ := Upload.exists_delivered 1 whole_twoParts
  obtain ⟨sent, _, _⟩ := ended.1.finished whole_twoParts answer
  have standing := Upload.run_working (fun _ _ => trivial : ∀ move ∈ moves, True) run
  obtain ⟨dispatch, _, _, stage, _⟩ := standing.dispatch_of_reference answer
  obtain ⟨_, working⟩ := requests_fit_iff (plainJob stream) false moves last events run
  obtain ⟨given, _, _, _, _, each⟩ := working dispatch stage
  obtain ⟨content, reply, reported⟩ := given stream (some "a") rfl
  have size : dispatch.source.stream.content.size = partSize + 1 := congrArg Content.size content
  have planned : dispatch.plan.fileSize.toNat = partSize + 1 := by
    rw [reported]
    exact serves_twoParts.reported.trans size_twoParts
  have steady : dispatch.source.stream.Steady := by
    rw [Stream.Steady, reply]
    exact serves_twoParts.serving.steady
  refine ⟨moves, last, events, dispatch, run, stage, ?_, fun request member => ?_⟩
  · rw [sent, wholeRequests_twoParts]
    rfl
  · obtain ⟨i, found⟩ := List.mem_iff_getElem?.mp member
    obtain ⟨_, _, _, _, fits⟩ := each i request found
    rw [size, planned] at fits
    exact (fits steady (by decide) (by decide)).mpr (.inl rfl)

/-- A stream that has grown since it was measured: the only part that was planned has one byte, two
are sent, and the limit is one. -/
theorem grown_stream_misfits :
    let stream := { Stream.ofBytes ⟨#[65, 66]⟩ with reportedSize := 1 }
    let job : UploadJob := { plainJob stream with limit := .fixed 1 }
    ∃ last events dispatch,
      (Upload.begin job false).run? onePartMoves = some (last, events) ∧
      last.stage = .dispatching dispatch ∧
      (∃ request ∈ events.filterMap Event.started?, ¬ request.Fits dispatch.plan) ∧
      job.limit.bytes.toNat < payloadSize (events.filterMap Event.started?) := by
  intro stream job
  have outcome : (((Upload.begin job false).run? onePartMoves).bind fun ran =>
      ran.1.plan?.map fun plan => (plan, ran.2.filterMap Event.started?)) =
      some (⟨7, 1, 1, .small, 0⟩, [⟨7, 0, none, ⟨#[65, 66]⟩⟩]) := by decide +kernel
  obtain ⟨⟨last, events⟩, run, later⟩ := Option.bind_eq_some_iff.mp outcome
  obtain ⟨plan, planned, same⟩ := Option.map_eq_some_iff.mp later
  obtain ⟨rfl, sent⟩ := Prod.mk.inj same
  obtain ⟨dispatch, stage, plan⟩ := Upload.stage_of_plan planned
  refine ⟨last, events, dispatch, run, stage, ?_, ?_⟩
  · rw [sent, plan]
    exact ⟨_, List.mem_singleton_self _, by decide⟩
  · rw [sent]
    decide

end ChunkedUpload
