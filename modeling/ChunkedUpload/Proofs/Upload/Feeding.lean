import ChunkedUpload.Proofs.Checksum
import ChunkedUpload.Proofs.Upload.Workers
import Mathlib.Algebra.GroupWithZero.Nat
import Mathlib.Data.List.Induction

/-! What the producer makes of its source. The requests it queues are numbered one after the other,
their payloads together are what was read, and a source that is read to its end has been cut into
full parts, but for the last one. -/
namespace ChunkedUpload

namespace Producer

def waiting? : Producer → Option PartRequest
  | queueing request => some request
  | _ => none

def outcome? : Producer → Option DispatchOutcome
  | stopping _ outcome | joining outcome | finished outcome _ => some outcome
  | _ => none

/-- Whether all that was read has been made into parts. -/
def isInStep : Producer → Bool
  | reading | queueing _ | notifying => true
  | stopping _ (.exhausted _) | joining (.exhausted _) | finished (.exhausted _) _ => true
  | _ => false

theorem isInStep_of_outcome {producer : Producer} {checksum : Option String}
    (outcome : producer.outcome? = some (.exhausted checksum)) : producer.isInStep = true := by
  cases producer with
  | seeking | reading | stalled | queueing | notifying | abandoned => cases outcome
  | stopping | joining | finished => cases outcome; rfl

end Producer

/-- A caller has its answer when the part of its resend is queued, when its workers have ended, or
when its callback has crashed. -/
theorem Dispatch.answer_cases {job : UploadJob} {dispatch : Dispatch} {result : Result}
    (answer : dispatch.result? job = some result) :
    (dispatch.producer.outcome? = some .resumeQueued ∧ result = .returned (.ok none)) ∨
    (∃ outcome summary, dispatch.producer = .finished outcome summary ∧ result =
      .returned (Upload.conclude job dispatch.plan dispatch.source.name summary outcome)) ∨
    (dispatch.producer = .abandoned ∧ result = .crashed) := by
  unfold result? at answer
  split at answer
  · rename_i phase
    exact .inl ⟨by rw [phase]; rfl, (Option.some.inj answer).symm⟩
  · rename_i phase
    exact .inl ⟨by rw [phase]; rfl, (Option.some.inj answer).symm⟩
  · rename_i outcome summary phase
    exact .inr (.inl ⟨outcome, summary, phase, (Option.some.inj answer).symm⟩)
  · rename_i phase
    exact .inr (.inr ⟨phase, (Option.some.inj answer).symm⟩)
  · contradiction

/-- Requests for consecutive parts of a plan, none of them empty and none too long. -/
def Numbered (plan : UploadPlan) (requests : List PartRequest) : Prop :=
  ∀ i request, requests[i]? = some request →
    request = plan.request (plan.startPart + UInt32.ofNat i) request.payload ∧
    0 < request.payload.size ∧ request.payload.size ≤ partSize

/-- Requests that carry consecutive parts of a content. -/
def Sliced (content : Content) (start : Nat) (requests : List PartRequest) : Prop :=
  ∀ i request, requests[i]? = some request →
    request.payload = content.slice ((start + i) * partSize) partSize

def payloadSize (requests : List PartRequest) : Nat :=
  (requests.map fun request => request.payload.size).sum

/-- The checksum that has been fed the payloads. -/
def summed (requests : List PartRequest) : Checksum :=
  requests.foldl (fun sum request => sum.update request.payload) Checksum.empty

def joined (requests : List PartRequest) : ByteArray :=
  requests.foldl (fun bytes request => bytes ++ request.payload) ByteArray.empty

theorem payloadSize_snoc (requests : List PartRequest) (request : PartRequest) :
    payloadSize (requests ++ [request]) = payloadSize requests + request.payload.size := by
  simp [payloadSize]

theorem summed_snoc (requests : List PartRequest) (request : PartRequest) :
    summed (requests ++ [request]) = (summed requests).update request.payload := by
  simp [summed]

theorem joined_snoc (requests : List PartRequest) (request : PartRequest) :
    joined (requests ++ [request]) = joined requests ++ request.payload := by
  simp [joined]

theorem size_joined (requests : List PartRequest) :
    (joined requests).size = payloadSize requests := by
  induction requests using List.reverseRecOn with
  | nil => rfl
  | append_singleton rest request ih =>
    rw [joined_snoc, payloadSize_snoc, ByteArray.size_append, ih]

theorem summed_hex (requests : List PartRequest) :
    (summed requests).hex = Checksum.ofBytes (joined requests) := by
  have follows : Checksum.Follows (joined requests) (summed requests) := by
    induction requests using List.reverseRecOn with
    | nil => exact Checksum.empty_follows
    | append_singleton rest request ih =>
      rw [joined_snoc, summed_snoc]
      exact ih.update request.payload
  exact follows.hex

theorem forall_snoc {α : Type} {P : Nat → α → Prop} {xs : List α} {x : α}
    (all : ∀ i y, xs[i]? = some y → P i y) (last : P xs.length x) :
    ∀ i y, (xs ++ [x])[i]? = some y → P i y := by
  intro i y found
  rcases Nat.lt_or_ge i xs.length with inside | beyond
  · rw [List.getElem?_append_left inside] at found
    exact all i y found
  · rw [List.getElem?_append_right beyond] at found
    obtain ⟨here, rfl⟩ := List.getElem?_eq_some_iff.mp found
    simp only [List.length_singleton, Nat.lt_one_iff] at here
    obtain rfl : i = xs.length := by omega
    simpa using last

theorem forall_prefix {α : Type} {P : Nat → α → Prop} {xs ys : List α} (begins : xs <+: ys)
    (all : ∀ i y, ys[i]? = some y → P i y) : ∀ i y, xs[i]? = some y → P i y := by
  intro i y found
  obtain ⟨rest, rfl⟩ := begins
  have inside := (List.getElem?_eq_some_iff.mp found).1
  exact all i y ((List.getElem?_append_left inside).trans found)

namespace Dispatch

/-- The requests made so far: those that were queued and the one that waits. -/
def made (events : List Event) (dispatch : Dispatch) : List PartRequest :=
  events.filterMap Event.queued? ++ dispatch.producer.waiting?.toList

theorem made_of_none {events : List Event} {dispatch : Dispatch}
    (none_waits : dispatch.producer.waiting? = none) :
    made events dispatch = events.filterMap Event.queued? := by
  rw [made, none_waits, Option.toList_none, List.append_nil]

structure Fed (events : List Event) (dispatch : Dispatch) : Prop where
  fresh : dispatch.producer = .seeking → events.filterMap Event.queued? = []
  numbered : Numbered dispatch.plan (made events dispatch)
  next : dispatch.producer.isFeeding = true → dispatch.nextPart =
    dispatch.plan.startPart + UInt32.ofNat (events.filterMap Event.queued?).length
  position : dispatch.producer.isInStep = true → dispatch.source.stream.position =
    dispatch.plan.startPart.toNat * partSize + payloadSize (made events dispatch)
  sliced : dispatch.source.stream.Steady →
    Sliced dispatch.source.stream.content dispatch.plan.startPart.toNat (made events dispatch)
  reached : dispatch.source.stream.Steady → dispatch.producer.isInStep = true →
    dispatch.source.stream.position =
      min ((dispatch.plan.startPart.toNat + (made events dispatch).length) * partSize)
        (max dispatch.source.stream.content.size (dispatch.plan.startPart.toNat * partSize))
  ended : ∀ checksum, dispatch.producer.outcome? = some (.exhausted checksum) →
    (dispatch.source.stream.Steady →
      dispatch.source.stream.content.size ≤ dispatch.source.stream.position) ∧
    checksum = if dispatch.plan.mode.computesChecksum then some (summed (made events dispatch)).hex
      else none
  checksum : dispatch.producer.isFeeding = true → dispatch.checksum =
    if dispatch.plan.mode.computesChecksum then some (summed (made events dispatch)) else none

section Feed

variable {job : UploadJob} {events more : List Event} {dispatch after : Dispatch}

theorem start_fed (source : Source) (plan : UploadPlan) (endpoint : Int32) :
    Fed [.askedHome, .askedSession endpoint] (Upload.startDispatch source plan) := by
  have nothing :
      made [.askedHome, .askedSession endpoint] (Upload.startDispatch source plan) = [] := rfl
  constructor
  · exact fun _ => rfl
  · rw [nothing]
    intro i request found
    cases found
  · exact fun _ => (UInt32.add_zero _).symm
  · exact fun step => by cases step
  · rw [nothing]
    intro _ i request found
    cases found
  · exact fun _ step => by cases step
  · exact fun _ outcome => by cases outcome
  · exact fun _ => rfl

theorem Fed.drop (h : Fed events dispatch) (plan : after.plan = dispatch.plan)
    (same : after.source.stream.content = dispatch.source.stream.content ∧
      after.source.stream.reply = dispatch.source.stream.reply)
    (begins : made (events ++ more) after <+: made events dispatch)
    (left : after.producer.isFeeding = false ∧ after.producer.isInStep = false) :
    Fed (events ++ more) after := by
  obtain ⟨idle, apart⟩ := left
  constructor
  · intro seeking
    rw [seeking] at idle
    contradiction
  · rw [plan]
    exact forall_prefix begins h.numbered
  · simp [idle]
  · simp [apart]
  · intro steady
    rw [plan, same.1]
    rw [Stream.Steady, same.2] at steady
    exact forall_prefix begins (h.sliced steady)
  · simp [apart]
  · intro checksum outcome
    rw [Producer.isInStep_of_outcome outcome] at apart
    contradiction
  · simp [idle]

/-- Something that makes no request and does not go on in a source that is in step. -/
theorem Fed.keep (h : Fed events dispatch) (plan : after.plan = dispatch.plan)
    (same : after.source.stream.content = dispatch.source.stream.content ∧
      after.source.stream.reply = dispatch.source.stream.reply)
    (unmade : made (events ++ more) after = made events dispatch)
    (fresh : after.producer = .seeking → (events ++ more).filterMap Event.queued? = [])
    (feeding : after.producer.isFeeding = true → dispatch.producer.isFeeding = true ∧
      after.checksum = dispatch.checksum ∧ after.nextPart = dispatch.plan.startPart +
        UInt32.ofNat ((events ++ more).filterMap Event.queued?).length)
    (step : after.producer.isInStep = true → dispatch.producer.isInStep = true ∧
      after.source.stream.position = dispatch.source.stream.position)
    (outcome : ∀ checksum, after.producer.outcome? = some (.exhausted checksum) →
      dispatch.producer.outcome? = some (.exhausted checksum)) : Fed (events ++ more) after := by
  obtain ⟨content, reply⟩ := same
  have steadily : after.source.stream.Steady → dispatch.source.stream.Steady := by
    rw [Stream.Steady, Stream.Steady, reply]
    exact id
  constructor
  · exact fresh
  · rw [unmade, plan]
    exact h.numbered
  · intro now
    rw [plan]
    exact (feeding now).2.2
  · intro now
    rw [unmade, plan, (step now).2]
    exact h.position (step now).1
  · rw [unmade, plan, content]
    exact fun steady => h.sliced (steadily steady)
  · intro steady now
    rw [unmade, plan, content, (step now).2]
    exact h.reached (steadily steady) (step now).1
  · intro checksum now
    have here := (step (Producer.isInStep_of_outcome now)).2
    obtain ⟨spent, sum⟩ := h.ended checksum (outcome checksum now)
    rw [unmade, plan, content, here]
    exact ⟨fun steady => spent (steadily steady), sum⟩
  · intro now
    rw [unmade, plan, (feeding now).2.1]
    exact h.checksum (feeding now).1

/-- Where a source is after one more part of it. -/
theorem reached_next {position start count size : Nat}
    (here : position = min ((start + count) * partSize) (max size (start * partSize)))
    (more : position < size) :
    position = (start + count) * partSize ∧
    position + min partSize (size - position) =
      min ((start + (count + 1)) * partSize) (max size (start * partSize)) := by
  have next : (start + (count + 1)) * partSize = (start + count) * partSize + partSize := by
    rw [← Nat.add_assoc, Nat.succ_mul]
  have less : start * partSize ≤ (start + count) * partSize :=
    Nat.mul_le_mul_right _ (Nat.le_add_right _ _)
  omega

theorem Fed.filled (h : Fed events dispatch) {payload : ByteArray} {reads : Nat}
    (phase : dispatch.producer = .reading) (some_read : 0 < payload.size)
    (limited : payload.size ≤ partSize) (whole : dispatch.source.stream.Steady → payload =
      dispatch.source.stream.content.slice dispatch.source.stream.position partSize) :
    Fed events { dispatch with
      source := dispatch.source.moved (dispatch.source.stream.position + payload.size) reads
      checksum := dispatch.checksum.map fun sum => sum.update payload
      producer := .queueing (dispatch.plan.request dispatch.nextPart payload) } := by
  have feeding : dispatch.producer.isFeeding = true := by rw [phase]; rfl
  have step : dispatch.producer.isInStep = true := by rw [phase]; rfl
  have before : made events dispatch = _ := made_of_none (by rw [phase]; rfl)
  have next := h.next feeding
  rw [← before] at next
  have position := h.position step
  have now : ∀ source checksum,
      made events { dispatch with
        source := source
        checksum := checksum
        producer := .queueing (dispatch.plan.request dispatch.nextPart payload) } =
      made events dispatch ++ [dispatch.plan.request dispatch.nextPart payload] := by
    intro _ _
    rw [before]
    rfl
  -- how far a steady source has come, and that it has more
  have far : dispatch.source.stream.Steady →
      dispatch.source.stream.position < dispatch.source.stream.content.size ∧
      payload.size = min partSize
        (dispatch.source.stream.content.size - dispatch.source.stream.position) := by
    intro steady
    have size := congrArg ByteArray.size (whole steady)
    rw [Content.size_slice] at size
    omega
  constructor
  · intro seeking
    cases seeking
  · rw [now]
    refine forall_snoc h.numbered ⟨?_, some_read, limited⟩
    rw [next]
    rfl
  · intro _
    rw [← before]
    exact next
  · intro _
    rw [now, payloadSize_snoc, ← Nat.add_assoc, ← position]
    rfl
  · intro steady
    rw [now]
    have reached := reached_next (h.reached steady step) (far steady).1
    refine forall_snoc (h.sliced steady) ?_
    rw [← reached.1]
    exact whole steady
  · intro steady _
    rw [now, List.length_append, List.length_singleton]
    have reached := reached_next (h.reached steady step) (far steady).1
    rw [← (far steady).2] at reached
    exact reached.2
  · intro checksum outcome
    cases outcome
  · intro _
    rw [now, summed_snoc]
    have sum := h.checksum feeding
    simp only [sum]
    split <;> rfl

theorem Fed.exhausted (h : Fed events dispatch) {reads : Nat}
    (phase : dispatch.producer = .reading) (spent : dispatch.source.stream.Steady →
      dispatch.source.stream.content.size ≤ dispatch.source.stream.position) :
    Fed events (({ dispatch with
      source := dispatch.source.moved dispatch.source.stream.position reads } : Dispatch).leave
        (.exhausted (dispatch.checksum.map Checksum.hex))) := by
  have feeding : dispatch.producer.isFeeding = true := by rw [phase]; rfl
  have step : dispatch.producer.isInStep = true := by rw [phase]; rfl
  have same : made events (({ dispatch with
      source := dispatch.source.moved dispatch.source.stream.position reads } : Dispatch).leave
        (.exhausted (dispatch.checksum.map Checksum.hex))) = made events dispatch := by
    rw [made, made, phase]
    rfl
  constructor
  · intro seeking
    cases seeking
  · rw [same]
    exact h.numbered
  · intro still
    cases still
  · intro _
    rw [same]
    exact h.position step
  · rw [same]
    exact h.sliced
  · intro steady _
    rw [same]
    exact h.reached steady step
  · intro checksum outcome
    obtain rfl : dispatch.checksum.map Checksum.hex = checksum := by
      simpa [leave, Producer.outcome?] using outcome
    refine ⟨spent, ?_⟩
    rw [same, h.checksum feeding]
    exact apply_ite (Option.map Checksum.hex) _ _ _
  · intro still
    cases still

theorem Fed.sought (h : Fed events dispatch) {source : Source}
    (phase : dispatch.producer = .seeking)
    (sought : dispatch.source.seekToPart dispatch.plan.startPart = (.ok (), source)) :
    Fed events { dispatch with source := source, producer := .reading } := by
  have feeding : dispatch.producer.isFeeding = true := by rw [phase]; rfl
  have nothing : ∀ source, made events { dispatch with source := source, producer := .reading } =
      [] := by
    intro _
    rw [made, h.fresh phase]
    rfl
  have before : made events dispatch = [] := by
    rw [made, h.fresh phase, phase]
    rfl
  have moved := Source.seekToPart_ok sought
  subst moved
  constructor
  · intro seeking
    cases seeking
  · rw [nothing, ← before]
    exact h.numbered
  · exact fun _ => h.next feeding
  · intro _
    rw [nothing]
    exact (Nat.add_zero _).symm
  · rw [nothing, ← before]
    exact h.sliced
  · intro _ _
    simp only [nothing, List.length_nil, Nat.add_zero]
    omega
  · intro checksum outcome
    cases outcome
  · intro _
    rw [nothing, ← before]
    exact h.checksum feeding

theorem Fed.queued (h : Fed events dispatch) {request : PartRequest} {pool : Pool}
    (phase : dispatch.producer = .queueing request) :
    Fed (events ++ [.queued request]) { dispatch with
      pool := pool, nextPart := dispatch.nextPart + 1, producer := .notifying } := by
  have feeding : dispatch.producer.isFeeding = true := by rw [phase]; rfl
  have step : dispatch.producer.isInStep = true := by rw [phase]; rfl
  refine h.keep rfl ⟨rfl, rfl⟩ ?_ (by simp) (fun _ => ⟨feeding, rfl, ?_⟩) (fun _ => ⟨step, rfl⟩)
    (by simp [Producer.outcome?])
  · simp [made, phase, Producer.waiting?, Event.queued?]
  · rw [h.next feeding, UInt32.add_assoc]
    simp [Event.queued?]

theorem step_fed {move : Move} (step : Step job dispatch move more after)
    (h : Fed events dispatch) : Fed (events ++ more) after := by
  cases step with
  | sought phase sought =>
    rw [List.append_nil]
    exact h.sought phase sought
  | unsought phase sought =>
    obtain ⟨_, source⟩ := Source.seekToPart_error sought
    subst source
    exact h.drop rfl ⟨rfl, rfl⟩ (by simp [made, leave, Producer.waiting?, phase]) ⟨rfl, rfl⟩
  | filled phase given =>
    rw [List.append_nil]
    cases given with
    | part some_read limited whole => exact h.filled phase some_read limited whole
  | ended phase given =>
    cases given with
    | ended spent =>
      unfold endOfInput
      split
      · exact h.drop rfl ⟨rfl, rfl⟩ (by simp [made, leave, Producer.waiting?, phase]) ⟨rfl, rfl⟩
      · rw [List.append_nil]
        exact h.exhausted phase spent
  | broken phase given =>
    cases given with
    | failed =>
      exact h.drop rfl ⟨rfl, rfl⟩ (by simp [made, leave, Producer.waiting?, phase]) ⟨rfl, rfl⟩
  | refused phase =>
    exact h.drop rfl ⟨rfl, rfl⟩ (by simp [made, leave, Producer.waiting?]) ⟨rfl, rfl⟩
  | aborted waiting =>
    exact h.drop rfl ⟨rfl, rfl⟩ (by simp [made, leave, Producer.waiting?]) ⟨rfl, rfl⟩
  | queued phase => exact h.queued phase
  | resent phase =>
    exact h.drop rfl ⟨rfl, rfl⟩ (by simp [made, leave, Producer.waiting?, phase, Event.queued?])
      ⟨rfl, rfl⟩
  | stalled phase given =>
    cases given with
    | pending =>
      have feeding : dispatch.producer.isFeeding = true := by rw [phase]; rfl
      refine h.keep rfl ⟨rfl, rfl⟩ ?_ (by simp) (fun _ => ⟨feeding, rfl, ?_⟩)
        (by simp [Producer.isInStep]) (by simp [Producer.outcome?])
      · simp [made, phase, Producer.waiting?]
      · simpa using h.next feeding
  | notified phase =>
    have unqueued := (shown_silent dispatch job).1
    have feeding : dispatch.producer.isFeeding = true := by rw [phase]; rfl
    have step : dispatch.producer.isInStep = true := by rw [phase]; rfl
    refine h.keep rfl ⟨rfl, rfl⟩ ?_ (by simp) (fun _ => ⟨feeding, rfl, ?_⟩) (fun _ => ⟨step, rfl⟩)
      (by simp [Producer.outcome?])
    · simp [made, phase, Producer.waiting?, unqueued]
    · simpa [unqueued] using h.next feeding
  | deserted phase =>
    have unqueued := (shown_silent dispatch job).1
    exact h.drop rfl ⟨rfl, rfl⟩ (by simp [made, desert, Producer.waiting?, phase, unqueued])
      ⟨rfl, rfl⟩
  | @stopped outcome phase | @unneeded _ outcome phase | @told _ outcome _ phase
  | @joined outcome phase =>
    refine h.keep rfl ⟨rfl, rfl⟩ ?_ (by simp) (by simp [Producer.isFeeding])
      (fun step => ⟨?_, rfl⟩) ?_
    · simp [made, phase, Producer.waiting?]
    · rw [phase]
      cases outcome <;> exact step
    · rw [phase]
      exact fun _ same => same
  | @took worker pool begun took =>
    have unqueued : (begun.toList.map Event.started).filterMap Event.queued? = [] := by
      cases begun <;> rfl
    refine h.keep rfl ⟨rfl, rfl⟩ ?_ ?_ (fun feeding => ⟨feeding, rfl, ?_⟩)
      (fun step => ⟨step, rfl⟩) fun _ same => same
    · simp [made, unqueued]
    · simpa [unqueued] using h.fresh
    · simpa [unqueued] using h.next feeding
  | finished finished =>
    refine h.keep rfl ⟨rfl, rfl⟩ ?_ ?_ (fun feeding => ⟨feeding, rfl, ?_⟩)
      (fun step => ⟨step, rfl⟩) fun _ same => same
    · simp [made, Event.queued?]
    · simpa [Event.queued?] using h.fresh
    · simpa [Event.queued?] using h.next feeding

end Feed

end Dispatch

/-- The source has been read or moved in, and is the same otherwise. -/
structure Source.Moved (source after : Source) : Prop where
  name : after.name = source.name
  content : after.stream.content = source.stream.content
  reply : after.stream.reply = source.stream.reply
  seekFailure : after.stream.seekFailure = source.stream.seekFailure

theorem Source.Moved.trans {source next last : Source} (first : Moved source next)
    (second : Moved next last) : Moved source last where
  name := second.name.trans first.name
  content := second.content.trans first.content
  reply := second.reply.trans first.reply
  seekFailure := second.seekFailure.trans first.seekFailure

theorem Source.moved_of_gives {source after : Source} {outcome : PartRead}
    (given : source.Gives outcome after) : Moved source after := by
  cases given <;> exact ⟨rfl, rfl, rfl, rfl⟩

namespace Dispatch

theorem step_moved {job : UploadJob} {dispatch after : Dispatch} {move : Move}
    {events : List Event} (step : Step job dispatch move events after) :
    after.plan = dispatch.plan ∧ dispatch.source.Moved after.source := by
  cases step with
  | sought _ sought =>
    rw [Source.seekToPart_ok sought]
    exact ⟨rfl, rfl, rfl, rfl, rfl⟩
  | unsought _ sought =>
    rw [(Source.seekToPart_error sought).2]
    exact ⟨rfl, rfl, rfl, rfl, rfl⟩
  | filled _ given | broken _ given | stalled _ given =>
    exact ⟨rfl, Source.moved_of_gives given⟩
  | ended _ given =>
    unfold endOfInput
    split <;> exact ⟨rfl, Source.moved_of_gives given⟩
  | refused | queued | resent | notified | deserted | aborted | stopped | unneeded | told | joined
  | took | finished => exact ⟨rfl, rfl, rfl, rfl, rfl⟩

/-- All that is known of an upload that has its workers. -/
structure Working (job : UploadJob) (Allowed : Move → Prop) (events : List Event)
    (dispatch : Dispatch) : Prop where
  tracked : ∃ log sent, Tracked events dispatch log sent
  fed : Fed events dispatch
  origin : ∃ files source, Allowed (.openInput files) ∧
    Upload.Opened files job source dispatch.plan ∧ source.Moved dispatch.source

theorem start_working {job : UploadJob} {Allowed : Move → Prop} {files : FileSystem}
    {source : Source} {plan : UploadPlan} (endpoint : Int32) (allowed : Allowed (.openInput files))
    (opened : Upload.Opened files job source plan) :
    Working job Allowed [.askedHome, .askedSession endpoint]
      (Upload.startDispatch source plan) where
  tracked := ⟨[], 0, start_tracked source plan endpoint⟩
  fed := start_fed source plan endpoint
  origin := ⟨files, source, allowed, opened, rfl, rfl, rfl, rfl⟩

theorem step_working {job : UploadJob} {Allowed : Move → Prop} {past events : List Event}
    {dispatch after : Dispatch} {move : Move} (step : Step job dispatch move events after)
    (h : Working job Allowed past dispatch) : Working job Allowed (past ++ events) after := by
  obtain ⟨log, sent, tracked⟩ := h.tracked
  obtain ⟨files, source, allowed, opened, moved⟩ := h.origin
  obtain ⟨plan, further⟩ := step_moved step
  exact ⟨step_tracked step tracked, step_fed step h.fed,
    files, source, allowed, plan ▸ opened, moved.trans further⟩

section Working

variable {job : UploadJob} {Allowed : Move → Prop} {events : List Event} {dispatch : Dispatch}
  (working : Working job Allowed events dispatch)

include working

theorem Working.started_isPrefix :
    events.filterMap Event.started? <+: made events dispatch := by
  obtain ⟨_, _, tracked⟩ := working.tracked
  exact tracked.started_isPrefix.trans (List.prefix_append _ _)

theorem Working.finished {outcome : DispatchOutcome} {summary : PoolSummary}
    (phase : dispatch.producer = .finished outcome summary) :
    events.filterMap Event.started? <+: events.filterMap Event.queued? ∧
    ((events.filterMap Event.ended?).map Prod.fst).Perm (events.filterMap Event.started?) ∧
    dispatch.pool.isStopped = true ∧
    ((∀ call ∈ events.filterMap Event.ended?, call.2 ≠ .crashed) →
      events.filterMap Event.started? = events.filterMap Event.queued?) := by
  obtain ⟨_, _, tracked⟩ := working.tracked
  exact tracked.finished phase

end Working

end Dispatch

theorem Upload.run_working {job : UploadJob} {Allowed : Move → Prop} {cancelled : Bool}
    {moves : List Move} {last : Upload} {events : List Event}
    (allowed : ∀ move ∈ moves, Allowed move)
    (run : (begin job cancelled).run? moves = some (last, events)) :
    Standing job Allowed (Dispatch.Working job Allowed) events last :=
  run_standing
    (fun _ _ _ endpoint opening opened => Dispatch.start_working endpoint opening opened)
    (fun _ _ _ _ _ working _ step => Dispatch.step_working step working) allowed run

end ChunkedUpload
