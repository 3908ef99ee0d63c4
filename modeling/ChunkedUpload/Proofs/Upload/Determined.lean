import ChunkedUpload.Proofs.Upload.Backlog
import ChunkedUpload.Proofs.Upload.Calm
import ChunkedUpload.Proofs.Upload.Interrupted
import ChunkedUpload.Proofs.Upload.Token
import Mathlib.Logic.Relation

/-! What an upload does is determined by what it meets. Its workers take their turns as they like,
but its producer has one course only, which does not depend on theirs: two uploads of one job that
meet the same are at two points of this course, and give the same answer at its end. -/
namespace ChunkedUpload

/-- What a call meets outside. The session tells the same to the same request, and does not
crash. -/
structure Surroundings where
  files : FileSystem
  home : Except TransportError Int32
  session : Except TransportError Unit
  answer : PartRequest → Except TransportError Unit

def Surroundings.reply (around : Surroundings) (request : PartRequest) : Reply :=
  match around.answer request with
  | .ok () => .delivered
  | .error error => .refused error

theorem Surroundings.reply_ne_crashed (around : Surroundings) (request : PartRequest) :
    around.reply request ≠ .crashed := by
  unfold reply
  split <;> simp

/-- The job finds its input, its home and its session as it is around. -/
def Move.Meets (around : Surroundings) (job : UploadJob) : Move → Prop
  | openInput files => Source.ofInput files job.input job.limit.bytes =
      Source.ofInput around.files job.input job.limit.bytes
  | locate answer => answer = around.home
  | connect answer => answer = around.session
  | _ => True

/-- Where a producer is, apart from how far its workers are gone. -/
def Producer.settled : Producer → Producer
  | stopping _ outcome | joining outcome | finished outcome _ => .joining outcome
  | seeking => .seeking
  | reading => .reading
  | stalled => .stalled
  | queueing request => .queueing request
  | notifying => .notifying
  | abandoned => .abandoned

/-- The producer of a dispatch by itself. -/
def Dispatch.bare (dispatch : Dispatch) : Dispatch :=
  { dispatch with pool := Pool.start 1, producer := dispatch.producer.settled }

section Bare

variable {job : UploadJob} {dispatch after : Dispatch} {move : Move} {events : List Event}

theorem Producer.settled_of_outcome {producer : Producer} {outcome : DispatchOutcome}
    (left : producer.outcome? = some outcome) : producer.settled = .joining outcome := by
  cases producer with
  | stopping | joining | finished =>
    cases left
    rfl
  | seeking | reading | stalled | queueing | notifying | abandoned => cases left

theorem Dispatch.bare_seek : dispatch.bare.seek.bare = dispatch.seek.bare := by
  unfold seek
  have same : dispatch.bare.source.seekToPart dispatch.bare.plan.startPart =
      dispatch.source.seekToPart dispatch.plan.startPart := rfl
  rw [same]
  split <;> rfl

theorem Dispatch.bare_read : dispatch.bare.read.bare = dispatch.read.bare := by
  unfold read
  have same : dispatch.bare.source.readPart = dispatch.source.readPart := rfl
  rw [same]
  split
  · rfl
  · unfold endOfInput
    have mode : dispatch.bare.plan = dispatch.plan := rfl
    simp only [mode]
    split <;> rfl
  · rfl
  · rfl

theorem Dispatch.bare_of_worker (step : Step job dispatch move events after)
    (own : move ≠ .seek ∧ move ≠ .read ∧ move ≠ .enqueue ∧ move ≠ .notify ∧ move ≠ .abort) :
    after.bare = dispatch.bare ∧ events.filterMap Event.queued? = [] := by
  cases step with
  | sought | unsought => exact absurd rfl own.1
  | filled | ended | broken | stalled => exact absurd rfl own.2.1
  | refused | queued | resent => exact absurd rfl own.2.2.1
  | notified | deserted => exact absurd rfl own.2.2.2.1
  | aborted => exact absurd rfl own.2.2.2.2
  | stopped phase | unneeded phase | told phase | joined phase =>
    exact ⟨by simp [bare, phase, Producer.settled], rfl⟩
  | @took _ _ begun =>
    refine ⟨rfl, ?_⟩
    cases begun <;> rfl
  | finished => exact ⟨rfl, rfl⟩

end Bare

namespace Upload

/-- The upload without its workers, and without the answer that waits for them. -/
def bare (upload : Upload) : Upload :=
  match upload.stage with
  | .dispatching dispatch => { upload with stage := .dispatching dispatch.bare, result := none }
  | _ => upload

/-- The move that the caller's task makes next. -/
def ownMove? (around : Surroundings) (upload : Upload) : Option Move :=
  match upload.stage with
  | .waiting => some .enter
  | .opening => some (.openInput around.files)
  | .locating _ _ => some (.locate around.home)
  | .connecting _ _ _ => some (.connect around.session)
  | .dispatching dispatch =>
    match dispatch.producer with
    | .seeking => some .seek
    | .reading => some .read
    | .queueing _ => some .enqueue
    | .notifying => some .notify
    | .stalled | .stopping _ _ | .joining _ | .finished _ _ | .abandoned => none
  | .over _ => none

/-- One step on the course of the caller's task, with all it has queued. -/
def Advance (around : Surroundings) (here there : Upload × List PartRequest) : Prop :=
  ∃ move next events, here.1.ownMove? around = some move ∧
    here.1.step? move = some (next, events) ∧
    there = (next.bare, here.2 ++ events.filterMap Event.queued?)

/-- Not cancelled, and without a crash so far. -/
def Unspoilt (past : List Event) (upload : Upload) : Prop :=
  upload.cancelled = false ∧ ∀ call ∈ past.filterMap Event.ended?, call.2 ≠ .crashed

section Course

variable {around : Surroundings} {job : UploadJob} {past events : List Event}
  {upload next : Upload} {move : Move} {dispatch : Dispatch}

theorem advance_unique : Relator.RightUnique (Advance around) := by
  rintro here _ _ ⟨move, next, events, own, stepped, rfl⟩ ⟨_, _, _, own', stepped', rfl⟩
  obtain rfl : move = _ := Option.some.inj (own.symm.trans own')
  cases stepped.symm.trans stepped'
  rfl

theorem bare_of_stage (stage : upload.stage = .dispatching dispatch) :
    upload.bare = { upload with stage := .dispatching dispatch.bare, result := none } := by
  simp only [bare, stage]

theorem bare_of_early (early : ∀ dispatch, upload.stage ≠ .dispatching dispatch) :
    upload.bare = upload := by
  unfold bare
  split
  · rename_i dispatch stage
    exact absurd stage (early dispatch)
  · rfl

/-- Before there are workers, whatever happens is the next step of the course. -/
theorem own_of_early (meets : move.Meets around job) (same : upload.job = job)
    (early : ∀ dispatch, upload.stage ≠ .dispatching dispatch)
    (going : move ≠ .cancel ∧ move ≠ .withdraw)
    (stepped : upload.step? move = some (next, events)) :
    ∃ own, upload.ownMove? around = some own ∧ upload.step? own = some (next, events) := by
  subst same
  cases stage : upload.stage with
  | waiting =>
    cases move with
    | enter => exact ⟨.enter, by simp [ownMove?, stage], stepped⟩
    | cancel => exact absurd rfl going.1
    | withdraw => exact absurd rfl going.2
    | _ => simp [step?, stage] at stepped
  | opening =>
    cases move with
    | openInput files =>
      refine ⟨.openInput around.files, by simp [ownMove?, stage], stepped ▸ ?_⟩
      have found : Source.ofInput files upload.job.input upload.job.limit.bytes = _ := meets
      simp only [step?, stage, found]
    | cancel => exact absurd rfl going.1
    | _ => simp [step?, stage] at stepped
  | locating =>
    cases move with
    | locate answer =>
      obtain rfl : answer = around.home := meets
      exact ⟨.locate around.home, by simp [ownMove?, stage], stepped⟩
    | cancel => exact absurd rfl going.1
    | _ => simp [step?, stage] at stepped
  | connecting =>
    cases move with
    | connect answer =>
      obtain rfl : answer = around.session := meets
      exact ⟨.connect around.session, by simp [ownMove?, stage], stepped⟩
    | cancel => exact absurd rfl going.1
    | _ => simp [step?, stage] at stepped
  | dispatching dispatch => exact absurd stage (early dispatch)
  | _ =>
    cases move with
    | cancel => exact absurd rfl going.1
    | _ => simp [step?, stage] at stepped

/-- A step of the course as it is seen from an upload with workers. -/
def Leads (around : Surroundings) (upload next : Upload) (events : List Event) : Prop :=
  ∃ own after seen, upload.bare.ownMove? around = some own ∧
    upload.bare.step? own = some (after, seen) ∧ after.bare = next.bare ∧
    seen.filterMap Event.queued? = events.filterMap Event.queued?

section Dispatching

variable (stage : upload.stage = .dispatching dispatch)

include stage

theorem leads_of_seek (stepped : upload.step? .seek = some (next, events)) :
    Leads around upload next events := by
  obtain ⟨phase, rfl, rfl⟩ := seek_of_step stage stepped
  rw [Leads, bare_of_stage stage]
  refine ⟨.seek, ⟨upload.job, upload.cancelled, .dispatching dispatch.bare.seek, none⟩, [],
    ?_, ?_, ?_, rfl⟩
  · simp [ownMove?, Dispatch.bare, phase, Producer.settled]
  · simp [step?, dispatchStep?, Dispatch.bare, phase, Producer.settled]
  · simp only [bare, Dispatch.bare_seek]

theorem leads_of_read (awake : upload.cancelled = false)
    (stepped : upload.step? .read = some (next, events)) : Leads around upload next events := by
  obtain ⟨phase, _, rfl, rfl⟩ := read_of_step stage stepped
  rw [Leads, bare_of_stage stage]
  refine ⟨.read, ⟨upload.job, upload.cancelled, .dispatching dispatch.bare.read, none⟩, [],
    ?_, ?_, ?_, rfl⟩
  · simp [ownMove?, Dispatch.bare, phase, Producer.settled]
  · simp [step?, dispatchStep?, Dispatch.bare, phase, Producer.settled, awake]
  · simp only [bare, Dispatch.bare_read]

theorem leads_of_enqueue (answer : upload.result = dispatch.result? upload.job)
    (awake : upload.cancelled = false) (still : next.cancelled = false)
    (is_open : dispatch.pool.queue.isClosed = false)
    (stepped : upload.step? .enqueue = some (next, events)) : Leads around upload next events := by
  have step := step_of_step? (by rintro _ here; cases stage.symm.trans here; exact answer) stepped
  have fresh_open : (Pool.start 1).queue.isClosed = false := rfl
  have room : ∀ item, ∃ pool, (Pool.start 1).offer? item = some pool := fun _ => ⟨_, rfl⟩
  rw [Leads, bare_of_stage stage]
  cases step with
  | dispatched here step =>
    cases stage.symm.trans here
    dsimp only at still
    cases step with
    | refused _ closed =>
      rw [is_open] at closed
      contradiction
    | @queued request _ phase _ whole =>
      obtain ⟨pool, offered⟩ := room (.part request)
      refine ⟨.enqueue, ⟨upload.job, upload.cancelled, .dispatching { dispatch.bare with
        pool := pool, nextPart := dispatch.nextPart + 1, producer := .notifying }, none⟩,
        [.queued request], ?_, ?_, ?_, rfl⟩
      · simp [ownMove?, Dispatch.bare, phase, Producer.settled]
      · simp [step?, dispatchStep?, Dispatch.bare, phase, Producer.settled, awake,
          Dispatch.enqueue?, fresh_open, offered, whole]
      · simp [bare, Dispatch.bare, awake, still]
    | @resent request _ phase _ resend =>
      obtain ⟨pool, offered⟩ := room (.part request)
      refine ⟨.enqueue, ⟨upload.job, upload.cancelled, .dispatching
        ({ dispatch.bare with pool := pool }.leave .resumeQueued), some (.returned (.ok none))⟩,
        [.queued request], ?_, ?_, ?_, rfl⟩
      · simp [ownMove?, Dispatch.bare, phase, Producer.settled]
      · simp [step?, dispatchStep?, Dispatch.bare, phase, Producer.settled, awake,
          Dispatch.enqueue?, fresh_open, offered, resend]
      · simp [bare, Dispatch.bare, Dispatch.leave, Producer.settled, awake, still]

theorem leads_of_notify (awake : upload.cancelled = false) (still : next.cancelled = false)
    (stepped : upload.step? .notify = some (next, events)) : Leads around upload next events := by
  have same : dispatch.bare.report upload.job = dispatch.report upload.job := rfl
  rw [Leads, bare_of_stage stage]
  cases phase : dispatch.producer with
  | notifying =>
    have bare_phase : dispatch.bare.producer = .notifying := by
      simp only [Dispatch.bare, phase, Producer.settled]
    have own : ownMove? around ⟨upload.job, upload.cancelled, .dispatching dispatch.bare, none⟩ =
        some .notify := by
      simp only [ownMove?, bare_phase]
    simp only [step?, stage, dispatchStep?, phase, awake, Bool.false_eq_true, if_false] at stepped
    cases effect : (dispatch.report upload.job).effect with
    | returns =>
      simp only [effect] at stepped
      cases stepped
      refine ⟨.notify, ⟨upload.job, false, .dispatching { dispatch.bare with
        reports := dispatch.reports + 1, producer := .reading }, none⟩,
        dispatch.shown upload.job, own, ?_, rfl, rfl⟩
      simp only [step?, dispatchStep?, bare_phase, awake, Bool.false_eq_true, if_false, same,
        effect]
      rfl
    | cancels =>
      simp only [effect] at stepped
      cases stepped
      contradiction
    | crashes =>
      simp only [effect] at stepped
      cases stepped
      refine ⟨.notify, ⟨upload.job, false, .dispatching dispatch.bare.desert, some .crashed⟩,
        dispatch.shown upload.job, own, ?_, rfl, rfl⟩
      simp only [step?, dispatchStep?, bare_phase, awake, Bool.false_eq_true, if_false, same,
        effect]
      rfl
  | _ => simp [step?, stage, dispatchStep?, phase] at stepped

end Dispatching

theorem Leads.advance (leads : Leads around upload next events) (sent : List PartRequest) :
    Advance around (upload.bare, sent) (next.bare, sent ++ events.filterMap Event.queued?) := by
  obtain ⟨own, after, seen, moves, stepped, same, queued⟩ := leads
  exact ⟨own, after, seen, moves, stepped, by rw [same, queued]⟩

theorem Unspoilt.before (unspoilt : Unspoilt (past ++ events) next)
    (stepped : upload.step? move = some (next, events)) : Unspoilt past upload := by
  refine ⟨uncancelled_of_step unspoilt.1 stepped, fun call member => unspoilt.2 call ?_⟩
  rw [List.filterMap_append]
  exact List.mem_append_left _ member

/-- The upload stands on the one course that there is for it. -/
def OnCourse (around : Surroundings) (job : UploadJob) (past : List Event) (upload : Upload) :
    Prop :=
  Standing job (Move.Meets around job) (Dispatch.Known job (Move.Meets around job)) past upload ∧
  (Unspoilt past upload → Relation.ReflTransGen (Advance around) (begin job false, [])
    (upload.bare, past.filterMap Event.queued?))

/-- A worker leaves the upload where it is on its course, and the producer brings it one step
further. -/
theorem advance_of_step {Allowed : Move → Prop}
    (standing : Standing job Allowed (Dispatch.Known job Allowed) past upload)
    (meets : move.Meets around job) (unspoilt : Unspoilt past upload)
    (still : next.cancelled = false)
    (stepped : upload.step? move = some (next, events)) :
    (next.bare = upload.bare ∧ events.filterMap Event.queued? = []) ∨
    ∀ sent, Advance around (upload.bare, sent)
      (next.bare, sent ++ events.filterMap Event.queued?) := by
  have step := step_of_step? standing.answer stepped
  have going := moves_of_awake unspoilt.1 step
  have awake : move ≠ .cancel := by
    rintro rfl
    cases stepped
    contradiction
  by_cases early : ∀ dispatch, upload.stage ≠ .dispatching dispatch
  · obtain ⟨own, moves, made⟩ :=
      own_of_early meets standing.1 early ⟨awake, going.1⟩ stepped
    rw [bare_of_early early]
    exact .inr fun sent => ⟨own, next, events, moves, made, rfl⟩
  · obtain ⟨dispatch, stage⟩ := not_forall.mp early
    have stage := not_not.mp stage
    have answer := standing.answer dispatch stage
    obtain ⟨_, here⟩ := standing
    simp only [stage] at here
    cases move with
    | seek => exact .inr (leads_of_seek stage stepped).advance
    | read => exact .inr (leads_of_read stage unspoilt.1 stepped).advance
    | enqueue =>
      have feeding : dispatch.producer.isFeeding = true := by
        cases step with
        | dispatched there step =>
          cases stage.symm.trans there
          cases step with
          | refused phase | queued phase | resent phase => rw [phase]; rfl
      have is_open := here.1.working.open_queue unspoilt.2 feeding
      exact .inr (leads_of_enqueue stage answer unspoilt.1 still is_open stepped).advance
    | notify => exact .inr (leads_of_notify stage unspoilt.1 still stepped).advance
    | abort => exact absurd rfl going.2
    | cancel => exact absurd rfl awake
    | enter | withdraw | openInput | locate | connect =>
      simp [step?, stage, dispatchStep?] at stepped
    | stop | join | take | finish =>
      left
      cases step with
      | dispatched there step =>
        cases stage.symm.trans there
        obtain ⟨same, silent⟩ := Dispatch.bare_of_worker step (by simp)
        refine ⟨?_, silent⟩
        dsimp only at still
        rw [bare_of_stage stage, ← same, unspoilt.1, ← still]
        rfl

theorem step_onCourse : StepKeeps step? (OnCourse around job) (Move.Meets around job) := by
  intro past upload move next events ⟨standing, course⟩ meets stepped
  refine ⟨step_known _ _ _ _ _ standing meets stepped, fun unspoilt => ?_⟩
  have before := unspoilt.before stepped
  rw [List.filterMap_append]
  rcases advance_of_step standing meets before unspoilt.1 stepped with ⟨same, silent⟩ | advance
  · rw [same, silent, List.append_nil]
    exact course before
  · exact (course before).tail (advance _)

theorem run_onCourse {cancelled : Bool} {moves : List Move} {last : Upload}
    (meets : ∀ move ∈ moves, move.Meets around job)
    (run : (begin job cancelled).run? moves = some (last, events)) :
    OnCourse around job events last := by
  have fresh : OnCourse around job [] (begin job cancelled) := by
    refine ⟨⟨rfl, rfl, rfl⟩, fun unspoilt => ?_⟩
    obtain rfl : cancelled = false := unspoilt.1
    exact .refl
  rw [run?_eq] at run
  exact run_holds step_onCourse moves _ _ _ fresh meets run

theorem advance_isPrefix {here there : Upload × List PartRequest}
    (way : Relation.ReflTransGen (Advance around) here there) : here.2 <+: there.2 := by
  induction way with
  | refl => exact List.prefix_refl _
  | tail _ step ih =>
    obtain ⟨_, _, _, _, _, rfl⟩ := step
    exact ih.trans (List.prefix_append _ _)

end Course

/-- Whether the caller has its answer and no worker is left. -/
def isAtRest (upload : Upload) : Bool :=
  upload.result.isSome && match upload.stage with
    | .dispatching dispatch => dispatch.pool.isStopped
    | _ => true

/-- An upload that has met these surroundings, with nobody to cancel it. -/
structure Lived (around : Surroundings) (job : UploadJob) (moves : List Move)
    (events : List Event) (upload : Upload) : Prop where
  run : (begin job false).run? moves = some (upload, events)
  meets : ∀ move ∈ moves, move.Meets around job
  awake : upload.cancelled = false
  heard : ∀ call ∈ events.filterMap Event.ended?, call.2 = around.reply call.1

end Upload

def Surroundings.refused (around : Surroundings) (requests : List PartRequest) : Nat :=
  requests.countP fun request => (around.reply request).isRefused

namespace Upload

/-- What the caller hears at the end of the course, when these requests have been sent. -/
def verdict? (around : Surroundings) (sent : List PartRequest) (upload : Upload) : Option Result :=
  match upload.stage with
  | .dispatching dispatch =>
    match dispatch.producer with
    | .joining outcome => some (.returned (conclude upload.job dispatch.plan dispatch.source.name
        ⟨sent.length - around.refused sent, around.refused sent⟩ outcome))
    | .abandoned => some .crashed
    | _ => none
  | _ => upload.result

theorem conclude_congr (job : UploadJob) (plan : UploadPlan) (name : String)
    {summary other : PoolSummary} (same : summary.failed = other.failed)
    (outcome : DispatchOutcome) :
    conclude job plan name summary outcome = conclude job plan name other outcome := by
  cases outcome <;> simp only [conclude, same]

namespace Lived

variable {around : Surroundings} {job : UploadJob} {moves moves' : List Move}
  {events more : List Event} {upload other : Upload} {result : Result}

section One

variable (lived : Lived around job moves events upload)

include lived

theorem course : OnCourse around job events upload :=
  run_onCourse lived.meets lived.run

theorem calm : ∀ call ∈ events.filterMap Event.ended?, call.2 ≠ .crashed := by
  intro call member
  rw [lived.heard call member]
  exact around.reply_ne_crashed call.1

theorem way : Relation.ReflTransGen (Advance around) (begin job false, [])
    (upload.bare, events.filterMap Event.queued?) :=
  lived.course.2 ⟨lived.awake, lived.calm⟩

theorem refused_eq {sent : List PartRequest}
    (calls : ((events.filterMap Event.ended?).map Prod.fst).Perm sent) :
    ((events.filterMap Event.ended?).countP fun call => call.2.isRefused) =
      around.refused sent := by
  rw [Surroundings.refused, ← calls.countP_eq, List.countP_map]
  refine List.countP_congr fun call member => ?_
  rw [lived.heard call member]
  rfl

theorem verdict (answer : upload.result = some result) :
    upload.bare.verdict? around (events.filterMap Event.queued?) = some result := by
  obtain ⟨⟨same, _⟩, _⟩ := lived.course
  rcases lived.course.1.answer_cases answer with ⟨dispatch, stage, known, given⟩ | ⟨_, _, stage, _⟩
  · rw [bare_of_stage stage]
    rcases Dispatch.answer_cases given with ⟨outcome, rfl⟩ | ⟨outcome, summary, phase, rfl⟩ |
      ⟨phase, rfl⟩
    · simp only [verdict?, Dispatch.bare, Producer.settled_of_outcome outcome]
      rfl
    · obtain ⟨_, calls, _, all⟩ := known.working.finished phase
      obtain ⟨_, _, tracked⟩ := known.working.tracked
      have failed := tracked.failed phase lived.calm
      rw [lived.refused_eq (all lived.calm ▸ calls)] at failed
      simp only [verdict?, Dispatch.bare, phase, Producer.settled, same]
      congr 2
      exact conclude_congr job _ _ failed.symm outcome
    · simp only [verdict?, Dispatch.bare, phase, Producer.settled]
  · rw [bare_of_early (by simp [stage])]
    simp only [verdict?, stage, answer]

theorem ended (answered : upload.result.isSome = true) {there : Upload × List PartRequest} :
    ¬ Advance around (upload.bare, events.filterMap Event.queued?) there := by
  rintro ⟨move, _, _, own, _⟩
  obtain ⟨result, answer⟩ := Option.isSome_iff_exists.mp answered
  rcases lived.course.1.answer_cases answer with ⟨dispatch, stage, _, given⟩ | ⟨_, _, stage, _⟩
  · rw [bare_of_stage stage] at own
    rcases Dispatch.answer_cases given with ⟨outcome, _⟩ | ⟨_, _, phase, _⟩ | ⟨phase, _⟩
    · simp [ownMove?, Dispatch.bare, Producer.settled_of_outcome outcome] at own
    · simp [ownMove?, Dispatch.bare, phase, Producer.settled] at own
    · simp [ownMove?, Dispatch.bare, phase, Producer.settled] at own
  · rw [bare_of_early (by simp [stage])] at own
    simp [ownMove?, stage] at own

theorem started_isPrefix :
    events.filterMap Event.started? <+: events.filterMap Event.queued? := by
  by_cases early : ∀ dispatch, upload.stage ≠ .dispatching dispatch
  · rw [lived.course.1.unstarted early]
    exact List.nil_prefix
  · obtain ⟨dispatch, stage⟩ := not_forall.mp early
    obtain ⟨_, here⟩ := lived.course.1
    simp only [not_not.mp stage] at here
    obtain ⟨_, _, tracked⟩ := here.1.working.tracked
    exact tracked.started_isPrefix

theorem started_of_rest (rest : upload.isAtRest = true) :
    events.filterMap Event.started? = events.filterMap Event.queued? ∧
    ((events.filterMap Event.ended?).map Prod.fst).Perm (events.filterMap Event.started?) := by
  by_cases early : ∀ dispatch, upload.stage ≠ .dispatching dispatch
  · rw [lived.course.1.unstarted early, lived.course.1.unqueued early,
      run_unended lived.run early]
    exact ⟨rfl, .refl _⟩
  · obtain ⟨dispatch, stage⟩ := not_forall.mp early
    have stage := not_not.mp stage
    obtain ⟨_, here⟩ := lived.course.1
    simp only [isAtRest, stage, Bool.and_eq_true] at here rest
    obtain ⟨log, sent, tracked⟩ := here.1.working.tracked
    have run := tracked.followed.run
    have calm := lived.calm
    rw [tracked.followed.ended] at calm
    rw [tracked.followed.started, tracked.followed.ended]
    exact ⟨Pool.started_of_calm run rest.2 tracked.accepted calm,
      (Pool.calls_of_stopped (Pool.run_counted run) rest.2).symm⟩

end One

section Two

variable (one : Lived around job moves events upload) (two : Lived around job moves' more other)

include one two

theorem meet :
    Relation.ReflTransGen (Advance around) (upload.bare, events.filterMap Event.queued?)
      (other.bare, more.filterMap Event.queued?) ∨
    Relation.ReflTransGen (Advance around) (other.bare, more.filterMap Event.queued?)
      (upload.bare, events.filterMap Event.queued?) :=
  Relation.ReflTransGen.total_of_right_unique advance_unique one.way two.way

theorem leads (answered : other.result.isSome = true) :
    Relation.ReflTransGen (Advance around) (upload.bare, events.filterMap Event.queued?)
      (other.bare, more.filterMap Event.queued?) := by
  rcases one.meet two with ahead | behind
  · exact ahead
  -- nothing comes after the one that has its answer
  · rcases Relation.ReflTransGen.cases_head behind with same | ⟨_, step, _⟩
    · rw [same]
    · exact absurd step (two.ended answered)

theorem same_end (answered : upload.result.isSome = true)
    (answered' : other.result.isSome = true) :
    upload.bare = other.bare ∧
    events.filterMap Event.queued? = more.filterMap Event.queued? := by
  rcases Relation.ReflTransGen.cases_head (one.leads two answered') with same | ⟨_, step, _⟩
  · exact Prod.mk.inj same
  · exact absurd step (one.ended answered)

theorem result_eq (answer : upload.result = some result) {result' : Result}
    (answer' : other.result = some result') : result = result' := by
  obtain ⟨bare, queued⟩ :=
    one.same_end two (by rw [answer]; rfl) (by rw [answer']; rfl)
  have verdict := one.verdict answer
  rw [bare, queued, two.verdict answer'] at verdict
  exact (Option.some.inj verdict).symm

theorem queued_comparable :
    events.filterMap Event.queued? <+: more.filterMap Event.queued? ∨
    more.filterMap Event.queued? <+: events.filterMap Event.queued? :=
  (one.meet two).imp advance_isPrefix advance_isPrefix

theorem started_comparable :
    events.filterMap Event.started? <+: more.filterMap Event.started? ∨
    more.filterMap Event.started? <+: events.filterMap Event.started? := by
  rcases one.queued_comparable two with ahead | behind
  · exact List.prefix_or_prefix_of_prefix (one.started_isPrefix.trans ahead) two.started_isPrefix
  · exact List.prefix_or_prefix_of_prefix one.started_isPrefix (two.started_isPrefix.trans behind)

theorem started_eq (rest : upload.isAtRest = true) (rest' : other.isAtRest = true) :
    events.filterMap Event.started? = more.filterMap Event.started? := by
  have answered : ∀ {upload : Upload}, upload.isAtRest = true → upload.result.isSome = true := by
    intro upload rest
    simp only [isAtRest, Bool.and_eq_true] at rest
    exact rest.1
  rw [(one.started_of_rest rest).1, (two.started_of_rest rest').1,
    (one.same_end two (answered rest) (answered rest')).2]

end Two

end Lived

end Upload

end ChunkedUpload
