import ChunkedUpload.Proofs.Upload.Determined
import ChunkedUpload.Proofs.Upload.Cancelled

/-! The way of an upload to its rest. Each of its steps lowers a rank, which counts the bytes that
are still to be read; and as long as a worker is left or the caller has nothing, something can
happen, unless the stream does not answer. So an upload comes to rest wherever another one of the
same job, in the same surroundings, has given its answer. -/
namespace ChunkedUpload

namespace Pool

variable {pool next : Pool} {note : PoolNote}

theorem senders_of_step (step : Step pool note next) (line : note ≠ .hungUp) :
    next.queue.senders = pool.queue.senders := by
  cases step with
  | hangUp => exact absurd rfl line
  | accept | start | dismiss | desert | deliver | refuse | crash => rfl

theorem canWork_of_orphaned (orphaned : pool.queue.senders = 0) (live : pool.isStopped = false) :
    pool.CanWork := by
  cases full : pool.queue.slot.isSome with
  | true => exact canWork_of_full live full
  | false =>
    obtain ⟨worker, idle | ⟨request, busy⟩⟩ := worker_of_live live
    · have free : pool.queue.slot = none := by simpa using full
      exact ⟨worker, .inl (by simp [take?, idle, Queue.take?, free, Queue.isFinished, orphaned])⟩
    · exact canWork_of_busy busy

theorem CanWork.heard (work : pool.CanWork) (reply : PartRequest → Reply) :
    (∃ worker, (pool.take? worker).isSome = true) ∨
    ∃ worker request next, pool.finish? worker (reply request) = some (next, request) := by
  obtain ⟨worker, takes | finishes⟩ := work
  · exact .inl ⟨worker, takes⟩
  · right
    obtain ⟨⟨_, request⟩, finished⟩ := Option.isSome_iff_exists.mp (finishes .delivered)
    have busy : pool.workers[worker]? = some (.busy request) := by
      cases step_of_finish finished with
      | deliver busy => exact busy
    obtain ⟨⟨next, other⟩, again⟩ := Option.isSome_iff_exists.mp (finishes (reply request))
    have same : pool.workers[worker]? = some (.busy other) := by
      generalize reply request = answer at again
      cases step_of_finish again with
      | deliver busy | refuse busy | crash busy => exact busy
    cases busy.symm.trans same
    exact ⟨worker, request, next, again⟩

end Pool

namespace Dispatch

/-- How many steps the producer has before it, and what it will put into the queue is worth. Each
byte may become a part of its own. -/
def producerToGo (dispatch : Dispatch) : Nat :=
  let size := dispatch.source.stream.content.size
  let bytes := size - dispatch.source.stream.position
  let stop := 2 * dispatch.pool.workerCount + 2
  match dispatch.producer with
  | .seeking => 5 * size + stop + 3
  | .reading => 5 * bytes + stop + 2
  | .stalled => stop + 1
  | .queueing _ => 5 * bytes + stop + 6
  | .notifying => 5 * bytes + stop + 3
  | .stopping left _ => 2 * left + 2
  | .joining _ => 1
  | .finished _ _ | .abandoned => 0

def toGo (dispatch : Dispatch) : Nat := dispatch.producerToGo + dispatch.pool.load

/-- A producer that is gone has hung up. -/
def Orphaned (dispatch : Dispatch) : Prop :=
  dispatch.producer = .abandoned → dispatch.pool.queue.senders = 0

section ToGo

variable {job : UploadJob} {Allowed : Move → Prop} {events more : List Event}
  {dispatch after : Dispatch} {move : Move}

theorem start_toGo (source : Source) (plan : UploadPlan) :
    (Upload.startDispatch source plan).toGo ≤ 5 * source.stream.content.size + 17 := by
  have workers : max plan.workerCount 1 ≤ 4 := UploadPlan.workers_le plan
  have count : (Pool.start plan.workerCount).workerCount = _ := Pool.workerCount_of_run .start
  have load := Pool.load_start plan.workerCount
  simp only [toGo, producerToGo, Upload.startDispatch, count, load]
  omega

theorem read_toGo (phase : dispatch.producer = .reading) : dispatch.read.toGo < dispatch.toGo := by
  have given := dispatch.source.readPart_gives
  unfold read
  split <;> rename_i found <;> rw [found] at given
  · have stretch := congrArg ByteArray.size (Source.readPart_stretch found)
    rw [Content.size_slice] at stretch
    cases given with
    | part some_read =>
      simp only [toGo, producerToGo, phase, Stream.after]
      omega
  · unfold endOfInput
    split <;> simp only [toGo, producerToGo, leave, phase] <;> omega
  · simp only [toGo, producerToGo, leave, phase]
    omega
  · simp only [toGo, producerToGo, phase]
    omega

theorem step_toGo (h : Working job Allowed events dispatch)
    (step : Step job dispatch move more after) (other : move ≠ .read) :
    after.toGo < dispatch.toGo := by
  have count := h.workerCount_step step
  have content := (step_moved step).2.content
  cases step with
  | filled | ended | broken | stalled => exact absurd rfl other
  | sought phase =>
    dsimp only at content
    simp only [toGo, producerToGo, phase, content]
    omega
  | unsought phase =>
    simp only [toGo, producerToGo, leave, phase]
    omega
  | aborted waiting =>
    rcases phase_of_cancellable waiting with phase | phase | ⟨_, phase⟩ | phase <;>
      simp only [toGo, producerToGo, leave, phase] <;> omega
  | refused phase | notified phase | stopped phase | unneeded phase | joined phase =>
    simp only [toGo, producerToGo, leave, phase]
    omega
  | queued phase offered =>
    -- a part is worth two steps of a worker and three of the producer
    have load := Pool.load_of_offer offered
    simp only [toGo, producerToGo, phase, load, Item.weight] at count ⊢
    rw [count]
    omega
  | resent phase offered | told phase offered =>
    have load := Pool.load_of_offer offered
    simp only [toGo, producerToGo, leave, phase, load, Item.weight] at count ⊢
    omega
  | deserted phase =>
    have load : dispatch.desert.pool.load = dispatch.pool.load := rfl
    simp only [toGo, load, producerToGo, phase]
    simp only [desert]
    omega
  | took took =>
    have load := Pool.load_of_take took
    simp only [toGo, producerToGo] at count ⊢
    rw [count]
    omega
  | finished finished =>
    have load := Pool.load_of_finish finished
    simp only [toGo, producerToGo] at count ⊢
    rw [count]
    omega

theorem step_orphaned (h : Working job Allowed events dispatch)
    (step : Step job dispatch move more after) (orphaned : dispatch.Orphaned) : after.Orphaned := by
  intro gone
  cases step with
  | deserted phase =>
    obtain ⟨_, _, tracked⟩ := h.tracked
    have connected := tracked.connected (by simp [phase])
    have one := ((Pool.run_staffed tracked.followed.run).senders connected).1
    simp [desert, Queue.dropSender, one]
  | took took =>
    rcases Pool.step_of_take took with ⟨_, _, _, step⟩ | ⟨_, _, step⟩ | ⟨_, _, step⟩
    all_goals exact (Pool.senders_of_step step (by simp)).trans (orphaned gone)
  | finished finished =>
    exact (Pool.senders_of_step (Pool.step_of_finish finished) (by simp)).trans (orphaned gone)
  | ended =>
    unfold endOfInput at gone
    split at gone <;> cases gone
  | sought | unsought | filled | broken | stalled | refused | queued | resent | notified | aborted
  | stopped | unneeded | told | joined => cases gone

theorem Working.goes_on (h : Working job Allowed events dispatch) (orphaned : dispatch.Orphaned)
    {upload : Upload} (awake : upload.cancelled = false)
    (calm : ∀ call ∈ events.filterMap Event.ended?, call.2 ≠ .crashed)
    (moving : dispatch.producer ≠ .stalled)
    (restless : dispatch.result? job = none ∨ dispatch.pool.isStopped = false) :
    (∃ move ∈ [Move.seek, .read, .enqueue, .notify, .stop, .join],
      (upload.dispatchStep? dispatch move).isSome = true) ∨ dispatch.pool.CanWork := by
  cases phase : dispatch.producer with
  | stalled => exact absurd phase moving
  | seeking => exact .inl ⟨.seek, by simp, by simp [Upload.dispatchStep?, phase]⟩
  | reading => exact .inl ⟨.read, by simp, by simp [Upload.dispatchStep?, phase, awake]⟩
  | queueing request =>
    have is_open := h.open_queue calm (by rw [phase]; rfl)
    refine (h.enqueue_or_work is_open request).imp (fun room => ⟨.enqueue, by simp, ?_⟩) id
    simpa [Upload.dispatchStep?, phase, awake] using room
  | notifying =>
    refine .inl ⟨.notify, by simp, ?_⟩
    simp only [Upload.dispatchStep?, phase, awake, Bool.false_eq_true, if_false]
    split <;> rfl
  | stopping left outcome =>
    refine (h.stop_or_work phase).imp (fun stops => ⟨.stop, by simp, ?_⟩) id
    simpa [Upload.dispatchStep?] using stops
  | joining outcome =>
    refine (h.join_or_work phase).imp (fun joins => ⟨.join, by simp, ?_⟩) id
    simpa [Upload.dispatchStep?] using joins
  | finished outcome summary =>
    have stopped := (h.finished phase).2.2.1
    simp [result?, phase, stopped] at restless
  | abandoned =>
    have live : dispatch.pool.isStopped = false := by simpa [result?, phase] using restless
    exact .inr (Pool.canWork_of_orphaned (orphaned phase) live)

end ToGo

end Dispatch

/-- How many bytes the source of the job has, if it is found. -/
def UploadJob.extent (around : Surroundings) (job : UploadJob) : Nat :=
  match (Source.ofInput around.files job.input job.limit.bytes).1 with
  | .ok source => source.stream.content.size
  | .error _ => 0

namespace Upload

variable {around : Surroundings} {job : UploadJob} {moves moves' : List Move} {move : Move}
  {past events more : List Event} {upload next other : Upload} {dispatch : Dispatch}

def toGo (around : Surroundings) (upload : Upload) : Nat :=
  match upload.stage with
  | .waiting => 5 * upload.job.extent around + 21
  | .opening => 5 * upload.job.extent around + 20
  | .locating source _ => 5 * source.stream.content.size + 19
  | .connecting source _ _ => 5 * source.stream.content.size + 18
  | .dispatching dispatch => dispatch.toGo
  | .over _ => 0

theorem step_toGo
    (standing : Standing job (Move.Meets around job) (Dispatch.Known job (Move.Meets around job))
      past upload)
    (meets : move.Meets around job) (going : move ≠ .cancel)
    (stepped : upload.step? move = some (next, events)) :
    next.toGo around < upload.toGo around := by
  have step := step_of_step? standing.answer stepped
  obtain ⟨rfl, here⟩ := standing
  cases step with
  | cancelled => exact absurd rfl going
  | entered stage | withdrawn stage | unopened stage | unplanned stage | unlocated stage
  | located stage | unconnected stage =>
    simp [toGo, endEarly, stage]
  | @opened files source _ _ stage found =>
    have extent : upload.job.extent around = source.stream.content.size := by
      have same : Source.ofInput files upload.job.input upload.job.limit.bytes = _ := meets
      rw [UploadJob.extent, ← same, found]
    simp only [toGo, stage, extent]
    omega
  | @connected source plan _ stage =>
    have started := Dispatch.start_toGo source plan
    simp only [toGo, stage]
    omega
  | @dispatched dispatch after _ _ _ stage step =>
    simp only [stage] at here
    simp only [toGo, stage]
    by_cases reading : move = .read
    · subst reading
      obtain ⟨phase, _, _, eq⟩ := read_of_step stage stepped
      obtain rfl : after = dispatch.read := by simpa using congrArg Upload.stage eq
      exact Dispatch.read_toGo phase
    · exact Dispatch.step_toGo here.1.working step reading

theorem uncancelled_of_run {last : Upload} (run : upload.run? moves = some (last, events))
    (awake : last.cancelled = false) : upload.cancelled = false := by
  by_contra wanted
  have kept : StepKeeps step? (fun _ upload => upload.cancelled = true) fun _ => True :=
    fun _ _ _ _ _ wanted _ stepped => cancelled_of_step wanted stepped
  rw [run?_eq] at run
  have now := run_holds kept moves _ _ _ (by simpa using wanted) (fun _ _ => trivial) run
  rw [awake] at now
  contradiction

theorem cancel_notMem {last : Upload} (run : upload.run? moves = some (last, events))
    (awake : last.cancelled = false) : .cancel ∉ moves := by
  intro member
  obtain ⟨before, after, rfl⟩ := List.append_of_mem member
  rw [run?_eq] at run
  obtain ⟨mid, _, _, _, later, _⟩ := runSteps_split run
  obtain ⟨next, _, _, stepped, ran, _⟩ := runSteps_cons later
  cases stepped
  rw [← run?_eq] at ran
  cases uncancelled_of_run ran awake

theorem bare_cancelled (upload : Upload) : upload.bare.cancelled = upload.cancelled := by
  unfold bare
  split <;> rfl

theorem cancelled_of_way {here there : Upload × List PartRequest}
    (way : Relation.ReflTransGen (Advance around) here there) (wanted : here.1.cancelled = true) :
    there.1.cancelled = true := by
  induction way with
  | refl => exact wanted
  | tail _ step ih =>
    obtain ⟨_, next, _, _, stepped, rfl⟩ := step
    exact (bare_cancelled next).trans (cancelled_of_step ih stepped)

/-- Something can happen that is met with in these surroundings, and it does not cancel. -/
def CanGo (around : Surroundings) (job : UploadJob) (upload : Upload) : Prop :=
  ∃ move next more, move ≠ .cancel ∧ move.Meets around job ∧
    upload.step? move = some (next, more) ∧
    ∀ call ∈ more.filterMap Event.ended?, call.2 = around.reply call.1

namespace Lived

theorem length_le (lived : Lived around job moves events upload) :
    moves.length ≤ 5 * job.extent around + 21 := by
  have alive := cancel_notMem lived.run lived.awake
  have fresh : Standing job (Move.Meets around job)
      (Dispatch.Known job (Move.Meets around job)) [] (begin job false) := ⟨rfl, rfl, rfl⟩
  have run := lived.run
  rw [run?_eq] at run
  have kept : StepKeeps step? (Standing job (Move.Meets around job)
      (Dispatch.Known job (Move.Meets around job)))
      fun move => move.Meets around job ∧ move ≠ .cancel :=
    fun past upload move next events standing allowed stepped =>
      step_known past upload move next events standing allowed.1 stepped
  have bounded := run_length_le (toGo around) kept
    (fun _ _ _ _ _ standing allowed => step_toGo standing allowed.1 allowed.2)
    moves _ _ [] events fresh
    (fun move member => ⟨lived.meets move member, fun same => alive (same ▸ member)⟩) run
  exact Nat.le_trans (Nat.le_add_right _ _) bounded

theorem orphaned (lived : Lived around job moves events upload)
    (stage : upload.stage = .dispatching dispatch) : dispatch.Orphaned := by
  have standing := run_standing
    (P := fun past dispatch => dispatch.Working job (Move.Meets around job) past ∧
      dispatch.Orphaned)
    (fun _ source plan endpoint opening opened =>
      ⟨Dispatch.start_working endpoint opening opened, by rintro ⟨⟩⟩)
    (fun _ _ _ _ _ known _ step =>
      ⟨Dispatch.step_working step known.1, Dispatch.step_orphaned known.1 step known.2⟩)
    lived.meets lived.run
  obtain ⟨_, here⟩ := standing
  simp only [stage] at here
  exact here.1.2

theorem snoc (lived : Lived around job moves events upload) (meets : move.Meets around job)
    (stepped : upload.step? move = some (next, more)) (still : next.cancelled = false)
    (heard : ∀ call ∈ more.filterMap Event.ended?, call.2 = around.reply call.1) :
    Lived around job (moves ++ [move]) (events ++ more) next := by
  constructor
  · have run := lived.run
    rw [run?_eq] at run ⊢
    exact runSteps_snoc run stepped
  · intro other member
    rcases List.mem_append.mp member with earlier | now
    · exact lived.meets other earlier
    · exact List.mem_singleton.mp now ▸ meets
  · exact still
  · intro call member
    rw [List.filterMap_append] at member
    rcases List.mem_append.mp member with earlier | now
    · exact lived.heard call earlier
    · exact heard call now

theorem answer_step (lived : Lived around job moves events upload)
    (stepped : upload.step? move = some (next, more)) : Step upload move more next :=
  step_of_step? lived.course.1.answer stepped

theorem can_go (lived : Lived around job moves events upload) (move : Move) (going : move ≠ .cancel)
    (meets : move.Meets around job) (silent : ∀ worker reply, move ≠ .finish worker reply)
    (possible : (upload.step? move).isSome = true) : upload.CanGo around job := by
  obtain ⟨⟨next, more⟩, stepped⟩ := Option.isSome_iff_exists.mp possible
  refine ⟨move, next, more, going, meets, stepped, fun call ended => ?_⟩
  obtain ⟨worker, same⟩ := ended_of_step (lived.answer_step stepped) ended
  exact absurd same (silent worker call.2)

theorem can_go_of_work (lived : Lived around job moves events upload)
    (stage : upload.stage = .dispatching dispatch) (work : dispatch.pool.CanWork) :
    upload.CanGo around job := by
  rcases work.heard around.reply with ⟨worker, takes⟩ | ⟨worker, request, pool, finishes⟩
  · exact lived.can_go (.take worker) (by simp) trivial (by simp)
      (by simpa [step?, stage, dispatchStep?] using takes)
  · refine ⟨.finish worker (around.reply request),
      { upload with stage := .dispatching { dispatch with pool := pool } },
      [.ended request (around.reply request)], by simp, trivial, ?_, by simp [Event.ended?]⟩
    simp only [step?, stage, dispatchStep?, finishes, Option.map_some]

theorem able (lived : Lived around job moves events upload) (restless : upload.isAtRest = false)
    (moving : ∀ dispatch, upload.stage = .dispatching dispatch → dispatch.producer ≠ .stalled) :
    upload.CanGo around job := by
  have awake := lived.awake
  obtain ⟨⟨_, here⟩, _⟩ := lived.course
  cases stage : upload.stage with
  | waiting =>
    exact lived.can_go .enter (by simp) trivial (by simp)
      (by simp [step?, stage, awake])
  | opening =>
    refine lived.can_go (.openInput around.files) (by simp) rfl (by simp) ?_
    simp only [step?, stage]
    split
    · rfl
    · split <;> rfl
  | locating source plan =>
    refine lived.can_go (.locate around.home) (by simp) rfl (by simp) ?_
    simp only [step?, stage]
    split <;> rfl
  | connecting source plan endpoint =>
    refine lived.can_go (.connect around.session) (by simp) rfl (by simp) ?_
    simp only [step?, stage]
    split <;> rfl
  | dispatching dispatch =>
    simp only [stage] at here
    obtain ⟨⟨working, _⟩, answer⟩ := here
    have left : dispatch.result? job = none ∨ dispatch.pool.isStopped = false := by
      cases given : dispatch.result? job with
      | none => exact .inl rfl
      | some result => simpa [isAtRest, stage, answer, given] using restless
    rcases working.goes_on (lived.orphaned stage) awake lived.calm (moving dispatch stage) left with
      ⟨move, own, possible⟩ | work
    · simp only [List.mem_cons, List.not_mem_nil, or_false] at own
      refine lived.can_go move ?_ ?_ ?_ ?_ <;>
        rcases own with rfl | rfl | rfl | rfl | rfl | rfl <;>
        first | exact trivial | simp [step?, stage, possible]
    · exact lived.can_go_of_work stage work
  | _ =>
    simp only [stage] at here
    obtain ⟨_, _, _, _, answer⟩ := here
    simp [isAtRest, stage, answer] at restless

section Ahead

variable (one : Lived around job moves events upload) (two : Lived around job moves' past other)
  (answered : other.result.isSome = true)

include one two answered

/-- Where another one has its answer, this one is at its end or has a next step, which does not
cancel it. -/
theorem on_the_way :
    (upload.bare.verdict? around (events.filterMap Event.queued?)).isSome = true ∨
    ∃ own after seen, upload.bare.ownMove? around = some own ∧
      upload.bare.step? own = some (after, seen) ∧ after.cancelled = false := by
  rcases Relation.ReflTransGen.cases_head (one.leads two answered) with same | ⟨_, step, way⟩
  · obtain ⟨result, answer⟩ := Option.isSome_iff_exists.mp answered
    obtain ⟨bare, queued⟩ := Prod.mk.inj same
    left
    rw [bare, queued, two.verdict answer]
    rfl
  · obtain ⟨own, after, seen, moves, stepped, rfl⟩ := step
    refine .inr ⟨own, after, seen, moves, stepped, ?_⟩
    by_contra wanted
    have cancelled := cancelled_of_way way
      ((bare_cancelled after).trans (by simpa using wanted))
    rw [bare_cancelled, two.awake] at cancelled
    contradiction

theorem unstalled (stage : upload.stage = .dispatching dispatch) :
    dispatch.producer ≠ .stalled := by
  intro phase
  have ahead := one.on_the_way two answered
  simp [bare_of_stage stage, verdict?, ownMove?, Dispatch.bare, phase, Producer.settled] at ahead

theorem unfired (going : move ≠ .cancel) : ¬ upload.Fires move := by
  rintro (same | ⟨dispatch, stage, phase, cancels⟩)
  · exact going same
  · have bare_phase : dispatch.bare.producer = .notifying := by
      simp only [Dispatch.bare, phase, Producer.settled]
    have same : dispatch.bare.report upload.job = dispatch.report upload.job := rfl
    rcases one.on_the_way two answered with ended | ⟨own, after, seen, moves, stepped, still⟩
    · simp [bare_of_stage stage, verdict?, bare_phase] at ended
    · rw [bare_of_stage stage] at moves stepped
      simp only [ownMove?, bare_phase, Option.some.injEq] at moves
      subst moves
      simp only [step?, dispatchStep?, bare_phase, same, cancels,
        Option.ite_none_left_eq_some] at stepped
      obtain ⟨_, eq⟩ := stepped
      cases eq
      contradiction

theorem goes_on (restless : upload.isAtRest = false) :
    ∃ move next more, upload.step? move = some (next, more) ∧
      Lived around job (moves ++ [move]) (events ++ more) next := by
  obtain ⟨move, next, more, going, meets, stepped, heard⟩ :=
    one.able restless fun dispatch stage => one.unstalled two answered stage
  refine ⟨move, next, more, stepped, one.snoc meets stepped ?_ heard⟩
  exact ((token_of_step stepped).resolve_right fun fires =>
    one.unfired two answered going fires.2).trans one.awake

end Ahead

end Lived

end Upload

end ChunkedUpload
