import ChunkedUpload.Proofs.Pool.Stopped
import ChunkedUpload.Proofs.Upload.Standing

/-! The pool of an upload under its producer. The pool's log and the events of the upload tell the
same, and what the producer has put into the queue are the parts it has queued and, once it has
left its loop, shutdown items. -/
namespace ChunkedUpload

namespace Producer

/-- Whether the producer still has parts to queue. -/
def isFeeding : Producer → Bool
  | seeking | reading | stalled | queueing _ | notifying => true
  | stopping _ _ | joining _ | finished _ _ | abandoned => false

/-- Where the producer is when the pool has got so many shutdown items from it. -/
def Place (pool : Pool) (sent : Nat) : Producer → Prop
  | stopping left _ => sent + left = pool.workerCount
  | joining _ => sent = pool.workerCount ∨ pool.queue.isClosed = true
  | finished _ summary => pool.isStopped = true ∧ summary = pool.summary
  | _ => sent = 0

theorem place_of_feeding {producer : Producer} (feeding : producer.isFeeding = true) (pool : Pool)
    (sent : Nat) : producer.Place pool sent ↔ sent = 0 := by
  cases producer with
  | seeking | reading | stalled | queueing | notifying => rfl
  | stopping | joining | finished | abandoned => contradiction

end Producer

theorem Producer.place_of_live {producer : Producer} {pool next : Pool} {sent : Nat}
    (live : pool.isStopped = false) (closed : pool.queue.isClosed = pool.isStopped)
    (same : next.workerCount = pool.workerCount) (place : producer.Place pool sent) :
    producer.Place next sent := by
  cases producer with
  | seeking | reading | stalled | queueing | notifying | abandoned => exact place
  | stopping left outcome =>
    simpa [Place, same] using place
  | joining outcome =>
    rw [Place, closed, live] at place
    exact .inl (by simpa [same] using place)
  | finished outcome summary =>
    rw [Place, live] at place
    simp at place

namespace Dispatch

/-- The log of the pool tells of the same calls as the events. -/
structure Followed (count : Nat) (events : List Event) (pool : Pool) (log : List PoolNote) :
    Prop where
  run : Pool.Run count log pool
  started : events.filterMap Event.started? = log.filterMap PoolNote.started?
  ended : events.filterMap Event.ended? = log.filterMap PoolNote.ended?

section Follow

variable {count worker : Nat} {events more : List Event} {pool next : Pool} {log : List PoolNote}

theorem Followed.silent (h : Followed count events pool log)
    (unstarted : more.filterMap Event.started? = []) (unended : more.filterMap Event.ended? = []) :
    Followed count (events ++ more) pool log := by
  constructor
  · exact h.run
  · rw [List.filterMap_append, unstarted, List.append_nil, h.started]
  · rw [List.filterMap_append, unended, List.append_nil, h.ended]

theorem Followed.step (h : Followed count events pool log) {note : PoolNote}
    (step : Pool.Step pool note next)
    (started : more.filterMap Event.started? = note.started?.toList)
    (ended : more.filterMap Event.ended? = note.ended?.toList) :
    Followed count (events ++ more) next (log ++ [note]) := by
  constructor
  · exact .step h.run step
  · rw [List.filterMap_append, filterMap_snoc, h.started, started]
  · rw [List.filterMap_append, filterMap_snoc, h.ended, ended]

theorem Followed.take (h : Followed count events pool log) {begun : Option PartRequest}
    (took : pool.take? worker = some (next, begun)) :
    ∃ note, note.accepted? = none ∧ note ≠ .hungUp ∧
      Followed count (events ++ begun.toList.map .started) next (log ++ [note]) := by
  rcases Pool.step_of_take took with ⟨request, rfl, _, step⟩ | ⟨rfl, _, step⟩ | ⟨rfl, _, step⟩
  · exact ⟨.started worker request, rfl, by simp, h.step step rfl rfl⟩
  · exact ⟨.dismissed worker, rfl, by simp, h.step step rfl rfl⟩
  · exact ⟨.deserted worker, rfl, by simp, h.step step rfl rfl⟩

end Follow

structure Tracked (events : List Event) (dispatch : Dispatch) (log : List PoolNote) (sent : Nat) :
    Prop where
  followed : Followed dispatch.plan.workerCount events dispatch.pool log
  accepted : log.filterMap PoolNote.accepted? =
    (events.filterMap Event.queued?).map Item.part ++ List.replicate sent Item.shutdown
  few : sent ≤ dispatch.pool.workerCount
  connected : dispatch.producer ≠ .abandoned → PoolNote.hungUp ∉ log
  place : dispatch.producer.Place dispatch.pool sent

section Track

variable {job : UploadJob} {events more : List Event} {dispatch after : Dispatch}
  {log : List PoolNote} {sent : Nat}

theorem start_tracked (source : Source) (plan : UploadPlan) (endpoint : Int32) :
    Tracked [.askedHome, .askedSession endpoint] (Upload.startDispatch source plan) [] 0 := by
  constructor
  · exact ⟨.start, rfl, rfl⟩
  · rfl
  · exact Nat.zero_le _
  · intro _
    exact List.not_mem_nil
  · rfl

theorem Tracked.started_isPrefix (h : Tracked events dispatch log sent) :
    events.filterMap Event.started? <+: events.filterMap Event.queued? := by
  rw [h.followed.started]
  exact Pool.started_isPrefix (Pool.run_in_order h.followed.run) h.accepted

theorem Tracked.feeding (h : Tracked events dispatch log sent)
    (feeding : dispatch.producer.isFeeding = true) : sent = 0 ∧ PoolNote.hungUp ∉ log := by
  refine ⟨(Producer.place_of_feeding feeding _ _).mp h.place, h.connected ?_⟩
  intro abandoned
  rw [abandoned] at feeding
  contradiction

theorem Tracked.producer (h : Tracked events dispatch log sent)
    (connected : dispatch.producer ≠ .abandoned)
    (silent : more.filterMap Event.queued? = [] ∧ more.filterMap Event.started? = [] ∧
      more.filterMap Event.ended? = [])
    (pool : after.pool = dispatch.pool) (plan : after.plan = dispatch.plan)
    (place : after.producer.Place dispatch.pool sent) :
    Tracked (events ++ more) after log sent := by
  obtain ⟨unqueued, unstarted, unended⟩ := silent
  constructor
  · rw [pool, plan]
    exact h.followed.silent unstarted unended
  · rw [List.filterMap_append, unqueued, List.append_nil]
    exact h.accepted
  · rw [pool]
    exact h.few
  · exact fun _ => h.connected connected
  · rw [pool]
    exact place

theorem Tracked.leave (h : Tracked events dispatch log sent)
    (feeding : dispatch.producer.isFeeding = true) (outcome : DispatchOutcome)
    (pool : after.pool = dispatch.pool) (plan : after.plan = dispatch.plan) :
    Tracked (events ++ []) (after.leave outcome) log sent := by
  have none_sent := (h.feeding feeding).1
  refine h.producer ?_ ⟨rfl, rfl, rfl⟩ pool plan ?_
  · intro abandoned
    rw [abandoned] at feeding
    contradiction
  · simp [Dispatch.leave, Producer.Place, none_sent, pool]

theorem Tracked.offer (h : Tracked events dispatch log sent) {pool : Pool} {item : Item} {now : Nat}
    (offered : dispatch.pool.offer? item = some pool) (connected : dispatch.producer ≠ .abandoned)
    (silent : more.filterMap Event.started? = [] ∧ more.filterMap Event.ended? = [])
    (accepted : (events.filterMap Event.queued?).map Item.part ++ List.replicate sent .shutdown ++
      [item] = ((events ++ more).filterMap Event.queued?).map Item.part ++
        List.replicate now .shutdown)
    (few : now ≤ pool.workerCount)
    (same : after.pool = pool) (plan : after.plan = dispatch.plan)
    (place : after.producer.Place pool now) :
    Tracked (events ++ more) after (log ++ [.accepted item]) now := by
  obtain ⟨unstarted, unended⟩ := silent
  constructor
  · rw [same, plan]
    exact h.followed.step (Pool.step_of_offer offered) unstarted unended
  · rw [filterMap_snoc, h.accepted]
    exact accepted
  · rw [same]
    exact few
  · intro _
    simpa using h.connected connected
  · rw [same]
    exact place

theorem Tracked.worker (h : Tracked events dispatch log sent) {pool : Pool} {note : PoolNote}
    (followed : Followed dispatch.plan.workerCount (events ++ more) pool (log ++ [note]))
    (live : dispatch.pool.isStopped = false) (unqueued : more.filterMap Event.queued? = [])
    (unaccepted : note.accepted? = none) (working : note ≠ .hungUp) :
    Tracked (events ++ more) { dispatch with pool := pool } (log ++ [note]) sent := by
  have count : pool.workerCount = dispatch.pool.workerCount := by
    rw [Pool.workerCount_of_run followed.run, Pool.workerCount_of_run h.followed.run]
  have closed := (Pool.run_staffed h.followed.run).closed
  constructor
  · exact followed
  · rw [filterMap_snoc, unaccepted, Option.toList_none, List.append_nil, List.filterMap_append,
      unqueued, List.append_nil]
    exact h.accepted
  · simpa [count] using h.few
  · intro connected
    have before := h.connected connected
    simpa [before] using working.symm
  · exact Producer.place_of_live live closed count h.place

theorem Tracked.desert (h : Tracked events dispatch log sent)
    (feeding : dispatch.producer.isFeeding = true)
    (silent : more.filterMap Event.queued? = [] ∧ more.filterMap Event.started? = [] ∧
      more.filterMap Event.ended? = []) :
    Tracked (events ++ more) dispatch.desert (log ++ [.hungUp]) sent := by
  obtain ⟨unqueued, unstarted, unended⟩ := silent
  constructor
  · exact h.followed.step .hangUp unstarted unended
  · rw [filterMap_snoc, List.filterMap_append, unqueued, List.append_nil]
    exact (List.append_nil _).trans h.accepted
  · exact h.few
  · exact fun connected => absurd rfl connected
  · exact (h.feeding feeding).1

theorem shown_silent (dispatch : Dispatch) (job : UploadJob) :
    (dispatch.shown job).filterMap Event.queued? = [] ∧
    (dispatch.shown job).filterMap Event.started? = [] ∧
    (dispatch.shown job).filterMap Event.ended? = [] := by
  unfold shown
  cases (dispatch.report job).seen <;> exact ⟨rfl, rfl, rfl⟩

theorem feeding_of_cancellable (waiting : dispatch.isCancellable = true) :
    dispatch.producer.isFeeding = true := by
  rcases phase_of_cancellable waiting with phase | phase | ⟨_, phase⟩ | phase <;> rw [phase] <;> rfl

/-- Every step keeps the pool under its producer. -/
theorem step_tracked {move : Move} (step : Step job dispatch move more after)
    (h : Tracked events dispatch log sent) :
    ∃ log sent, Tracked (events ++ more) after log sent := by
  cases step with
  | sought phase | filled phase | stalled phase =>
    have feeding : dispatch.producer.isFeeding = true := by rw [phase]; rfl
    exact ⟨log, sent, h.producer (by simp [phase]) ⟨rfl, rfl, rfl⟩ rfl rfl (h.feeding feeding).1⟩
  | unsought phase | broken phase | refused phase =>
    exact ⟨log, sent, h.leave (by rw [phase]; rfl) _ rfl rfl⟩
  | ended phase =>
    unfold endOfInput
    split <;> exact ⟨log, sent, h.leave (by rw [phase]; rfl) _ rfl rfl⟩
  | aborted waiting => exact ⟨log, sent, h.leave (feeding_of_cancellable waiting) _ rfl rfl⟩
  | notified phase =>
    have feeding : dispatch.producer.isFeeding = true := by rw [phase]; rfl
    exact ⟨log, sent, h.producer (by simp [phase]) (shown_silent dispatch job) rfl rfl
      (h.feeding feeding).1⟩
  | deserted phase =>
    exact ⟨_, sent, h.desert (by rw [phase]; rfl) (shown_silent dispatch job)⟩
  | queued phase offered =>
    obtain ⟨rfl, _⟩ := h.feeding (by rw [phase]; rfl)
    exact ⟨_, 0, h.offer offered (by simp [phase]) ⟨rfl, rfl⟩ (by simp [Event.queued?])
      (Nat.zero_le _) rfl rfl rfl⟩
  | resent phase offered =>
    obtain ⟨rfl, _⟩ := h.feeding (by rw [phase]; rfl)
    exact ⟨_, 0, h.offer offered (by simp [phase]) ⟨rfl, rfl⟩ (by simp [Event.queued?])
      (Nat.zero_le _) rfl rfl (Nat.zero_add _)⟩
  | stopped phase =>
    have place := h.place
    rw [phase, Producer.Place, Nat.add_zero] at place
    exact ⟨log, sent, h.producer (by simp [phase]) ⟨rfl, rfl, rfl⟩ rfl rfl (.inl place)⟩
  | unneeded phase closed =>
    exact ⟨log, sent, h.producer (by simp [phase]) ⟨rfl, rfl, rfl⟩ rfl rfl (.inr closed)⟩
  | @told left outcome pool phase offered =>
    have place := h.place
    have ran := Pool.Run.step h.followed.run (Pool.step_of_offer offered)
    rw [phase, Producer.Place, Pool.workerCount_of_run h.followed.run,
      ← Pool.workerCount_of_run ran] at place
    exact ⟨_, sent + 1, h.offer offered (by simp [phase]) ⟨rfl, rfl⟩
      (by simp [List.replicate_succ', List.append_assoc]) (by omega) rfl rfl
      (by simp only [Producer.Place]; omega)⟩
  | joined phase gone =>
    exact ⟨log, sent, h.producer (by simp [phase]) ⟨rfl, rfl, rfl⟩ rfl rfl ⟨gone, rfl⟩⟩
  | @took worker pool begun took =>
    obtain ⟨note, unaccepted, working, followed⟩ := h.followed.take took
    have unqueued : (begun.toList.map Event.started).filterMap Event.queued? = [] := by
      cases begun <;> rfl
    exact ⟨_, sent, h.worker followed (Pool.live_of_take took) unqueued unaccepted working⟩
  | finished finished =>
    exact ⟨_, sent, h.worker (h.followed.step (Pool.step_of_finish finished) rfl rfl)
      (Pool.live_of_finish finished) rfl rfl (by simp)⟩

section Finished

variable {outcome : DispatchOutcome} {summary : PoolSummary}
  (h : Tracked events dispatch log sent) (phase : dispatch.producer = .finished outcome summary)

include h phase

/-- The workers have begun with a beginning of what was queued, and ended all that they began. -/
theorem Tracked.finished :
    events.filterMap Event.started? <+: events.filterMap Event.queued? ∧
    ((events.filterMap Event.ended?).map Prod.fst).Perm (events.filterMap Event.started?) ∧
    dispatch.pool.isStopped = true ∧
    ((∀ call ∈ events.filterMap Event.ended?, call.2 ≠ .crashed) →
      events.filterMap Event.started? = events.filterMap Event.queued?) := by
  have run := h.followed.run
  have connected := h.connected (by simp [phase])
  have place := h.place
  rw [phase] at place
  obtain ⟨gone, _⟩ := place
  have few : sent ≤ max dispatch.plan.workerCount 1 := by
    rw [← Pool.workerCount_of_run run]
    exact h.few
  refine ⟨h.started_isPrefix, ?_⟩
  rw [h.followed.started, h.followed.ended]
  refine ⟨(Pool.calls_of_stopped (Pool.run_counted run) gone).symm, gone, fun calm => ?_⟩
  exact (Pool.stopped_without_crash run gone connected h.accepted few calm).2.2.1

theorem Tracked.failed (calm : ∀ call ∈ events.filterMap Event.ended?, call.2 ≠ .crashed) :
    summary.failed = (events.filterMap Event.ended?).countP fun call => call.2.isRefused := by
  have place := h.place
  rw [phase] at place
  obtain ⟨_, rfl⟩ := place
  have none_crashed :
      ((events.filterMap Event.ended?).countP fun call => call.2 = .crashed) = 0 := by
    rw [List.countP_eq_zero]
    simpa using calm
  rw [h.followed.ended] at none_crashed ⊢
  have failed := (Pool.run_counted h.followed.run).summary_failed
  rwa [none_crashed, Nat.add_zero] at failed

end Finished

end Track

end Dispatch

end ChunkedUpload
