import ChunkedUpload.Proofs.Pool.Progress
import ChunkedUpload.Proofs.Pool.Shutdown

/-! A pool with a producer that queues its parts one after the other and then orders the pool to
stop. Whatever the session answers, and whoever moves next, each step brings the end nearer, and
until the order is carried out somebody can make a step. -/
namespace ChunkedUpload

/-- A use of a pool by a producer that has these parts left. -/
structure PoolFeed where
  use : PoolUse
  left : List PartRequest

inductive FeedAct
  /-- The producer, whose last call has its answer, makes the next one. -/
  | call
  | move (move : PoolMove)

def PoolCall.rank : PoolCall → Nat
  | .put item => item.weight + 1
  | .stop left => 2 * left + 1

namespace PoolFeed

def start (workerCount : Nat) (parts : List PartRequest) : PoolFeed :=
  ⟨PoolUse.start workerCount, parts⟩

/-- The next call of the producer, and the parts that are left after it. -/
def nextCall (feed : PoolFeed) : PoolAct × List PartRequest :=
  match feed.left with
  | [] => (.shutdown, [])
  | part :: rest => (.enqueue part, rest)

def step? (feed : PoolFeed) : FeedAct → Option (PoolFeed × List PoolSight)
  | .call =>
    if feed.use.calls.waiting.isEmpty then
      (feed.use.step? feed.nextCall.1).map fun (use, seen) => (⟨use, feed.nextCall.2⟩, seen)
    else none
  | .move move => (feed.use.step? (.move move)).map fun (use, seen) => (⟨use, feed.left⟩, seen)

/-- What the producer has to pay for the order to stop, as long as it has not given it. -/
def orderRank (use : PoolUse) : Nat :=
  if use.stopping then 0 else 2 * use.calls.pool.workerCount + 2

/-- How many steps the producer and the workers can still make. -/
def rank (feed : PoolFeed) : Nat :=
  4 * feed.left.length + orderRank feed.use +
    (feed.use.calls.waiting.map fun call => call.2.rank).sum + feed.use.calls.pool.load

/-- The producer can make a step, or a worker can, whatever the session answers it. -/
def CanMove (feed : PoolFeed) : Prop :=
  (feed.step? .call).isSome ∨ (feed.step? (.move .proceed)).isSome ∨
    ∃ worker, (feed.step? (.move (.take worker))).isSome ∨
      ∀ reply, (feed.step? (.move (.finish worker reply))).isSome

section Rank

variable {feed next : PoolFeed} {act : FeedAct} {seen : List PoolSight}

theorem workerCount_of_step {pool after : Pool} {note : PoolNote}
    (step : Pool.Step pool note after) : after.workerCount = pool.workerCount := by
  cases step <;> simp [Pool.workerCount]

theorem rank_of_work {pool : Pool} (less : pool.load < feed.use.calls.pool.load)
    (same : pool.workerCount = feed.use.calls.pool.workerCount) :
    rank ⟨{ feed.use with calls := { feed.use.calls with pool := pool } }, feed.left⟩ <
      feed.rank := by
  simp only [rank, orderRank, same]
  omega

theorem workerCount_of_offer {pool after : Pool} {item : Item}
    (offered : pool.offer? item = some after) : after.workerCount = pool.workerCount :=
  workerCount_of_step (Pool.step_of_offer offered)

theorem rank_of_proceed {calls : PoolCalls} {events : List PoolEvent}
    (proceeded : feed.use.calls.proceed? = some (calls, events)) :
    rank ⟨{ feed.use with calls := calls }, feed.left⟩ < feed.rank := by
  rcases PoolCalls.proceed_cases proceeded with
    ⟨id, item, rest, waiting, _, rfl, _⟩ | ⟨id, item, rest, pool, waiting, offered, rfl, _⟩ |
    ⟨id, left, rest, waiting, _, rfl, _⟩ | ⟨id, left, rest, pool, waiting, offered, rfl, _⟩
  · simp only [rank, orderRank, waiting, List.map_cons, List.sum_cons, PoolCall.rank]
    omega
  · have load := Pool.load_of_offer offered
    have same := workerCount_of_offer offered
    simp only [rank, orderRank, waiting, List.map_cons, List.sum_cons, PoolCall.rank, load, same]
    omega
  · simp only [rank, orderRank, waiting, List.map_cons, List.sum_cons, PoolCall.rank]
    omega
  · have load := Pool.load_of_offer offered
    have same := workerCount_of_offer offered
    simp only [rank, orderRank, waiting, List.map_cons, List.sum_cons, PoolCall.rank, load, same,
      Item.weight]
    omega

theorem rank_of_call (idle : feed.use.calls.waiting = [])
    (called : (feed.use.step? feed.nextCall.1).map
      (fun result => (⟨result.1, feed.nextCall.2⟩, result.2)) = some (next, seen)) :
    next.rank < feed.rank := by
  obtain ⟨⟨use, sights⟩, stepped, eq⟩ := Option.map_eq_some_iff.mp called
  cases eq
  unfold nextCall at stepped ⊢
  cases parts : feed.left with
  | nil =>
    simp only [parts, PoolUse.step?, Option.ite_none_left_eq_some, Bool.or_eq_true, not_or,
      Bool.not_eq_true] at stepped
    obtain ⟨⟨running, _⟩, eq⟩ := stepped
    cases eq
    simp only [rank, orderRank, parts, running, idle, PoolCalls.shutdown, PoolCalls.join,
      List.nil_append, List.map_cons, List.map_nil, List.sum_cons, List.sum_nil, PoolCall.rank,
      if_true, Bool.false_eq_true, if_false]
    omega
  | cons part rest =>
    simp only [parts, PoolUse.step?, Option.ite_none_left_eq_some, Bool.not_eq_true] at stepped
    obtain ⟨running, eq⟩ := stepped
    cases eq
    simp only [rank, orderRank, parts, running, idle, PoolCalls.enqueue, PoolCalls.join,
      List.nil_append, List.map_cons, List.map_nil, List.sum_cons, List.sum_nil, PoolCall.rank,
      Item.weight, Bool.false_eq_true, if_false, List.length_cons]
    omega

theorem step_rank (stepped : feed.step? act = some (next, seen)) : next.rank < feed.rank := by
  cases act with
  | call =>
    simp only [step?, Option.ite_none_right_eq_some, List.isEmpty_iff] at stepped
    exact rank_of_call stepped.1 stepped.2
  | move move =>
    obtain ⟨⟨use, sights⟩, used, eq⟩ := Option.map_eq_some_iff.mp stepped
    cases eq
    obtain ⟨⟨calls, events⟩, moved, eq⟩ := Option.map_eq_some_iff.mp used
    cases eq
    cases move with
    | take worker =>
      obtain ⟨⟨pool, begun⟩, took, eq⟩ := Option.map_eq_some_iff.mp moved
      cases eq
      apply rank_of_work (Pool.load_of_take took)
      rcases Pool.step_of_take took with ⟨_, _, _, step⟩ | ⟨_, _, step⟩ | ⟨_, _, step⟩
      · exact workerCount_of_step step
      · exact workerCount_of_step step
      · exact workerCount_of_step step
    | finish worker reply =>
      obtain ⟨⟨pool, request⟩, finished, eq⟩ := Option.map_eq_some_iff.mp moved
      cases eq
      exact rank_of_work (Pool.load_of_finish finished)
        (workerCount_of_step (Pool.step_of_finish finished))
    | proceed => exact rank_of_proceed moved

theorem rank_start (count : Nat) (parts : List PartRequest) :
    (start count parts).rank = 4 * parts.length + 3 * max count 1 + 2 := by
  have load := Pool.load_start count
  have workers : (Pool.start count).workerCount = max count 1 := by
    simp [Pool.workerCount, Pool.start]
  simp only [rank, orderRank, start, PoolUse.start, PoolCalls.start, load, workers,
    Bool.false_eq_true, if_false, List.map_nil, List.sum_nil]
  omega

end Rank

/-- What holds of every use by such a producer: the accounts of the pool, and that the order to stop
waits until it has its answer. -/
structure Fed (count : Nat) (sights : List PoolSight) (feed : PoolFeed) : Prop where
  sound : PoolUse.Sound count sights feed.use
  answered : feed.use.stopping = true → feed.use.calls.waiting = [] →
    sights.filterMap PoolSight.stopped? ≠ []

section Run

variable {count : Nat} {sights : List PoolSight} {feed : PoolFeed}

theorem answered_of_proceed {calls : PoolCalls} {events : List PoolEvent}
    (h : Fed count sights feed)
    (proceeded : feed.use.calls.proceed? = some (calls, events))
    (stopping : feed.use.stopping = true) (nothing : calls.waiting = []) :
    (sights ++ events.map PoolSight.event).filterMap PoolSight.stopped? ≠ [] := by
  obtain ⟨_, _, _, phase⟩ := h.sound.closing stopping
  rcases PoolCalls.proceed_cases proceeded with
    ⟨id, item, rest, waiting, _, rfl, rfl⟩ | ⟨id, item, rest, pool, waiting, _, rfl, rfl⟩ |
    ⟨id, left, rest, waiting, _, rfl, rfl⟩ | ⟨id, left, rest, pool, waiting, _, rfl, rfl⟩
  · simp [waiting] at phase
  · simp [waiting] at phase
  · simp [PoolSight.stopped?]
  · simp at nothing

theorem step_fed (count : Nat) : StepKeeps step? (Fed count) (fun _ => True) := by
  intro sights feed act next seen h _ stepped
  cases act with
  | call =>
    simp only [step?, Option.ite_none_right_eq_some] at stepped
    obtain ⟨⟨use, more⟩, called, eq⟩ := Option.map_eq_some_iff.mp stepped.2
    cases eq
    refine ⟨PoolUse.step_sound count _ _ _ _ _ h.sound trivial called, ?_⟩
    intro stopping nothing
    -- the call that has just been made waits
    unfold nextCall at called
    cases parts : feed.left with
    | nil =>
      simp only [parts, PoolUse.step?, Option.ite_none_left_eq_some] at called
      cases called.2
      simp [PoolCalls.shutdown, PoolCalls.join] at nothing
    | cons part rest =>
      simp only [parts, PoolUse.step?, Option.ite_none_left_eq_some] at called
      cases called.2
      simp [PoolCalls.enqueue, PoolCalls.join] at nothing
  | move move =>
    obtain ⟨⟨use, more⟩, used, eq⟩ := Option.map_eq_some_iff.mp stepped
    cases eq
    refine ⟨PoolUse.step_sound count _ _ _ _ _ h.sound trivial used, ?_⟩
    obtain ⟨⟨calls, events⟩, moved, eq⟩ := Option.map_eq_some_iff.mp used
    cases eq
    intro stopping nothing
    rw [List.filterMap_append, List.filterMap_append]
    cases move with
    | take worker =>
      obtain ⟨⟨pool, begun⟩, took, eq⟩ := Option.map_eq_some_iff.mp moved
      cases eq
      simp [h.answered stopping nothing]
    | finish worker reply =>
      obtain ⟨⟨pool, request⟩, finished, eq⟩ := Option.map_eq_some_iff.mp moved
      cases eq
      simp [h.answered stopping nothing]
    | proceed =>
      have told := answered_of_proceed h moved stopping nothing
      rw [List.filterMap_append] at told
      intro silent
      simp only [List.append_eq_nil_iff] at silent
      exact told (by rw [silent.1, silent.2.2, List.nil_append])

theorem start_fed (count : Nat) (parts : List PartRequest) : Fed count [] (start count parts) where
  sound := PoolUse.start_sound count
  answered stopping := by cases stopping

theorem canMove_of_canWork (work : feed.use.calls.pool.CanWork) : feed.CanMove := by
  obtain ⟨worker, takes | finishes⟩ := work
  · exact .inr (.inr ⟨worker, .inl (by
      simpa [step?, PoolUse.step?, PoolCalls.step?] using takes)⟩)
  · exact .inr (.inr ⟨worker, .inr fun reply => by
      simpa [step?, PoolUse.step?, PoolCalls.step?] using finishes reply⟩)

theorem canMove_of_proceed (able : feed.use.calls.proceed?.isSome = true) : feed.CanMove :=
  .inr (.inl (by simpa [step?, PoolUse.step?, PoolCalls.step?] using able))

theorem offer_or_work {log : List PoolNote} {pool : Pool} (run : Pool.Run count log pool)
    (manned : pool.queue.isClosed = false) (item : Item) :
    (pool.offer? item).isSome = true ∨ pool.CanWork := by
  by_cases full : pool.queue.slot.isSome = true
  · exact .inr (Pool.canWork_of_slot run full)
  · refine .inl ?_
    simp [Pool.offer?, Queue.offer?, manned, full]

theorem Fed.can_feed (h : Fed count sights feed) (running : feed.use.stopping = false) :
    feed.CanMove := by
  obtain ⟨_, waiting, _⟩ := h.sound.feeding running
  obtain ⟨log, run, _, _⟩ := h.sound.traced
  cases calls : feed.use.calls.waiting with
  | nil =>
    refine .inl ?_
    cases parts : feed.left <;>
      simp [step?, nextCall, PoolUse.step?, calls, parts, running]
  | cons call rest =>
    obtain ⟨request, put, _⟩ := waiting call (by simp [calls])
    obtain ⟨id, what⟩ := call
    dsimp only at put
    subst put
    cases closed : feed.use.calls.pool.queue.isClosed with
    | true =>
      apply canMove_of_proceed
      simp [PoolCalls.proceed?, calls, closed]
    | false =>
      rcases offer_or_work run closed (.part request) with room | work
      · apply canMove_of_proceed
        simpa [PoolCalls.proceed?, calls, closed] using room
      · exact canMove_of_canWork work

theorem Fed.can_stop (h : Fed count sights feed) (stopping : feed.use.stopping = true)
    (unanswered : sights.filterMap PoolSight.stopped? = []) : feed.CanMove := by
  obtain ⟨sent, few, accepted, ⟨id, left, calls, total, _⟩ | ⟨nothing, _⟩⟩ :=
    h.sound.closing stopping
  · obtain ⟨log, run, connected, agrees⟩ := h.sound.traced
    cases gone : feed.use.calls.pool.isStopped with
    | true =>
      apply canMove_of_proceed
      simp [PoolCalls.proceed?, calls, gone]
    | false =>
      cases left with
      | zero =>
        -- every worker was sent its shutdown item, so those that are left can go on
        obtain rfl : sent = max count 1 := total
        exact canMove_of_canWork
          (Pool.canWork_of_dismissed run connected (agrees.accepted.symm.trans accepted) gone)
      | succ left =>
        have closed : feed.use.calls.pool.queue.isClosed = false := by
          rw [(Pool.run_staffed run).closed, gone]
        rcases offer_or_work run closed .shutdown with room | work
        · apply canMove_of_proceed
          simpa [PoolCalls.proceed?, calls, gone] using room
        · exact canMove_of_canWork work
  · exact absurd unanswered (h.answered stopping nothing)

theorem Fed.few_shutdowns (h : Fed count sights feed) :
    (sights.filterMap PoolSight.accepted?).count .shutdown ≤ max count 1 := by
  cases stopping : feed.use.stopping with
  | false =>
    have accepted := (h.sound.feeding stopping).1
    have none_sent := shutdowns_of_items (feed.use.acceptedParts sights) 0
    rw [List.replicate_zero, List.append_nil, ← accepted] at none_sent
    omega
  | true =>
    obtain ⟨sent, few, accepted, _⟩ := h.sound.closing stopping
    rw [accepted, shutdowns_of_items]
    exact few

end Run

/-- A pool never gets stuck, whichever calls crash. Every step of the producer or of a worker lowers
the rank, which bounds the length of every run; until the order to stop is carried out a step is
possible; and then every worker has ended. -/
theorem never_stuck (count : Nat) (parts : List PartRequest) (acts : List FeedAct)
    (last : PoolFeed) (sights : List PoolSight)
    (run : runSteps? step? (start count parts) acts = some (last, sights)) :
    (∀ act next seen, last.step? act = some (next, seen) → next.rank < last.rank) ∧
    acts.length + last.rank ≤ 4 * parts.length + 3 * max count 1 + 2 ∧
    (sights.filterMap PoolSight.accepted?).count .shutdown ≤ max count 1 ∧
    (sights.filterMap PoolSight.stopped? = [] → last.CanMove) ∧
    (sights.filterMap PoolSight.stopped? ≠ [] →
      ∀ worker ∈ last.use.calls.pool.workers, worker.isGone = true) := by
  have fed := run_holds (step_fed count) acts _ _ _ (start_fed count parts)
    (fun _ _ => trivial) run
  have short := run_length_le rank (step_fed count)
    (fun _ _ _ _ _ _ _ stepped => step_rank stepped) acts _ _ _ _ (start_fed count parts)
    (fun _ _ => trivial) run
  rw [rank_start] at short
  refine ⟨fun _ _ _ stepped => step_rank stepped, short, fed.few_shutdowns, ?_, ?_⟩
  · intro unanswered
    cases stopping : last.use.stopping with
    | false => exact fed.can_feed stopping
    | true => exact fed.can_stop stopping unanswered
  · intro answered
    obtain ⟨summary, returned⟩ := List.exists_mem_of_ne_nil _ answered
    have gone := (fed.sound.answered returned).1
    simpa [Pool.isStopped] using gone

/-- Both workers have crashed, with two shutdown items still to be sent. -/
theorem never_stuck_without_workers :
    let part : UInt32 → PartRequest := fun i => ⟨9, i, none, ByteArray.empty⟩
    let acts : List FeedAct := [.call, .move .proceed, .move (.take 0), .call, .move .proceed,
      .move (.take 1), .call, .move .proceed, .move (.finish 1 .crashed),
      .move (.finish 0 .crashed), .call]
    ∃ last sights, runSteps? step? (start 2 [part 0, part 1, part 2]) acts = some (last, sights) ∧
      last.use.calls.waiting = [(3, .stop 2)] ∧
      last.use.calls.pool.workers = [.crashed, .crashed] ∧ last.CanMove := by
  intro part acts
  refine ⟨_, _, rfl, rfl, rfl, ?_⟩
  exact (never_stuck 2 [part 0, part 1, part 2] acts _ _ rfl).2.2.2.1 (by decide)

end PoolFeed

end ChunkedUpload
