import ChunkedUpload.Pool.Calls
import ChunkedUpload.Proofs.Pool.Stopped
import ChunkedUpload.Proofs.Run

/-! A pool in use: parts are queued, and then it is ordered to stop. The order takes the pool over,
so it waits for no call and no call comes after it. What is seen of a use are the events of the
pool and what goes through its queue. -/
namespace ChunkedUpload

structure PoolUse where
  calls : PoolCalls
  /-- The parts that were to be queued so far. A call is known by its place here. -/
  asked : List PartRequest
  stopping : Bool

inductive PoolAct
  | enqueue (request : PartRequest)
  | shutdown
  | move (move : PoolMove)

inductive PoolSight
  | event (event : PoolEvent)
  /-- An item has got into the queue. -/
  | accepted (item : Item)
  /-- A worker has taken an item out of the queue. -/
  | taken (worker : Nat) (item : Item)
deriving DecidableEq

/-- What of a note concerns the session. -/
def PoolNote.session? : PoolNote → Option PoolEvent
  | started _ request => some (.started request)
  | ended _ request reply => some (.ended request reply)
  | _ => none

namespace PoolSight

def started? : PoolSight → Option PartRequest
  | event (.started request) => some request
  | _ => none

def ended? : PoolSight → Option (PartRequest × Reply)
  | event (.ended request reply) => some (request, reply)
  | _ => none

/-- What concerns the session: a call begins or ends. -/
def session? : PoolSight → Option PoolEvent
  | event (.started request) => some (.started request)
  | event (.ended request reply) => some (.ended request reply)
  | _ => none

/-- The call that has queued its part. -/
def queued? : PoolSight → Option Nat
  | event (.replied id .queued) => some id
  | _ => none

def stopped? : PoolSight → Option PoolSummary
  | event (.replied _ (.stopped summary)) => some summary
  | _ => none

def accepted? : PoolSight → Option Item
  | accepted item => some item
  | _ => none

def taken? : PoolSight → Option (Nat × Item)
  | taken worker item => some (worker, item)
  | _ => none

/-- The worker that has taken a shutdown item. -/
def dismissed? : PoolSight → Option Nat
  | taken worker .shutdown => some worker
  | _ => none

end PoolSight

/-- The first of the waiting calls is refused, queues its item, learns that the pool has stopped, or
sends one more shutdown item. -/
theorem PoolCalls.proceed_cases {calls next : PoolCalls} {events : List PoolEvent}
    (proceeded : calls.proceed? = some (next, events)) :
    (∃ id item rest, calls.waiting = (id, .put item) :: rest ∧ calls.pool.queue.isClosed = true ∧
      next = { calls with waiting := rest } ∧ events = [.replied id (.refused item)]) ∨
    (∃ id item rest pool, calls.waiting = (id, .put item) :: rest ∧
      calls.pool.offer? item = some pool ∧ next = ⟨pool, rest⟩ ∧ events = [.replied id .queued]) ∨
    (∃ id left rest, calls.waiting = (id, .stop left) :: rest ∧ calls.pool.isStopped = true ∧
      next = { calls with waiting := rest } ∧
      events = [.replied id (.stopped calls.pool.summary)]) ∨
    (∃ id left rest pool, calls.waiting = (id, .stop (left + 1)) :: rest ∧
      calls.pool.offer? .shutdown = some pool ∧ next = ⟨pool, (id, .stop left) :: rest⟩ ∧
      events = []) := by
  simp only [proceed?] at proceeded
  split at proceeded
  · contradiction
  · rename_i id item rest waiting
    split at proceeded
    · rename_i closed
      cases proceeded
      exact .inl ⟨id, item, rest, waiting, closed, rfl, rfl⟩
    · obtain ⟨pool, offered, eq⟩ := Option.map_eq_some_iff.mp proceeded
      cases eq
      exact .inr (.inl ⟨id, item, rest, pool, waiting, offered, rfl, rfl⟩)
  · rename_i id left rest waiting
    split at proceeded
    · rename_i gone
      cases proceeded
      exact .inr (.inr (.inl ⟨id, left, rest, waiting, gone, rfl, rfl⟩))
    · split at proceeded
      · contradiction
      · rename_i left
        obtain ⟨pool, offered, eq⟩ := Option.map_eq_some_iff.mp proceeded
        cases eq
        exact .inr (.inr (.inr ⟨id, left, rest, pool, waiting, offered, rfl, rfl⟩))

namespace PoolUse

def start (workerCount : Nat) : PoolUse := ⟨PoolCalls.start workerCount, [], false⟩

/-- What goes through the queue, read off its slot: before a worker takes something, and after a
call has found the slot free. -/
def handover (before after : Pool) : PoolMove → List PoolSight
  | .take worker => before.queue.slot.toList.map (.taken worker)
  | .proceed => if before.queue.slot.isNone then after.queue.slot.toList.map .accepted else []
  | .finish _ _ => []

def step? (use : PoolUse) : PoolAct → Option (PoolUse × List PoolSight)
  | .enqueue request =>
    if use.stopping then none
    else some ({ use with
      calls := use.calls.enqueue use.asked.length (.part request)
      asked := use.asked ++ [request] }, [])
  | .shutdown =>
    if use.stopping || !use.calls.waiting.isEmpty then none
    else some ({ use with
      calls := use.calls.shutdown use.asked.length
      stopping := true }, [])
  | .move move =>
    (use.calls.step? move).map fun (calls, events) =>
      ({ use with calls := calls },
        handover use.calls.pool calls.pool move ++ events.map .event)

/-- The parts whose calls were told that they are queued, in this order. -/
def acceptedParts (use : PoolUse) (sights : List PoolSight) : List PartRequest :=
  (sights.filterMap PoolSight.queued?).filterMap fun id => use.asked[id]?

/-- Notes of a pool that tell the same as what was seen. -/
structure Agrees (log : List PoolNote) (sights : List PoolSight) : Prop where
  accepted : sights.filterMap PoolSight.accepted? = log.filterMap PoolNote.accepted?
  taken : (sights.filterMap PoolSight.taken?).map Prod.snd = log.filterMap PoolNote.taken?
  dismissed : sights.filterMap PoolSight.dismissed? = log.filterMap PoolNote.dismissed?
  started : sights.filterMap PoolSight.started? = log.filterMap PoolNote.started?
  ended : sights.filterMap PoolSight.ended? = log.filterMap PoolNote.ended?
  session : sights.filterMap PoolSight.session? = log.filterMap PoolNote.session?

theorem Agrees.append {log more : List PoolNote} {sights seen : List PoolSight}
    (h : Agrees log sights) (h' : Agrees more seen) : Agrees (log ++ more) (sights ++ seen) := by
  constructor
  · simp only [List.filterMap_append, h.accepted, h'.accepted]
  · simp only [List.filterMap_append, List.map_append, h.taken, h'.taken]
  · simp only [List.filterMap_append, h.dismissed, h'.dismissed]
  · simp only [List.filterMap_append, h.started, h'.started]
  · simp only [List.filterMap_append, h.ended, h'.ended]
  · simp only [List.filterMap_append, h.session, h'.session]

/-- The pool has a log that agrees with what was seen of its use. -/
def Traced (count : Nat) (sights : List PoolSight) (pool : Pool) : Prop :=
  ∃ log, Pool.Run count log pool ∧ PoolNote.hungUp ∉ log ∧ Agrees log sights

section Trace

variable {count worker : Nat} {sights : List PoolSight} {pool next : Pool}

theorem Traced.step (h : Traced count sights pool) {note : PoolNote} {seen : List PoolSight}
    (stepped : Pool.Step pool note next) (line : note ≠ .hungUp) (agrees : Agrees [note] seen) :
    Traced count (sights ++ seen) next := by
  obtain ⟨log, run, connected, same⟩ := h
  refine ⟨log ++ [note], .step run stepped, ?_, same.append agrees⟩
  simpa [connected] using Ne.symm line

theorem Traced.take (h : Traced count sights pool) {begun : Option PartRequest}
    (took : pool.take? worker = some (next, begun)) :
    Traced count (sights ++ (pool.queue.slot.toList.map (.taken worker) ++
      (begun.toList.map PoolEvent.started).map .event)) next := by
  rcases Pool.step_of_take took with ⟨request, rfl, full, stepped⟩ | ⟨rfl, full, stepped⟩ |
    ⟨rfl, free, stepped⟩
  · rw [full]
    exact h.step stepped (by simp) ⟨rfl, rfl, rfl, rfl, rfl, rfl⟩
  · rw [full]
    exact h.step stepped (by simp) ⟨rfl, rfl, rfl, rfl, rfl, rfl⟩
  · -- Nobody finds the queue finished while the producer is connected.
    obtain ⟨log, run, connected, _⟩ := h
    have senders := ((Pool.run_staffed run).senders connected).1
    have orphaned : pool.queue.senders = 0 := by cases stepped; assumption
    omega

theorem Traced.finish (h : Traced count sights pool) {reply : Reply} {request : PartRequest}
    (finished : pool.finish? worker reply = some (next, request)) :
    Traced count (sights ++ [.event (.ended request reply)]) next :=
  h.step (Pool.step_of_finish finished) (by simp) ⟨rfl, rfl, rfl, rfl, rfl, rfl⟩

theorem Traced.offer (h : Traced count sights pool) {item : Item}
    (offered : pool.offer? item = some next) {seen : List PoolSight}
    (agrees : Agrees [.accepted item] seen) : Traced count (sights ++ seen) next :=
  h.step (Pool.step_of_offer offered) (by simp) agrees

theorem Traced.same (h : Traced count sights pool) {seen : List PoolSight}
    (agrees : Agrees [] seen) : Traced count (sights ++ seen) pool := by
  obtain ⟨log, run, connected, same⟩ := h
  exact ⟨log, run, connected, by simpa using same.append agrees⟩

end Trace

/-- What holds of every use: the queue has taken the accepted parts and, after the order to stop,
one shutdown item after the other. -/
structure Sound (count : Nat) (sights : List PoolSight) (use : PoolUse) : Prop where
  traced : Traced count sights use.calls.pool
  known : ∀ id ∈ sights.filterMap PoolSight.queued?, id < use.asked.length
  feeding : use.stopping = false →
    sights.filterMap PoolSight.accepted? = (use.acceptedParts sights).map Item.part ∧
    (∀ call ∈ use.calls.waiting, ∃ request, call.2 = .put (.part request) ∧
      use.asked[call.1]? = some request) ∧
    sights.filterMap PoolSight.stopped? = []
  closing : use.stopping = true → ∃ sent ≤ max count 1,
    sights.filterMap PoolSight.accepted? =
      (use.acceptedParts sights).map Item.part ++ List.replicate sent Item.shutdown ∧
    ((∃ id left, use.calls.waiting = [(id, .stop left)] ∧ sent + left = max count 1 ∧
        sights.filterMap PoolSight.stopped? = []) ∨
      (use.calls.waiting = [] ∧ use.calls.pool.isStopped = true ∧
        ∀ summary ∈ sights.filterMap PoolSight.stopped?, summary = use.calls.pool.summary))

section Steps

variable {count : Nat} {sights seen : List PoolSight} {use : PoolUse}

theorem start_sound (count : Nat) : Sound count [] (start count) where
  traced := ⟨[], .start, by simp, ⟨rfl, rfl, rfl, rfl, rfl, rfl⟩⟩
  known := by simp
  feeding _ := ⟨rfl, by simp [start, PoolCalls.start], rfl⟩
  closing stopping := by cases stopping

/-- A new call changes nothing about those that were told earlier that they are queued. -/
theorem acceptedParts_ask (known : ∀ id ∈ sights.filterMap PoolSight.queued?, id < use.asked.length)
    (request : PartRequest) (calls : PoolCalls) :
    ({ use with calls := calls, asked := use.asked ++ [request] } : PoolUse).acceptedParts sights =
      use.acceptedParts sights :=
  List.filterMap_congr fun id told => List.getElem?_append_left (known id told)

theorem Sound.enqueue (h : Sound count sights use) (open_ : use.stopping = false)
    (request : PartRequest) :
    Sound count sights { use with
      calls := use.calls.enqueue use.asked.length (.part request)
      asked := use.asked ++ [request] } := by
  obtain ⟨accepted, waiting, unstopped⟩ := h.feeding open_
  constructor
  · exact h.traced
  · intro id told
    have before := h.known id told
    simp only [List.length_append, List.length_singleton]
    omega
  · intro _
    refine ⟨by rw [acceptedParts_ask h.known, accepted], ?_, unstopped⟩
    intro call member
    rcases List.mem_append.mp member with earlier | new
    · obtain ⟨part, put, place⟩ := waiting call earlier
      have inside : call.1 < use.asked.length := (List.getElem?_eq_some_iff.mp place).1
      exact ⟨part, put, (List.getElem?_append_left inside).trans place⟩
    · obtain rfl := List.mem_singleton.mp new
      exact ⟨request, rfl, by simp⟩
  · intro stopping
    rw [open_] at stopping
    contradiction

theorem Sound.shutdown (h : Sound count sights use) (open_ : use.stopping = false)
    (idle : use.calls.waiting = []) :
    Sound count sights { use with
      calls := use.calls.shutdown use.asked.length
      stopping := true } := by
  obtain ⟨accepted, _, unstopped⟩ := h.feeding open_
  have size : use.calls.pool.workers.length = max count 1 := by
    obtain ⟨log, run, _, _⟩ := h.traced
    exact (Pool.run_staffed run).size
  refine ⟨h.traced, h.known, fun closed => by contradiction, fun _ => ⟨0, by omega, ?_, ?_⟩⟩
  · rw [List.replicate_zero, List.append_nil]
    exact accepted
  · refine .inl ⟨use.asked.length, max count 1, ?_, by omega, unstopped⟩
    simp [PoolCalls.shutdown, PoolCalls.join, idle, Pool.workerCount, size]

theorem Sound.work (h : Sound count sights use) {pool : Pool}
    (live : use.calls.pool.isStopped = false) (traced : Traced count (sights ++ seen) pool)
    (queued : seen.filterMap PoolSight.queued? = [])
    (accepted : seen.filterMap PoolSight.accepted? = [])
    (stopped : seen.filterMap PoolSight.stopped? = []) :
    Sound count (sights ++ seen) { use with calls := { use.calls with pool := pool } } := by
  have parts :
      (sights ++ seen).filterMap PoolSight.queued? = sights.filterMap PoolSight.queued? := by
    rw [List.filterMap_append, queued, List.append_nil]
  constructor
  · exact traced
  · rw [parts]
    exact h.known
  · intro open_
    simp only [acceptedParts, parts, List.filterMap_append, accepted, stopped, List.append_nil]
    exact h.feeding open_
  · intro stopping
    obtain ⟨sent, few, all, phase⟩ := h.closing stopping
    simp only [acceptedParts, parts, List.filterMap_append, accepted, stopped, List.append_nil]
    refine ⟨sent, few, all, .inl ?_⟩
    rcases phase with running | ⟨_, gone, _⟩
    · exact running
    · rw [live] at gone
      contradiction

theorem handover_offer {pool next : Pool} {item : Item} (offered : pool.offer? item = some next) :
    handover pool next .proceed = [.accepted item] := by
  have stepped := Pool.step_of_offer offered
  cases stepped with
  | accept _ free => simp [handover, free]

theorem handover_same {pool : Pool} : handover pool pool .proceed = [] := by
  cases slot : pool.queue.slot <;> simp [handover, slot]

theorem Sound.open_of_put (h : Sound count sights use) {id : Nat} {item : Item}
    {rest : List (Nat × PoolCall)} (waiting : use.calls.waiting = (id, .put item) :: rest) :
    use.stopping = false := by
  by_contra closed
  obtain ⟨_, _, _, ⟨_, _, alone, _⟩ | ⟨none_there, _⟩⟩ := h.closing (by simpa using closed)
  · rw [waiting] at alone
    cases alone
  · rw [waiting] at none_there
    cases none_there

/-- The call that stops the pool is the last one, and has sent what is not left to send. -/
theorem Sound.closing_of_stop (h : Sound count sights use) {id left : Nat}
    {rest : List (Nat × PoolCall)} (waiting : use.calls.waiting = (id, .stop left) :: rest) :
    use.stopping = true ∧ rest = [] ∧ sights.filterMap PoolSight.stopped? = [] ∧
    ∃ sent, sent + left = max count 1 ∧ sights.filterMap PoolSight.accepted? =
      (use.acceptedParts sights).map Item.part ++ List.replicate sent Item.shutdown := by
  have closed : use.stopping = true := by
    by_contra open_
    obtain ⟨_, puts, _⟩ := h.feeding (by simpa using open_)
    obtain ⟨request, put, _⟩ := puts (id, .stop left) (by simp [waiting])
    cases put
  obtain ⟨sent, _, all, ⟨_, _, alone, total, unstopped⟩ | ⟨none_there, _⟩⟩ := h.closing closed
  · rw [waiting] at alone
    cases alone
    exact ⟨closed, rfl, unstopped, sent, total, all⟩
  · rw [waiting] at none_there
    cases none_there

theorem Sound.refused (h : Sound count sights use) {id : Nat} {item : Item}
    {rest : List (Nat × PoolCall)} (waiting : use.calls.waiting = (id, .put item) :: rest) :
    Sound count (sights ++ [.event (.replied id (.refused item))])
      { use with calls := { use.calls with waiting := rest } } := by
  have parts : (sights ++ [PoolSight.event (.replied id (.refused item))]).filterMap
      PoolSight.queued? = sights.filterMap PoolSight.queued? := by simp [PoolSight.queued?]
  have open_ := h.open_of_put waiting
  constructor
  · exact h.traced.same ⟨rfl, rfl, rfl, rfl, rfl, rfl⟩
  · rw [parts]
    exact h.known
  · intro _
    obtain ⟨accepted, puts, unstopped⟩ := h.feeding open_
    rw [waiting] at puts
    refine ⟨?_, fun call member => puts call (by simp [member]), ?_⟩
    · simpa [acceptedParts, parts, PoolSight.accepted?] using accepted
    · simpa [PoolSight.stopped?] using unstopped
  · intro closed
    cases closed.symm.trans open_

theorem Sound.queued (h : Sound count sights use) {id : Nat} {item : Item} {pool : Pool}
    {rest : List (Nat × PoolCall)} (waiting : use.calls.waiting = (id, .put item) :: rest)
    (offered : use.calls.pool.offer? item = some pool) :
    Sound count (sights ++ [.accepted item, .event (.replied id .queued)])
      { use with calls := ⟨pool, rest⟩ } := by
  have open_ := h.open_of_put waiting
  obtain ⟨accepted, puts, unstopped⟩ := h.feeding open_
  rw [waiting] at puts
  obtain ⟨request, put, place⟩ := puts (id, .put item) (by simp)
  cases put
  constructor
  · exact h.traced.offer offered ⟨rfl, rfl, rfl, rfl, rfl, rfl⟩
  · intro told member
    simp only [List.filterMap_append, List.mem_append] at member
    rcases member with earlier | now
    · exact h.known told earlier
    · obtain rfl : id = told := by simpa [PoolSight.queued?] using now
      exact (List.getElem?_eq_some_iff.mp place).1
  · intro _
    refine ⟨?_, fun call member => puts call (by simp [member]), ?_⟩
    · simp only [List.filterMap_append, accepted, acceptedParts]
      simp [List.filterMap_cons, PoolSight.accepted?, PoolSight.queued?, place]
    · simpa [PoolSight.stopped?] using unstopped
  · intro closed
    cases closed.symm.trans open_

theorem Sound.sent (h : Sound count sights use) {id left : Nat} {pool : Pool}
    {rest : List (Nat × PoolCall)} (waiting : use.calls.waiting = (id, .stop (left + 1)) :: rest)
    (offered : use.calls.pool.offer? .shutdown = some pool) :
    Sound count (sights ++ [.accepted .shutdown])
      { use with calls := ⟨pool, (id, .stop left) :: rest⟩ } := by
  have parts : (sights ++ [PoolSight.accepted .shutdown]).filterMap PoolSight.queued? =
      sights.filterMap PoolSight.queued? := by simp [PoolSight.queued?]
  obtain ⟨closed, rfl, unstopped, sent, total, all⟩ := h.closing_of_stop waiting
  constructor
  · exact h.traced.offer offered ⟨rfl, rfl, rfl, rfl, rfl, rfl⟩
  · rw [parts]
    exact h.known
  · intro open_
    cases closed.symm.trans open_
  · intro _
    refine ⟨sent + 1, by omega, ?_, .inl ⟨id, left, rfl, by omega, ?_⟩⟩
    · simp only [List.filterMap_append, all, acceptedParts]
      simp [PoolSight.accepted?, PoolSight.queued?, List.replicate_succ']
    · simpa [PoolSight.stopped?] using unstopped

theorem Sound.stopped (h : Sound count sights use) {id left : Nat}
    {rest : List (Nat × PoolCall)} (waiting : use.calls.waiting = (id, .stop left) :: rest)
    (gone : use.calls.pool.isStopped = true) :
    Sound count (sights ++ [.event (.replied id (.stopped use.calls.pool.summary))])
      { use with calls := { use.calls with waiting := rest } } := by
  have parts : (sights ++
      [PoolSight.event (.replied id (.stopped use.calls.pool.summary))]).filterMap
        PoolSight.queued? = sights.filterMap PoolSight.queued? := by simp [PoolSight.queued?]
  obtain ⟨closed, rfl, unstopped, sent, total, all⟩ := h.closing_of_stop waiting
  constructor
  · exact h.traced.same ⟨rfl, rfl, rfl, rfl, rfl, rfl⟩
  · rw [parts]
    exact h.known
  · intro open_
    cases closed.symm.trans open_
  · intro _
    refine ⟨sent, by omega, ?_, .inr ⟨rfl, gone, ?_⟩⟩
    · simpa [acceptedParts, parts, PoolSight.accepted?] using all
    · simp [unstopped, PoolSight.stopped?]

theorem Sound.proceed (h : Sound count sights use) {calls : PoolCalls} {events : List PoolEvent}
    (proceeded : use.calls.proceed? = some (calls, events)) :
    Sound count (sights ++ (handover use.calls.pool calls.pool .proceed ++ events.map .event))
      { use with calls := calls } := by
  rcases PoolCalls.proceed_cases proceeded with
    ⟨id, item, rest, waiting, _, rfl, rfl⟩ | ⟨id, item, rest, pool, waiting, offered, rfl, rfl⟩ |
    ⟨id, left, rest, waiting, gone, rfl, rfl⟩ | ⟨id, left, rest, pool, waiting, offered, rfl, rfl⟩
  · simpa [handover_same] using h.refused waiting
  · simpa [handover_offer offered] using h.queued waiting offered
  · simpa [handover_same] using h.stopped waiting gone
  · simpa [handover_offer offered] using h.sent waiting offered

theorem take_silent (worker : Nat) (slot : Option Item) (begun : Option PartRequest) :
    let seen := slot.toList.map (PoolSight.taken worker) ++
      (begun.toList.map PoolEvent.started).map PoolSight.event
    seen.filterMap PoolSight.queued? = [] ∧ seen.filterMap PoolSight.accepted? = [] ∧
      seen.filterMap PoolSight.stopped? = [] := by
  cases slot <;> cases begun <;> exact ⟨rfl, rfl, rfl⟩

theorem step_sound (count : Nat) : StepKeeps step? (Sound count) (fun _ => True) := by
  intro sights use act next seen h _ stepped
  cases act with
  | enqueue request =>
    simp only [step?, Option.ite_none_left_eq_some, Bool.not_eq_true] at stepped
    obtain ⟨open_, eq⟩ := stepped
    cases eq
    simpa using h.enqueue open_ request
  | shutdown =>
    simp only [step?, Option.ite_none_left_eq_some, Bool.or_eq_true, not_or, Bool.not_eq_true,
      Bool.not_eq_eq_eq_not, Bool.not_true, Bool.not_eq_false, List.isEmpty_iff] at stepped
    obtain ⟨⟨open_, idle⟩, eq⟩ := stepped
    cases eq
    simpa using h.shutdown open_ idle
  | move move =>
    obtain ⟨⟨calls, events⟩, moved, eq⟩ := Option.map_eq_some_iff.mp stepped
    cases eq
    cases move with
    | take worker =>
      obtain ⟨⟨pool, begun⟩, took, eq⟩ := Option.map_eq_some_iff.mp moved
      cases eq
      obtain ⟨queued, accepted, stopped⟩ := take_silent worker use.calls.pool.queue.slot begun
      exact h.work (Pool.live_of_take took) (h.traced.take took) queued accepted stopped
    | finish worker reply =>
      obtain ⟨⟨pool, request⟩, finished, eq⟩ := Option.map_eq_some_iff.mp moved
      cases eq
      exact h.work (Pool.live_of_finish finished) (h.traced.finish finished) rfl rfl rfl
    | proceed => exact h.proceed moved

theorem run_sound {acts : List PoolAct} {last : PoolUse}
    (run : runSteps? step? (start count) acts = some (last, sights)) : Sound count sights last :=
  run_holds (step_sound count) acts _ _ _ (start_sound count) (fun _ _ => trivial) run

end Steps

end PoolUse

end ChunkedUpload
