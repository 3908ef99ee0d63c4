import ChunkedUpload.Proofs.Upload.Backlog
import ChunkedUpload.Proofs.Upload.Fidelity
import ChunkedUpload.Proofs.Upload.Leaving
import ChunkedUpload.Proofs.Upload.Resending
import ChunkedUpload.Proofs.Upload.Served

/-! A part that is sent again, and the upload that sent it first. The producer of a resend goes its
own way of seven moves to a queued part, whatever its calls of the session do; and what it queues is
the request that every upload of the whole file sends for the part. -/
namespace ChunkedUpload

/-- What may happen to an upload that finds its file and its session and that nobody cancels. The
calls of the session may end in any way. -/
def Move.Unhindered (files : FileSystem) : Move → Prop
  | openInput found => found = files
  | locate answer => ∃ endpoint, answer = .ok endpoint
  | connect answer => answer = .ok ()
  | cancel => False
  | _ => True

/-- Whether the caller's task makes this move, and not a worker or whoever cancels. -/
def Move.isOwn : Move → Bool
  | take _ | finish _ _ | cancel => false
  | _ => true

namespace Dispatch

/-- How many moves the caller's task has before it that sends one part. -/
def errand (dispatch : Dispatch) : Nat :=
  match dispatch.producer with
  | .seeking => 6
  | .reading => 5
  | .queueing _ => 4
  | .stopping left _ => left + 2
  | .joining _ => 1
  | .stalled | .notifying | .finished _ _ | .abandoned => 0

section Errand

variable {job : UploadJob} {Allowed : Move → Prop} {files : FileSystem} {bytes : ByteArray}
  {name : String} {again : ResumePart} {events more : List Event} {dispatch after : Dispatch}
  {move : Move}

theorem Repeating.one_worker (h : Repeating job Allowed bytes name again events dispatch) :
    dispatch.pool.workerCount = 1 := by
  rw [h.working.workerCount, h.plan]
  rfl

theorem step_errand (h : job.Again files bytes name again) (awake : move ≠ .abort)
    (repeating : Repeating job Allowed bytes name again events dispatch)
    (step : Step job dispatch move more after) :
    after.errand + (if move.isOwn then 1 else 0) ≤ dispatch.errand := by
  have one := repeating.one_worker
  have before := repeating.producer
  have later := (step_repeating h awake step repeating).producer
  have count := repeating.working.workerCount_step step
  cases step with
  | sought phase | filled phase | stopped phase | unneeded phase | told phase | joined phase =>
    simp only [errand, phase, Move.isOwn, if_true]
    omega
  | resent phase offered =>
    simp only [errand, leave, phase, Move.isOwn, if_true] at count ⊢
    omega
  -- a resend that goes on does not get to where these lead
  | unsought | broken | stalled | refused | queued => exact later.elim
  | ended =>
    unfold endOfInput at later
    split at later <;> exact later.elim
  | notified phase | deserted phase =>
    rw [phase] at before
    exact before.elim
  | aborted => exact absurd rfl awake
  | took | finished => exact Nat.le_refl _

theorem Repeating.ahead (h : Repeating job Allowed bytes name again events dispatch)
    (unanswered : dispatch.result? job = none) :
    dispatch.producer.isFeeding = true ∧ 3 < dispatch.errand := by
  have producer := h.producer
  cases phase : dispatch.producer with
  | seeking | reading | queueing => exact ⟨rfl, by simp [errand, phase]⟩
  | stalled | notifying | abandoned =>
    rw [phase] at producer
    exact producer.elim
  | stopping _ outcome | joining outcome | finished outcome =>
    rw [phase] at producer
    cases outcome with
    | resumeQueued => simp [result?, phase] at unanswered
    | exhausted | cancelled | failed => exact producer.elim

theorem Repeating.free_slot (h : Repeating job Allowed bytes name again events dispatch)
    (feeding : dispatch.producer.isFeeding = true) : dispatch.pool.queue.slot = none := by
  obtain ⟨_, _, tracked⟩ := h.working.tracked
  have accepted := tracked.accepted
  rw [(tracked.feeding feeding).1, h.nothing_queued feeding] at accepted
  have manned : dispatch.pool.queue.receivers ≠ 0 := by
    simpa [Queue.isClosed] using h.open_queue feeding
  have kept := (Pool.run_in_order tracked.followed.run).kept manned
  rw [accepted] at kept
  cases slot : dispatch.pool.queue.slot with
  | none => rfl
  | some item => simp [slot] at kept

theorem Repeating.able (h : Repeating job Allowed bytes name again events dispatch)
    {upload : Upload} (awake : upload.cancelled = false)
    (feeding : dispatch.producer.isFeeding = true) :
    ∃ move : Move, move.Unhindered files ∧ move.isOwn = true ∧
      (upload.dispatchStep? dispatch move).isSome = true := by
  have producer := h.producer
  have is_open := h.open_queue feeding
  have free := h.free_slot feeding
  cases phase : dispatch.producer with
  | seeking => exact ⟨.seek, trivial, rfl, by simp [Upload.dispatchStep?, phase]⟩
  | reading => exact ⟨.read, trivial, rfl, by simp [Upload.dispatchStep?, phase, awake]⟩
  | queueing request =>
    have room := offer?_isSome (.part request) is_open (by rw [free]; rfl)
    refine ⟨.enqueue, trivial, rfl, ?_⟩
    simpa [Upload.dispatchStep?, phase, awake, enqueue?, is_open] using room
  | stalled | notifying =>
    rw [phase] at producer
    exact producer.elim
  | stopping | joining | finished | abandoned =>
    rw [phase] at feeding
    contradiction

/-- The part has been queued; the session sees it, or a worker can begin with it. -/
theorem Repeating.sent (h : Repeating job Allowed bytes name again events dispatch)
    (queued : dispatch.producer.outcome? = some .resumeQueued) (upload : Upload) :
    let request := wholeRequest bytes again.fileId again.part.toNat
    events.filterMap Event.queued? = [request] ∧
    (events.filterMap Event.started? = [request] ∨ ∃ worker next,
      upload.dispatchStep? dispatch (.take worker) = some (next, [.started request])) := by
  intro request
  have producer := h.producer
  have all : events.filterMap Event.queued? = [request] := by
    cases phase : dispatch.producer with
    | stopping | joining | finished =>
      rw [phase] at producer queued
      cases queued
      exact producer
    | seeking | reading | stalled | queueing | notifying | abandoned =>
      rw [phase] at queued
      cases queued
  refine ⟨all, ?_⟩
  rcases List.prefix_cons_iff.mp h.started_isPrefix with unstarted | ⟨rest, started, nothing⟩
  · obtain ⟨_, _, tracked⟩ := h.working.tracked
    have connected := tracked.connected (by intro gone; rw [gone] at queued; cases queued)
    have accepted := tracked.accepted
    rw [all] at accepted
    rw [tracked.followed.started] at unstarted
    obtain ⟨worker, pool, took⟩ :=
      Pool.takes_first tracked.followed.run connected accepted unstarted
    exact .inr ⟨worker, by simp [Upload.dispatchStep?, took]⟩
  · exact .inl (by rw [started, List.prefix_nil.mp nothing])

end Errand

end Dispatch

namespace Upload

/-- How many moves the caller's task has before it that sends one part. -/
def errand (upload : Upload) : Nat :=
  match upload.stage with
  | .waiting => 10
  | .opening => 9
  | .locating _ _ => 8
  | .connecting _ _ _ => 7
  | .dispatching dispatch => dispatch.errand
  | .over _ => 0

/-- A move that nothing hinders, of an upload that is not cancelled. -/
abbrev Unhindered (files : FileSystem) (move : Move) : Prop :=
  move.Unhindered files ∧ move ≠ .withdraw ∧ move ≠ .abort

/-- A call that sends a part again and that nobody has cancelled. -/
def Resends (job : UploadJob) (files : FileSystem) (bytes : ByteArray) (name : String)
    (again : ResumePart) (past : List Event) (upload : Upload) : Prop :=
  Standing job (Unhindered files)
    (Dispatch.Repeating job (Unhindered files) bytes name again) past upload ∧
  upload.cancelled = false

section Resends

variable {job : UploadJob} {files : FileSystem} {bytes : ByteArray} {name : String}
  {again : ResumePart} {past events : List Event} {upload next : Upload} {move : Move}

theorem step_resends (h : job.Again files bytes name again) :
    StepKeeps step? (Resends job files bytes name again) (Move.Unhindered files) := by
  intro past upload move next events ⟨standing, awake⟩ unhindered stepped
  have moves := moves_of_awake awake (step_of_step? standing.answer stepped)
  refine ⟨step_standing ?_ ?_ past upload move next events standing ⟨unhindered, moves⟩ stepped, ?_⟩
  · intro found source plan endpoint opening opened
    obtain rfl : found = files := opening.1
    exact Dispatch.start_repeating h endpoint opening opened
  · intro past dispatch move events after repeating allowed step
    exact Dispatch.step_repeating h allowed.2.2 step repeating
  · rcases token_of_step stepped with same | ⟨_, rfl | ⟨dispatch, stage, phase, _⟩⟩
    · exact same.trans awake
    · exact absurd unhindered id
    · obtain ⟨_, here⟩ := standing
      simp only [stage] at here
      have producer := here.1.producer
      rw [phase] at producer
      exact producer.elim

theorem step_lowers_errand (h : job.Again files bytes name again)
    (resends : Resends job files bytes name again past upload)
    (unhindered : move.Unhindered files) (stepped : upload.step? move = some (next, events)) :
    next.errand + (if move.isOwn then 1 else 0) ≤ upload.errand := by
  obtain ⟨standing, awake⟩ := resends
  have step := step_of_step? standing.answer stepped
  have moves := moves_of_awake awake step
  obtain ⟨rfl, here⟩ := standing
  cases step with
  | cancelled => exact unhindered.elim
  | entered stage | withdrawn stage | unopened stage | unplanned stage | opened stage
  | unlocated stage | located stage | unconnected stage | connected stage =>
    simp [errand, Dispatch.errand, startDispatch, endEarly, stage, Move.isOwn]
  | dispatched stage step =>
    simp only [stage] at here
    simp only [errand, stage]
    exact Dispatch.step_errand h moves.2 here.1 step

theorem Resends.unrefused (h : job.Again files bytes name again) {error : UploadError} :
    ¬ Refusal job (Unhindered files) error := by
  intro refusal
  obtain ⟨source, opens, _, sized⟩ := h.opens
  refine unrefused_of_planned opens (h.plan sized) (refusal.mono fun move calls unhindered => ?_)
  refine ⟨?_, unhindered.2⟩
  cases move with
  | finish worker reply => exact absurd rfl (calls worker reply)
  | _ => exact unhindered.1

theorem Resends.able (resends : Resends job files bytes name again past upload)
    (unanswered : upload.result = none) :
    3 < upload.errand ∧ past.filterMap Event.started? = [] ∧
    ∃ move : Move, move.Unhindered files ∧ move.isOwn = true ∧
      (upload.step? move).isSome = true := by
  obtain ⟨⟨same, here⟩, awake⟩ := resends
  split at here
  · rename_i stage
    rw [here.1]
    exact ⟨by simp [errand, stage], rfl, .enter, trivial, rfl, by simp [step?, stage, awake]⟩
  · rename_i stage
    rw [here.1]
    refine ⟨by simp [errand, stage], rfl, .openInput files, rfl, rfl, ?_⟩
    simp only [step?, stage]
    split
    · rfl
    · split <;> rfl
  · rename_i stage
    rw [here.1]
    exact ⟨by simp [errand, stage], rfl, .locate (.ok 0), ⟨0, rfl⟩, rfl, by simp [step?, stage]⟩
  · rename_i stage
    rw [here.1]
    exact ⟨by simp [errand, stage], rfl, .connect (.ok ()), rfl, rfl, by simp [step?, stage]⟩
  · rename_i dispatch stage
    obtain ⟨repeating, answer⟩ := here
    obtain ⟨feeding, ahead⟩ := repeating.ahead (answer ▸ unanswered)
    obtain ⟨move, unhindered, own, able⟩ := repeating.able awake feeding
    refine ⟨by simpa only [errand, stage] using ahead,
      (repeating.working.silent (repeating.nothing_queued feeding)).1, move, unhindered, own, ?_⟩
    cases move with
    | cancel => contradiction
    | _ => simpa only [step?, stage] using able
  · obtain ⟨_, _, error, _, answer⟩ := here
    rw [answer] at unanswered
    contradiction

theorem Resends.isPrefix (resends : Resends job files bytes name again past upload) :
    let request := wholeRequest bytes again.fileId again.part.toNat
    past.filterMap Event.queued? <+: [request] ∧ past.filterMap Event.started? <+: [request] := by
  intro request
  refine ⟨?_, resends.1.started (· <+: [request]) List.nil_prefix
    fun _ repeating => repeating.started_isPrefix⟩
  by_cases before : ∀ dispatch, upload.stage ≠ .dispatching dispatch
  · rw [resends.1.unqueued before]
    exact List.nil_prefix
  · obtain ⟨dispatch, stage⟩ := not_forall.mp before
    obtain ⟨⟨_, here⟩, _⟩ := resends
    simp only [not_not.mp stage] at here
    exact here.1.queued_isPrefix

theorem Resends.answered (resends : Resends job files bytes name again past upload)
    (h : job.Again files bytes name again) {result : Result}
    (answer : upload.result = some result) :
    let request := wholeRequest bytes again.fileId again.part.toNat
    result = .returned (.ok none) ∧ past.filterMap Event.queued? = [request] ∧
    (past.filterMap Event.started? = [request] ∨ ∃ worker next,
      upload.step? (.take worker) = some (next, [.started request])) := by
  rcases resends.1.answer_cases answer with
    ⟨dispatch, stage, repeating, given⟩ | ⟨_, _, _, refusal, _⟩
  · obtain ⟨returned, queued⟩ := repeating.answered_of_result given
    have sent := repeating.sent queued upload
    simp only [step?, stage]
    exact ⟨returned, sent⟩
  · exact absurd refusal (Resends.unrefused h)

end Resends

/-- What an upload of a whole new file sends for a part. -/
theorem part_of_whole {job : UploadJob} {files : FileSystem} {bytes : ByteArray} {name : String}
    {cancelled : Bool} {moves : List Move} {last : Upload} {events : List Event}
    (afresh : job.Afresh files bytes name) (opens : ∀ move ∈ moves, move.Opens files)
    (run : (begin job cancelled).run? moves = some (last, events)) {part : UInt32}
    (inside : part.toNat < partsFor bytes.size) :
    let request := wholeRequest bytes job.freshId part.toNat
    let started := events.filterMap Event.started?
    (∀ sent ∈ started, sent.part = part → sent = request) ∧
    ∀ reference, last.result = some (.returned (.ok (some reference))) → request ∈ started := by
  intro request started
  have standing := run_known opens run
  constructor
  · intro sent member same
    have begins := standing.started_isPrefix afresh.whole afresh.brings
    obtain ⟨i, below, rfl⟩ := List.mem_map.mp (begins.subset member)
    have few := partsFor_lt afresh.few
    have index : i = part.toNat := by
      rw [← same]
      exact (UInt32.toNat_ofNat_of_lt' (Nat.lt_trans (List.mem_range.mp below) few)).symm
    rw [index]
  · intro reference answer
    obtain ⟨_, _, _, calls, delivered⟩ := standing.delivered afresh.whole afresh.brings answer
    have sent := delivered.mem_iff.mpr (wholeRequest_mem job.freshId inside)
    refine calls.subset ?_
    obtain ⟨call, member, same⟩ := List.mem_map.mp sent
    exact List.mem_map.mpr ⟨call, List.mem_of_mem_filter member, same⟩

end Upload

/-- A part that is sent again, whatever becomes of its calls: until the caller has its answer the
session has seen nothing, and the caller's own task has a move it can make, of seven till then. The
answer is that there is no result. Just one request is queued for it, which the session sees or can
see at once, and no other. It is the request of every upload of the same bytes as a new file for
this part, but for the identifier, which is the caller's. -/
theorem resend_repeats_request {job : UploadJob} {files : FileSystem} {bytes : ByteArray}
    {name : String} {again : ResumePart} {moves : List Move} {last : Upload} {events : List Event}
    (asked : job.Again files bytes name again)
    (unhindered : ∀ move ∈ moves, move.Unhindered files)
    (run : (Upload.begin job false).run? moves = some (last, events)) :
    let request := wholeRequest bytes again.fileId again.part.toNat
    request.part = again.part ∧
    (∀ (whole : UploadJob) (files : FileSystem) (name : String) (cancelled : Bool)
        (moves : List Move) (last : Upload) (events : List Event),
      whole.Afresh files bytes name → (∀ move ∈ moves, move.Opens files) →
      (Upload.begin whole cancelled).run? moves = some (last, events) →
      let started := events.filterMap Event.started?
      (∀ sent ∈ started, sent.part = again.part → request = { sent with fileId := again.fileId }) ∧
      ∀ reference, last.result = some (.returned (.ok (some reference))) →
        { request with fileId := whole.freshId } ∈ started) ∧
    let queued := events.filterMap Event.queued?
    let started := events.filterMap Event.started?
    queued <+: [request] ∧ started <+: [request] ∧
    (last.result = none → started = [] ∧ moves.countP Move.isOwn < 7 ∧
      ∃ move : Move, move.Unhindered files ∧ move.isOwn = true ∧
        (last.step? move).isSome = true) ∧
    ∀ result, last.result = some result → result = .returned (.ok none) ∧ queued = [request] ∧
      (started = [request] ∨ ∃ worker next,
        last.step? (.take worker) = some (next, [.started request])) := by
  intro request
  have fresh : Upload.Resends job files bytes name again [] (Upload.begin job false) :=
    ⟨⟨rfl, rfl, rfl⟩, rfl⟩
  rw [Upload.run?_eq] at run
  have resends := run_holds (Upload.step_resends asked) moves _ _ _ fresh unhindered run
  have counted := run_countP_le Upload.errand Move.isOwn (Upload.step_resends asked)
    (fun _ _ _ _ _ resends => Upload.step_lowers_errand asked resends) moves _ _ _ _ fresh
    unhindered run
  refine ⟨UInt32.ofNat_toNat, ?_, resends.isPrefix.1, resends.isPrefix.2, ?_,
    fun result answer => resends.answered asked answer⟩
  · intro whole files name cancelled moves last events afresh opens ran started
    obtain ⟨same, all⟩ := Upload.part_of_whole afresh opens ran asked.inside
    refine ⟨fun sent member part => ?_, all⟩
    rw [same sent member part]
    rfl
  · intro unanswered
    obtain ⟨ahead, unstarted, able⟩ := resends.able unanswered
    have ten : (Upload.begin job false).errand = 10 := rfl
    exact ⟨unstarted, by omega, able⟩

/-- The second part of a file, which is one byte, is sent again, and its call crashes. An upload of
the whole file has sent the same. -/
theorem second_part_repeated :
    let whole := plainJob twoPartStream
    let job := { whole with resume := some ⟨9, 1⟩ }
    let moves : List Move := [.enter, .openInput FileSystem.empty, .locate (.ok 2),
      .connect (.ok ()), .seek, .read, .enqueue, .take 0, .finish 0 .crashed]
    job.Again FileSystem.empty twoParts "a" ⟨9, 1⟩ ∧
    (∀ move ∈ moves, move.Unhindered FileSystem.empty) ∧
    ∃ last events, (Upload.begin job false).run? moves = some (last, events) ∧
      last.result = some (.returned (.ok none)) ∧
      events.filterMap Event.ended? = [(⟨9, 1, none, ⟨#[65]⟩⟩, .crashed)] ∧
      ∃ wholeMoves first seen, (Upload.begin whole false).run? wholeMoves = some (first, seen) ∧
        ∃ sent ∈ seen.filterMap Event.started?, sent.part = 1 ∧
          { sent with fileId := 9 } = (⟨9, 1, none, ⟨#[65]⟩⟩ : PartRequest) := by
  intro whole job moves
  have serves : whole.input.Serves FileSystem.empty twoParts "a" := .stream serves_twoParts
  have inside : (1 : UInt32).toNat < partsFor twoParts.size := by
    rw [partsFor_twoParts]
    decide
  have asked : job.Again FileSystem.empty twoParts "a" ⟨9, 1⟩ :=
    ⟨serves, whole_twoParts.within, whole_twoParts.few, rfl, inside⟩
  have unhindered : ∀ move ∈ moves, move.Unhindered FileSystem.empty := by
    simp [moves, Move.Unhindered]
  have outcome : (((Upload.begin job false).run? moves).map fun ran =>
      (ran.1.result.isSome, ran.2.filterMap Event.ended?)) =
      some (true, [(⟨9, 1, none, ⟨#[65]⟩⟩, .crashed)]) := by decide +kernel
  obtain ⟨⟨last, events⟩, run, later⟩ := Option.map_eq_some_iff.mp outcome
  obtain ⟨answered, ended⟩ := Prod.mk.inj later
  obtain ⟨result, answer⟩ := Option.isSome_iff_exists.mp answered
  obtain ⟨_, repeated, _, _, _, answers⟩ := resend_repeats_request asked unhindered run
  obtain ⟨rfl, _⟩ := answers result answer
  obtain ⟨wholeMoves, first, seen, delivering, ran, _, given⟩ :=
    Upload.exists_delivered 1 whole_twoParts
  have opens : ∀ move ∈ wholeMoves, move.Opens FileSystem.empty := by
    intro move member
    have quiet := (delivering move member).1
    cases move with
    | openInput found => exact quiet
    | _ => trivial
  have all := (repeated whole FileSystem.empty "a" false wholeMoves first seen
    ⟨serves, whole_twoParts.few, rfl⟩ opens ran).2 _ given
  have second : wholeRequest twoParts 9 (1 : UInt32).toNat = ⟨9, 1, none, ⟨#[65]⟩⟩ :=
    (wholeRequest_twoParts 9 1).trans rfl
  rw [second] at all
  exact ⟨asked, unhindered, last, events, run, answer, ended, wholeMoves, first, seen, ran, _, all,
    rfl, rfl⟩

end ChunkedUpload
