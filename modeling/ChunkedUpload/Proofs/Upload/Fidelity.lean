import ChunkedUpload.Proofs.Upload.Loss
import ChunkedUpload.Proofs.Upload.Progress

/-! The upload of a whole file from its admission to its result, in whatever pieces the source gives
its bytes and in whatever order the producer and its workers move. It always comes to its end, and
then the session has seen each part of the file once, with its own bytes, and nothing else. -/
namespace ChunkedUpload

namespace Upload

/-- How many steps an upload of so many parts has before it. -/
def rank (parts : Nat) (upload : Upload) : Nat :=
  match upload.stage with
  | .waiting => 5 * parts + 20
  | .opening => 5 * parts + 19
  | .locating _ _ => 5 * parts + 18
  | .connecting _ _ _ => 5 * parts + 17
  | .dispatching dispatch => dispatch.rank
  | .over _ => 0

/-- An upload that was not cancelled and that nothing has disturbed. -/
def Quiet (job : UploadJob) (files : FileSystem) (bytes : ByteArray) (name : String)
    (past : List Event) (upload : Upload) : Prop :=
  Standing job (Move.Smooth files) (Dispatch.Undisturbed job files bytes name) past upload ∧
  upload.cancelled = false

section Quiet

variable {job : UploadJob} {files : FileSystem} {bytes : ByteArray} {name : String}
  {past events : List Event} {upload next : Upload} {move : Move}

theorem awake_of_calm (whole : job.Whole files bytes name) (same : upload.job = job)
    (awake : upload.cancelled = false) (calm : move.Calm files)
    (step : Step upload move events next) : next.cancelled = false := by
  cases step with
  | cancelled => contradiction
  | entered | withdrawn | unopened | unplanned | opened | unlocated | located | unconnected
  | connected => exact awake
  | @dispatched dispatch _ _ _ _ _ step wished aborts =>
    rcases wished with rfl | cancels
    · exact awake
    · rw [same, whole.report dispatch] at cancels
      contradiction

theorem step_quiet (whole : job.Whole files bytes name) :
    StepKeeps step? (Quiet job files bytes name) (Move.Calm files) := by
  intro past upload move next events quiet calm stepped
  obtain ⟨standing, awake⟩ := quiet
  have step := step_of_step? standing.answer stepped
  refine ⟨step_standing ?_ ?_ past upload move next events standing
    (smooth_of_awake awake calm step) stepped, awake_of_calm whole standing.1 awake calm step⟩
  · intro found source plan endpoint opening opened
    obtain rfl : found = files := opening.1
    exact Dispatch.start_undisturbed whole endpoint opening opened
  · intro past dispatch move events after undisturbed smooth step
    exact Dispatch.step_undisturbed whole smooth step undisturbed

theorem start_rank (whole : job.Whole files bytes name) (source : Source) :
    (startDispatch source (UploadPlan.ofBytes bytes job.freshId)).rank ≤
      5 * partsFor bytes.size + 16 := by
  have total : (UploadPlan.ofBytes bytes job.freshId).totalParts.toNat = partsFor bytes.size :=
    UInt32.toNat_ofNat_of_lt' (partsFor_lt whole.few)
  have workers : max (UploadPlan.ofBytes bytes job.freshId).workerCount 1 ≤ 4 :=
    UploadPlan.workers_le _
  have count : (Pool.start (UploadPlan.ofBytes bytes job.freshId).workerCount).workerCount = _ :=
    Pool.workerCount_of_run .start
  have load := Pool.load_start (UploadPlan.ofBytes bytes job.freshId).workerCount
  simp only [Dispatch.rank, Dispatch.producerRank, startDispatch, total, count, load]
  omega

theorem step_lowers (whole : job.Whole files bytes name)
    (quiet : Quiet job files bytes name past upload) (calm : move.Calm files)
    (stepped : upload.step? move = some (next, events)) :
    next.rank (partsFor bytes.size) < upload.rank (partsFor bytes.size) := by
  obtain ⟨standing, awake⟩ := quiet
  have step := step_of_step? standing.answer stepped
  have smooth := smooth_of_awake awake calm step
  obtain ⟨rfl, here⟩ := standing
  cases step with
  | cancelled => contradiction
  | entered stage | withdrawn stage | unopened stage | unplanned stage | opened stage
  | unlocated stage | located stage | unconnected stage =>
    simp [rank, endEarly, stage]
  | @connected source plan endpoint stage =>
    simp only [stage] at here
    obtain ⟨_, _, found, opening, opened⟩ := here
    obtain rfl : found = files := opening.1
    obtain ⟨_, rfl⟩ := whole.of_opened opened
    have started := start_rank whole source
    simp only [rank, stage]
    omega
  | dispatched stage step =>
    simp only [stage] at here
    simp only [rank, stage]
    exact Dispatch.step_rank whole smooth step here.1

theorem Quiet.able (quiet : Quiet job files bytes name past upload)
    (whole : job.Whole files bytes name) (unanswered : upload.result = none) :
    ∃ move : Move, move.Calm files ∧ (upload.step? move).isSome = true := by
  obtain ⟨⟨same, here⟩, awake⟩ := quiet
  split at here
  · rename_i stage
    exact ⟨.enter, trivial, by simp [step?, stage, awake]⟩
  · exact able_of_opening ‹_›
  · rename_i stage
    exact ⟨.locate (.ok 0), ⟨0, rfl⟩, by simp [step?, stage]⟩
  · rename_i stage
    exact ⟨.connect (.ok ()), rfl, by simp [step?, stage]⟩
  · rename_i dispatch stage
    obtain ⟨undisturbed, answer⟩ := here
    exact able_of_dispatch stage (undisturbed.able whole same awake (answer ▸ unanswered))
  · obtain ⟨_, _, error, _, answer⟩ := here
    rw [answer] at unanswered
    contradiction

theorem Quiet.started_isPrefix (quiet : Quiet job files bytes name past upload) :
    past.filterMap Event.started? <+: wholeRequests bytes job.freshId :=
  quiet.1.started (· <+: wholeRequests bytes job.freshId) List.nil_prefix
    fun _ undisturbed => undisturbed.started_isPrefix

theorem Quiet.finished (quiet : Quiet job files bytes name past upload)
    (whole : job.Whole files bytes name) {result : Result} (answer : upload.result = some result) :
    past.filterMap Event.started? = wholeRequests bytes job.freshId ∧
    ((past.filterMap Event.ended?).map Prod.fst).Perm (wholeRequests bytes job.freshId) ∧
    result = .returned (Dispatch.Expected job bytes name
      ((past.filterMap Event.ended?).countP fun call => call.2.isRefused)) := by
  rcases quiet.1.answer_cases answer with ⟨_, _, undisturbed, given⟩ | ⟨_, _, _, refusal, _⟩
  · exact undisturbed.finished given
  · exact absurd refusal whole.unrefused

/-- Calm, the file has its home at this endpoint, and every call that ends gets this reply. -/
def Replying (reply : Reply) (files : FileSystem) (endpoint : Int32) (move : Move) : Prop :=
  move.Calm files ∧ (∀ answer, move = .locate answer → answer = .ok endpoint) ∧
  ∀ worker given, move = .finish worker given → given = reply

/-- Every call that has ended got this reply. -/
def Replied (reply : Reply) (past : List Event) : Prop :=
  ∀ call ∈ past.filterMap Event.ended?, call.2 = reply

theorem Replied.step {reply : Reply} {endpoint : Int32} (replied : Replied reply past)
    (replying : Replying reply files endpoint move) (step : Step upload move events next) :
    Replied reply (past ++ events) := by
  intro call ended
  rw [List.filterMap_append] at ended
  rcases List.mem_append.mp ended with before | now
  · exact replied call before
  · obtain ⟨worker, same⟩ := ended_of_step step now
    exact replying.2.2 worker call.2 same

theorem locate_isSome {answer : Except TransportError Int32}
    (possible : (upload.step? (.locate answer)).isSome = true) (endpoint : Int32) :
    (upload.step? (.locate (.ok endpoint))).isSome = true := by
  cases stage : upload.stage with
  | locating => simp [step?, stage]
  | dispatching => simp [step?, stage, dispatchStep?] at possible
  | waiting | opening | connecting | «over» => simp [step?, stage] at possible

theorem finish_isSome {worker : Nat} {reply : Reply}
    (possible : (upload.step? (.finish worker reply)).isSome = true) (other : Reply) :
    (upload.step? (.finish worker other)).isSome = true := by
  cases stage : upload.stage with
  | dispatching dispatch =>
    simp only [step?, stage, dispatchStep?, Option.isSome_map] at possible ⊢
    exact Pool.finish?_isSome possible other
  | waiting | opening | locating | connecting | «over» => simp [step?, stage] at possible

theorem Quiet.able_delivering (quiet : Quiet job files bytes name past upload)
    (whole : job.Whole files bytes name) (unanswered : upload.result = none) (endpoint : Int32) :
    ∃ move next events,
      Replying .delivered files endpoint move ∧ upload.step? move = some (next, events) := by
  have made : ∀ move, Replying .delivered files endpoint move → (upload.step? move).isSome = true →
      ∃ move next events,
        Replying .delivered files endpoint move ∧ upload.step? move = some (next, events) := by
    intro move delivering possible
    obtain ⟨⟨next, events⟩, stepped⟩ := Option.isSome_iff_exists.mp possible
    exact ⟨move, next, events, delivering, stepped⟩
  obtain ⟨move, calm, possible⟩ := quiet.able whole unanswered
  cases move with
  | locate answer =>
    exact made _ ⟨by simp [Move.Calm], by simp, by simp⟩ (locate_isSome possible endpoint)
  | finish worker reply =>
    exact made _ ⟨by simp [Move.Calm], by simp, by simp⟩ (finish_isSome possible .delivered)
  | _ => exact made _ ⟨calm, by simp, by simp⟩ possible

/-- So far nothing has disturbed the upload, and no call was refused. -/
def Delivered (job : UploadJob) (files : FileSystem) (bytes : ByteArray) (name : String)
    (past : List Event) (upload : Upload) : Prop :=
  Quiet job files bytes name past upload ∧ Replied .delivered past

theorem step_delivered (whole : job.Whole files bytes name) :
    StepKeeps step? (Delivered job files bytes name) (Replying .delivered files endpoint) := by
  intro past upload move next events ⟨quiet, delivered⟩ delivering stepped
  exact ⟨step_quiet whole past upload move next events quiet delivering.1 stepped,
    delivered.step delivering (step_of_step? quiet.1.answer stepped)⟩

/-- An upload that nothing disturbs can go on till all its parts are delivered. -/
theorem exists_delivered (endpoint : Int32) (whole : job.Whole files bytes name) :
    ∃ moves last events, (∀ move ∈ moves, Replying .delivered files endpoint move) ∧
      (begin job false).run? moves = some (last, events) ∧
      Delivered job files bytes name events last ∧
      last.result = some (.returned (.ok (some (wholeReference bytes job.freshId name)))) := by
  have fresh : Delivered job files bytes name [] (begin job false) :=
    ⟨⟨⟨rfl, rfl, rfl⟩, rfl⟩, nofun⟩
  have able : ∀ past upload, Delivered job files bytes name past upload →
      ¬ upload.result ≠ none → ∃ move next events,
        Replying .delivered files endpoint move ∧ upload.step? move = some (next, events) :=
    fun _ _ so_far unanswered => so_far.1.able_delivering whole (not_not.mp unanswered) endpoint
  obtain ⟨moves, last, events, delivering, run, answered⟩ :=
    exists_run_done (rank (partsFor bytes.size)) (step_delivered whole)
      (fun _ _ _ _ _ so_far delivering => step_lowers whole so_far.1 delivering.1) able [] _ fresh
  have ended := run_holds (step_delivered whole) moves _ _ _ fresh delivering run
  obtain ⟨result, answer⟩ := Option.ne_none_iff_exists'.mp answered
  obtain ⟨_, _, rfl⟩ := ended.1.finished whole answer
  have none_refused :
      (events.filterMap Event.ended?).countP (fun call => call.2.isRefused) = 0 := by
    rw [List.countP_eq_zero]
    intro call member
    rw [ended.2 call member]
    nofun
  rw [none_refused] at answer
  rw [← run?_eq] at run
  exact ⟨moves, last, events, delivering, run, ended, answer⟩

end Quiet

end Upload

/-- The upload of a whole file from a source that gives all its bytes, with a callback that returns,
a session that is there and calls that all get an answer. Whichever of the possible moves come, the
upload is never stuck and soon over; the session sees the parts of the file in their order and
nothing else, and then the caller gets the reference or hears how many parts were refused. -/
theorem whole_file_faithful {job : UploadJob} {files : FileSystem} {bytes : ByteArray}
    {name : String} {moves : List Move} {last : Upload} {events : List Event}
    (whole : job.Whole files bytes name) (calm : ∀ move ∈ moves, move.Calm files)
    (run : (Upload.begin job false).run? moves = some (last, events)) :
    let requests := wholeRequests bytes job.freshId
    let started := events.filterMap Event.started?
    let ended := events.filterMap Event.ended?
    requests.map (fun request => request.part.toNat) = List.range (partsFor bytes.size) ∧
    started <+: requests ∧
    moves.length ≤ 5 * partsFor bytes.size + 20 ∧
    (last.result = none → ∃ move : Move, move.Calm files ∧ (last.step? move).isSome = true) ∧
    ∀ result, last.result = some result →
      started = requests ∧ (ended.map Prod.fst).Perm requests ∧
      result = .returned
        (Dispatch.Expected job bytes name (ended.countP fun call => call.2.isRefused)) := by
  have fresh : Upload.Quiet job files bytes name [] (Upload.begin job false) :=
    ⟨⟨rfl, rfl, rfl⟩, rfl⟩
  rw [Upload.run?_eq] at run
  have quiet := run_holds (Upload.step_quiet whole) moves _ _ _ fresh calm run
  have short := run_length_le (Upload.rank (partsFor bytes.size)) (Upload.step_quiet whole)
    (fun _ _ _ _ _ quiet => Upload.step_lowers whole quiet) moves _ _ _ _ fresh calm run
  exact ⟨wholeRequests_numbered whole.few job.freshId, quiet.started_isPrefix,
    Nat.le_trans (Nat.le_add_right _ _) short, quiet.able whole,
    fun result answer => quiet.finished whole answer⟩

theorem whole_twoParts :
    (plainJob twoPartStream).Whole FileSystem.empty twoParts "a" := by
  have size := size_twoParts
  constructor
  · exact .stream serves_twoParts
  · rw [size]
    decide
  · rw [size]
    decide
  · rw [size]
    decide
  · rfl
  · simp [plainJob]

/-- A file of a full part and one byte more, read from a stream that gives it at once. -/
theorem two_parts_faithful :
    let job := plainJob twoPartStream
    job.Whole FileSystem.empty twoParts "a" ∧
    ∃ moves last events, (∀ move ∈ moves, move.Calm FileSystem.empty) ∧
      (Upload.begin job false).run? moves = some (last, events) ∧
      events.filterMap Event.started? =
        [⟨7, 0, none, ⟨Array.replicate partSize 65⟩⟩, ⟨7, 1, none, ⟨#[65]⟩⟩] ∧
      last.result =
        some (.returned (.ok (some ⟨7, 2, "a", some (Checksum.ofBytes twoParts)⟩))) := by
  intro job
  obtain ⟨moves, last, events, delivering, run, _, answer⟩ :=
    Upload.exists_delivered 1 whole_twoParts
  have calm : ∀ move ∈ moves, move.Calm FileSystem.empty := fun move member =>
    (delivering move member).1
  obtain ⟨_, _, _, _, answers⟩ := whole_file_faithful whole_twoParts calm run
  obtain ⟨started, _, _⟩ := answers _ answer
  refine ⟨whole_twoParts, moves, last, events, calm, run, ?_, ?_⟩
  · rw [started]
    exact wholeRequests_twoParts 7
  · rw [answer, wholeReference, if_neg small_twoParts, partsFor_twoParts]
    rfl

end ChunkedUpload
