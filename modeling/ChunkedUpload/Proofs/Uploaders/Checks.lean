import ChunkedUpload.Proofs.Upload.Validation
import ChunkedUpload.Proofs.Uploaders.Company
import ChunkedUpload.Proofs.Uploaders.Waits

/-! Calls whose checks fail. Such a call has its slot, and gives it back without anything to show for
it: no worker, no request, and no resend that somebody could wait for. -/
namespace ChunkedUpload

namespace Uploaders

variable {first all next : Uploaders} {log : Log} {act : UploaderAct} {events : List Event}
  {id uploader : Nat} {call : SaveCall} {around : Surroundings}

theorem limiter?_eq (all : Uploaders) (uploader : Nat) :
    all.limiter? uploader = (all.limiterOf? uploader).bind fun place => all.limiters[place]? := by
  unfold limiter? limiterOf?
  cases all.uploaders[uploader]? <;> rfl

/-- A limiter stays where it is. -/
theorem Step.limited (step : Step all act events next)
    (limited : (all.limiter? uploader).isSome = true) :
    (next.limiter? uploader).isSome = true := by
  have same : next.limiters.length = all.limiters.length := by
    simpa using congrArg List.length step.max
  rw [limiter?_eq] at limited ⊢
  rw [step.limiterOf?]
  cases used : all.limiterOf? uploader with
  | none => simp [used] at limited
  | some place => simpa [used, same] using limited

/-- A call that has moved has a limiter. -/
theorem Run.limited (run : Run first log all) (fresh : first.calls = [])
    (found : all.call? id = some call) {move : Move} (moved : move ∈ movesOf id log) :
    (all.limiter? call.uploader).isSome = true := by
  induction run generalizing call with
  | start => cases moved
  | @step log all next act events ran _ stepped ih =>
    have step := step_of_step? stepped
    rw [movesOf_snoc] at moved
    cases before : all.call? id with
    | none =>
      have unmoved := @Run.of_call first all log id ran fresh
      rw [before] at unmoved
      rw [step.silent before, unmoved.1] at moved
      cases moved
    | some old =>
      rcases step.keeps_call before with ⟨silent, there⟩ | ⟨_, _, _, _, there, limiter, limited, _⟩
      · cases found.symm.trans there
        rw [silent, Option.toList_none, List.append_nil] at moved
        exact step.limited (ih before moved)
      · cases found.symm.trans there
        exact step.limited (by rw [limited, Option.isSome_some])

/-- Only those that have workers are resends. -/
theorem Run.unresent (run : Run first log all) (unused : first.Unused)
    (found : all.call? id = some call)
    (before : ∀ dispatch, call.upload.stage ≠ .dispatching dispatch) (uploader : Nat) :
    id ∉ all.drains uploader ++ all.pending uploader := by
  intro member
  obtain ⟨held, there, _, queued⟩ := ((run.accounted unused uploader).resends id).mp member
  cases found.symm.trans there
  unfold queuedResend at queued
  split at queued
  · rename_i dispatch stage
    exact before dispatch stage
  · contradiction

end Uploaders

open Uploaders in
/-- A call that has got its slot and is not cancelled goes through the checks one by one, whatever
else may be wrong with it. The first that fails decides: the call gets its error and no other, and
by then it has made the seeks and asked the questions that come before, has read nothing, started no
worker and sent no request; it is no resend and holds no place in any line. If none fails then the
call comes to have its workers. It takes three moves of the call at most, and each of them can be
made. -/
theorem checks_come_first {around : Surroundings} {first all : Uploaders} {log : Log} {id : Nat}
    {call : SaveCall} (fresh : first.Fresh) (unused : first.Unused) (run : Run first log all)
    (found : all.call? id = some call) (entered : .enter ∈ movesOf id log)
    (awake : call.upload.cancelled = false)
    (meets : ∀ move ∈ movesOf id log, move.Meets around call.upload.job) :
    let upload := call.upload
    (∀ check error, Check.first? around upload.job = some (check, error) →
      (∀ dispatch, upload.stage ≠ .dispatching dispatch) ∧
      eventsOf id log <+: check.questions around ∧
      (∀ uploader, id ∉ all.drains uploader ++ all.pending uploader) ∧
      ∀ result, upload.result = some result →
        result = .returned (.error error) ∧ eventsOf id log = check.questions around ∧
        upload.stream? = upload.job.input.stream?.map check.leaves ∧
        ∀ limiter ∈ all.limiters, id ∉ limiter.line) ∧
    (Check.first? around upload.job = none →
      (∀ stream, upload.stage ≠ .over stream) ∧
      ∀ dispatch, upload.stage = .dispatching dispatch →
        dispatch.pool.workerCount = max dispatch.plan.workerCount 1) ∧
    ((∀ dispatch, upload.stage ≠ .dispatching dispatch) → upload.result = none →
      ∃ move next events, upload.ownMove? around = some move ∧ move.checks = true ∧
        all.step? (.move id move) = some (next, events)) ∧
    (movesOf id log).countP Move.checks ≤ 3 := by
  intro upload
  obtain ⟨cancelled, saved, ran⟩ := run.job_run fresh.calls found
  have validated := Upload.run_validated meets ran awake
  refine ⟨fun check error failed => ?_,
    fun clear => ⟨validated.passed clear, fun _ => Upload.run_workers ran⟩, ?_, ?_⟩
  · obtain ⟨before, asked, answers⟩ := validated.stopped failed
    refine ⟨before, asked, run.unresent unused found before, fun result answer => ?_⟩
    obtain ⟨same, all_asked, left⟩ := answers result answer
    refine ⟨same, all_asked, left, fun limiter member => ?_⟩
    exact (run.ordered fresh.ordered).left found (by rw [answer]; simp) member
  · intro before unanswered
    obtain ⟨move, next, events, own, checks, stepped⟩ := Upload.can_check
      (Upload.run_admitted ran entered) (validated.unended unanswered) before
    obtain ⟨limiter, limited⟩ := Option.isSome_iff_exists.mp (run.limited fresh.calls found entered)
    have inside : move = .enter → id ∈ limiter.holders := by
      rintro rfl
      cases checks
    exact ⟨move, _, events, own, checks, step?_move found limited inside stepped⟩
  · have few := Upload.run_checks ran
    omega

/-- An empty stream, of which a part beyond its end is to be sent again, where there is no home
either: what counts is that it is empty. -/
theorem empty_stream_comes_first :
    let stream := Stream.ofBytes ByteArray.empty
    let job := { plainJob stream with resume := some ⟨9, 5⟩ }
    let around : Surroundings :=
      ⟨FileSystem.empty, .error (.connection "gone"), .ok (), fun _ => .ok ()⟩
    let first : Uploaders := ⟨[⟨1, 1, [], []⟩], [⟨0, []⟩], [], []⟩
    let log : Uploaders.Log := [(.save 0 0 job false, []), (.move 0 .enter, []),
      (.move 0 (.openInput FileSystem.empty), [])]
    Check.first? around job = some (.emptiness, .emptyFile) ∧
    Check.part.fault? around job = some (.invalidInput (.partOutOfRange 5 0)) ∧
    Check.home.fault? around job = some (.transport (.connection "gone")) ∧
    ∃ all upload, Uploaders.Run first log all ∧ all.call? 0 = some ⟨0, upload⟩ ∧
      upload.result = some (.returned (.error .emptyFile)) ∧
      upload.stream? = some { stream with seeks := 2 } ∧
      ∀ limiter ∈ all.limiters, 0 ∉ limiter.line := by
  intro stream job around first log
  have failed : Check.first? around job = some (.emptiness, .emptyFile) := rfl
  have runs : ∃ all upload, Uploaders.Run first log all ∧ all.call? 0 = some ⟨0, upload⟩ ∧
      upload.job = job ∧ upload.cancelled = false ∧ upload.result.isSome = true :=
    ⟨_, _, .cons (by rfl) rfl (.cons trivial rfl (.cons trivial rfl .start)), rfl, rfl, rfl, rfl⟩
  obtain ⟨all, upload, run, found, same, awake, ended⟩ := runs
  have fresh : first.Fresh := by
    refine ⟨rfl, fun limiter member => ⟨1, ?_⟩⟩
    rw [List.mem_singleton.mp member]
    decide
  have unused : first.Unused := by
    refine ⟨rfl, rfl, fun u member => ?_⟩
    rw [List.mem_singleton.mp member]
  have moves : Uploaders.movesOf 0 log = [.enter, .openInput FileSystem.empty] := rfl
  have entered : .enter ∈ Uploaders.movesOf 0 log := by simp [moves]
  have meets : ∀ move ∈ Uploaders.movesOf 0 log, move.Meets around upload.job := by
    simp [moves, Move.Meets, around]
  obtain ⟨stopped, _⟩ := checks_come_first fresh unused run found entered awake meets
  obtain ⟨result, answer⟩ := Option.isSome_iff_exists.mp ended
  obtain ⟨_, _, _, answers⟩ := stopped .emptiness .emptyFile (same ▸ failed)
  obtain ⟨rfl, _, left, gone⟩ := answers result answer
  refine ⟨failed, by decide +kernel, rfl, all, upload, run, found, answer, ?_, gone⟩
  rw [left, same]
  rfl

end ChunkedUpload
