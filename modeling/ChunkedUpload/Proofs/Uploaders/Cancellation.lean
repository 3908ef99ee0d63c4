import ChunkedUpload.Proofs.Upload.Cancelled
import ChunkedUpload.Proofs.Uploaders.Lines

/-! What comes of a call that somebody cancels, for every moment at which the token can fire: while
the call waits for its slot, while it runs, or not at all. -/
namespace ChunkedUpload

namespace Uploaders

variable {first all : Uploaders} {log : Log} {id : Nat} {call : SaveCall}

theorem unanswered_of_waiting (run : Run first log all) (fresh : first.calls = [])
    (found : all.call? id = some call) (stage : call.upload.stage = .waiting) :
    call.upload.result = none := by
  have whole := @Run.of_call first all log id run fresh
  rw [found] at whole
  obtain ⟨job, cancelled, _, ran⟩ := whole
  obtain ⟨_, here⟩ := Upload.run_known (fun _ _ => trivial : ∀ move ∈ movesOf id log, True) ran
  simp only [stage] at here
  exact here.2

theorem withdraw_isSome {limiter : Admission} (found : all.call? id = some call)
    (limited : all.limiter? call.uploader = some limiter) (stage : call.upload.stage = .waiting)
    (wanted : call.upload.cancelled = true) :
    (all.step? (.move id .withdraw)).isSome = true := by
  simp only [step?, found, limited, Upload.step?, stage, wanted, Option.bind_eq_bind,
    Option.bind_some, if_true]
  rfl

end Uploaders

open Uploaders in
/-- Cancelled before it has its slot, a call can only be withdrawn: it sees nothing of its source
and keeps no place in any line. Cancelled while it runs and before its producer leaves the last wait
that cancelling ends, it queues nothing more and is over after a few more moves, and its workers
have ended the parts queued before; the caller hears that it was cancelled, whatever became of these
parts, unless an error of the input, the plan, the provider or the first seek came in the way. And
nobody hears so whose token has not fired. -/
theorem cancellation_outcome :
    (∀ (first mid last : Uploaders) (log more : Log) (id : Nat) (call : SaveCall),
      first.Fresh → Run first log mid → Run mid more last → mid.call? id = some call →
      call.upload.stage = .waiting → call.upload.cancelled = true →
      eventsOf id more = [] ∧
      (∀ move ∈ movesOf id more, move = .cancel ∨ move = .withdraw) ∧
      (∀ limiter ∈ last.limiters,
        limiter.available + limiter.holders.length = limiter.max ∧
        ∀ uploader job, (.save id uploader job true, []) ∈ log → id ∉ limiter.line) ∧
      ∃ upload, last.call? id = some { call with upload := upload } ∧
        upload.stream? = call.upload.stream? ∧
        (upload.result = none → ∀ limiter, last.limiter? call.uploader = some limiter →
          (last.step? (.move id .withdraw)).isSome = true) ∧
        ∀ result, upload.result = some result → result = .returned (.error .cancelled) ∧
          ∀ limiter ∈ last.limiters, id ∉ limiter.line) ∧
    (∀ (job : UploadJob) (cancelled : Bool) (earlier later : List Move) (mid last : Upload)
        (past more : List Event),
      (Upload.begin job cancelled).run? earlier = some (mid, past) →
      mid.isUndecided = true → mid.cancelled = true → mid.run? later = some (last, more) →
      let queued := past.filterMap Event.queued?
      let started := (past ++ more).filterMap Event.started?
      let ended := (past ++ more).filterMap Event.ended?
      more.filterMap Event.queued? = [] ∧
      later.countP (fun move => !move.isCancel) ≤ 22 ∧
      (last.result = none → ∀ files, ∃ move : Move, move.Calm files ∧
        (last.step? move).isSome = true) ∧
      ∀ result, last.result = some result →
        (result = .returned (.error .cancelled) ∨
          ∃ value, Upload.Obstacle job (· ∈ later) value ∧ result = .returned value) ∧
        started <+: queued ∧ (ended.map Prod.fst).Perm started ∧
        ((∀ call ∈ ended, call.2 ≠ .crashed) → started = queued) ∧
        ∀ dispatch, last.stage = .dispatching dispatch →
          ∀ worker ∈ dispatch.pool.workers, worker.isGone = true) ∧
    ∀ (job : UploadJob) (cancelled : Bool) (moves : List Move) (last : Upload)
        (events : List Event),
      (Upload.begin job cancelled).run? moves = some (last, events) →
      last.result = some (.returned (.error .cancelled)) →
      last.cancelled = true ∧ Upload.Fired job cancelled moves := by
  refine ⟨?_, ?_, ?_⟩
  -- while it waits in line
  · intro first mid last log more id call fresh before after found stage wanted
    have whole := before.trans after
    have ordered := whole.ordered fresh.ordered
    obtain ⟨upload, there, moved⟩ := after.later found
    obtain ⟨silent, only, states⟩ := Upload.run_withdrawn stage wanted moved
    refine ⟨silent, only, fun limiter member => ⟨?_, fun uploader job saved => ?_⟩, upload, there,
      ?_, ?_, ?_⟩
    · obtain ⟨place, here⟩ := List.mem_iff_getElem?.mp member
      exact (ordered place limiter here).1.slots
    · exact whole.unlined fresh (List.mem_append_left _ saved) limiter member
    · rcases states with rfl | rfl
      · rfl
      · exact Upload.stream?_withdrawn stage
    · intro unanswered limiter limited
      rcases states with rfl | rfl
      · exact withdraw_isSome there limited stage wanted
      · cases unanswered
    · intro result answer
      refine ⟨?_, fun limiter member => ordered.left there (by simp [answer]) member⟩
      rcases states with rfl | rfl
      · cases (unanswered_of_waiting before fresh.calls found stage).symm.trans answer
      · exact (Option.some.inj answer).symm
  -- while it runs: it is doomed from here on
  · intro job cancelled earlier later mid last past more before undecided wanted after
      queued started ended
    have known := Upload.run_known (fun _ _ => trivial : ∀ move ∈ earlier, True) before
    obtain ⟨⟨standing, doomed, silent⟩, short⟩ := Upload.run_doomed known undecided wanted after
    refine ⟨silent, short, doomed.able standing, fun result answer => ?_⟩
    obtain ⟨outcome, finished⟩ := doomed.answered standing answer
    have run := Upload.run_append before after
    have all_queued : (past ++ more).filterMap Event.queued? = queued := by
      rw [List.filterMap_append, silent, List.append_nil]
    exact ⟨outcome, all_queued ▸ finished.calls run⟩
  · intro job cancelled moves last events run answer
    obtain ⟨fired, reported⟩ := Upload.run_token run
    have known := Upload.run_known (fun _ _ => trivial : ∀ move ∈ moves, True) run
    have token := reported (Upload.reported_of_answer known answer)
    exact ⟨token, fired token⟩

/-- A call that is cancelled while another one has the only slot, and one that is cancelled after
its only part was queued, which is then refused. -/
theorem cancelled_in_line_and_on_the_way :
    let job := plainJob (Stream.ofBytes ⟨#[65]⟩)
    let first : Uploaders := ⟨[⟨1, 1, [], []⟩], [⟨0, []⟩], [], []⟩
    let earlier : List Move := [.enter, .openInput FileSystem.empty, .locate (.ok 2),
      .connect (.ok ()), .seek, .read, .enqueue, .cancel]
    let later : List Move := [.abort, .take 0, .stop, .finish 0 (.refused (.connection "gone")),
      .take 0, .stop, .join]
    (∃ log mid more last, Uploaders.Run first log mid ∧ Uploaders.Run mid more last ∧
      Uploaders.movesOf 1 more = [.withdraw] ∧ ∃ upload, last.call? 1 = some ⟨0, upload⟩ ∧
      upload.result = some (.returned (.error .cancelled)) ∧
      ∀ limiter ∈ last.limiters, 1 ∉ limiter.line) ∧
    ∃ mid past last more, (Upload.begin job false).run? earlier = some (mid, past) ∧
      mid.run? later = some (last, more) ∧
      last.result = some (.returned (.error .cancelled)) ∧
      (past ++ more).filterMap Event.started? = past.filterMap Event.queued? ∧
      Upload.Fired job false (earlier ++ later) := by
  intro job first earlier later
  obtain ⟨waiting, running, told⟩ := cancellation_outcome
  constructor
  · have fresh : first.Fresh := by
      refine ⟨rfl, fun limiter member => ⟨1, ?_⟩⟩
      rw [List.mem_singleton.mp member]
      decide
    let log : Uploaders.Log :=
      [(.save 0 0 job false, []), (.save 1 0 job false, []), (.move 1 .cancel, [])]
    have runs : ∃ mid last, Uploaders.Run first log mid ∧
        Uploaders.Run mid [(.move 1 .withdraw, [])] last ∧
        mid.call? 1 = some ⟨0, { Upload.begin job false with cancelled := true }⟩ ∧
        ((last.call? 1).bind fun call => call.upload.result).isSome = true :=
      ⟨_, _, .cons (by rfl) rfl (.cons (by rfl) rfl (.cons trivial rfl .start)),
        .cons trivial rfl .start, rfl, rfl⟩
    obtain ⟨mid, last, before, after, found, ended⟩ := runs
    obtain ⟨_, _, _, upload, there, _, _, answers⟩ :=
      waiting first mid last log _ 1 _ fresh before after found rfl rfl
    rw [there] at ended
    obtain ⟨result, answer⟩ := Option.isSome_iff_exists.mp ended
    obtain ⟨rfl, left⟩ := answers result answer
    exact ⟨log, mid, _, last, before, after, rfl, upload, there, answer, left⟩
  · have outcome : (((Upload.begin job false).run? earlier).bind fun before =>
        (before.1.run? later).map fun after =>
          (before.1.isUndecided, before.1.cancelled, after.1.result.isSome,
            ((before.2 ++ after.2).filterMap Event.ended?).countP fun call =>
              call.2 = .crashed)) = some (true, true, true, 0) := by decide +kernel
    obtain ⟨⟨mid, past⟩, before, rest⟩ := Option.bind_eq_some_iff.mp outcome
    obtain ⟨⟨last, more⟩, after, facts⟩ := Option.map_eq_some_iff.mp rest
    simp only [Prod.mk.injEq] at facts
    obtain ⟨undecided, wanted, ended, calm⟩ := facts
    obtain ⟨result, answer⟩ := Option.isSome_iff_exists.mp ended
    obtain ⟨_, _, _, answers⟩ :=
      running job false earlier later mid last past more before undecided wanted after
    obtain ⟨heard, _, _, processed, _⟩ := answers result answer
    have inner : ∀ move ∈ later, match move with
        | .withdraw | .openInput _ | .locate _ | .connect _ | .seek => False
        | _ => True := by simp [later]
    have clear : ∀ value, ¬ Upload.Obstacle job (· ∈ later) value := by
      intro value obstacle
      cases obstacle with
      | refused refusal =>
        cases refusal with
        | withdrawn allowed | unopened allowed | unplanned allowed | unlocated allowed
        | unconnected allowed => exact inner _ allowed
      | unsought allowed => exact inner _ allowed
    obtain rfl : result = .returned (.error .cancelled) :=
      heard.resolve_right fun ⟨value, obstacle, _⟩ => clear value obstacle
    have run := Upload.run_append before after
    have none_crashed : ∀ call ∈ (past ++ more).filterMap Event.ended?, call.2 ≠ .crashed := by
      intro call member
      simpa using List.countP_eq_zero.mp calm call member
    exact ⟨mid, past, last, more, before, after, answer, processed none_crashed,
      (told job false _ last _ run answer).2⟩

end ChunkedUpload
