import ChunkedUpload.Proofs.Uploaders.Waits

/-! What waits for resends return. A wait keeps the resends that it has taken over, and when it
returns all of them are over: each part has been sent once and answered, its workers are gone, and
its answer is counted. -/
namespace ChunkedUpload

namespace Uploaders

variable {first mid all next : Uploaders} {log : Log} {act : UploaderAct} {events : List Event}
  {id uploader : Nat} {call : SaveCall} {wait : ResendWait} {total summary : PoolSummary}
  {ids : List Nat}

section Totals

theorem summary_of_totals (ended : all.totals? ids = some total) (member : id ∈ ids) :
    ∃ summary, all.summary? id = some summary := by
  induction ids generalizing total with
  | nil => exact absurd member List.not_mem_nil
  | cons first rest ih =>
    simp only [totals?, Option.bind_eq_bind, Option.bind_eq_some_iff] at ended
    obtain ⟨summary, here, others, later, _⟩ := ended
    rcases List.mem_cons.mp member with rfl | there
    · exact ⟨summary, here⟩
    · exact ih later there

theorem finished_of_summary (ended : all.summary? id = some summary) :
    ∃ found dispatch outcome, all.call? id = some found ∧
      found.upload.stage = .dispatching dispatch ∧
      dispatch.producer = .finished outcome summary := by
  obtain ⟨found, there, counted⟩ := Option.bind_eq_some_iff.mp ended
  split at counted
  · rename_i dispatch stage
    split at counted
    · rename_i outcome counts phase
      cases counted
      exact ⟨found, dispatch, outcome, there, stage, phase⟩
    · contradiction
  · contradiction

theorem totals_kept (kept : ∀ id summary, all.summary? id = some summary →
      next.summary? id = some summary) (ended : all.totals? ids = some total) :
    next.totals? ids = some total := by
  induction ids generalizing total with
  | nil => exact ended
  | cons first rest ih =>
    simp only [totals?, Option.bind_eq_bind, Option.bind_eq_some_iff] at ended ⊢
    obtain ⟨summary, here, others, later, sum⟩ := ended
    exact ⟨summary, kept first summary here, others, ih later, sum⟩

theorem totals_count {delivered : Nat → Bool}
    (each : ∀ id ∈ ids, all.summary? id = some (if delivered id then ⟨1, 0⟩ else ⟨0, 1⟩))
    (ended : all.totals? ids = some total) :
    total.delivered = ids.countP delivered ∧ total.failed = ids.countP fun id => !delivered id := by
  induction ids generalizing total with
  | nil =>
    cases ended
    exact ⟨rfl, rfl⟩
  | cons first rest ih =>
    simp only [totals?, Option.bind_eq_bind, Option.bind_eq_some_iff] at ended
    obtain ⟨summary, here, others, later, sum⟩ := ended
    cases sum
    obtain ⟨sent, lost⟩ := ih (fun id member => each id (List.mem_cons_of_mem _ member)) later
    have own := each first List.mem_cons_self
    rw [here] at own
    rw [Option.some.inj own]
    cases answer : delivered first <;>
      simp [PoolSummary.add, answer, sent, lost, Nat.add_comm]

end Totals

section Kept

theorem wait?_congr (same : next.waits = all.waits) (id : Nat) : next.wait? id = all.wait? id := by
  rw [wait?, same, wait?]

/-- A wait is still there with its resends and its result; a new result is their count. -/
def Holds (all next : Uploaders) (id : Nat) (wait : ResendWait) : Prop :=
  ∃ result, next.wait? id = some { wait with result := result } ∧
    (∀ total, wait.result = some total → result = some total) ∧
    ∀ total, result = some total →
      wait.result = some total ∨ all.totals? wait.drains = some total

theorem Step.keeps_wait (step : Step all act events next) (found : all.wait? id = some wait) :
    all.Holds next id wait := by
  have still : next.waits = all.waits → all.Holds next id wait := fun same =>
    ⟨wait.result, (wait?_congr same id).trans found, fun _ given => given, fun _ => .inl⟩
  cases step with
  | saved => exact still (waits_updateLimiter _ _ _)
  | refused | moved => exact still rfl
  | answered => exact still (waits_settleResult _ _ _)
  | awaited =>
    refine ⟨wait.result, ?_, fun _ given => given, fun _ => .inl⟩
    rw [wait?] at found
    rw [wait?, lookup_snoc, found, Option.some_or]
  | @settled other old total there unsettled ended =>
    have now : (all.setWait other { old with result := some total }).wait? id =
        if id = other then (all.wait? id).map fun _ => { old with result := some total }
        else all.wait? id := lookup_map_set _ _ _ _
    by_cases own : id = other
    · subst own
      cases found.symm.trans there
      refine ⟨some total, by rw [now, if_pos rfl, found]; rfl, fun early given => ?_,
        fun late given => ?_⟩
      · rw [unsettled] at given
        contradiction
      · cases given
        exact .inr ended
    · exact ⟨wait.result, by rw [now, if_neg own, found], fun _ given => given, fun _ => .inl⟩

theorem Step.new_wait (step : Step all act events next) (missing : all.wait? id = none)
    (found : next.wait? id = some wait) : wait.result = none := by
  have absurd_of : next.waits = all.waits → wait.result = none := by
    intro same
    rw [wait?_congr same, missing] at found
    contradiction
  cases step with
  | saved => exact absurd_of (waits_updateLimiter _ _ _)
  | refused | moved => exact absurd_of rfl
  | answered => exact absurd_of (waits_settleResult _ _ _)
  | awaited =>
    rw [wait?] at missing found
    rw [lookup_snoc, missing, Option.none_or] at found
    split at found
    · cases found
      rfl
    · contradiction
  | settled =>
    rw [wait?] at missing found
    rw [setWait, lookup_map_set, missing] at found
    split at found <;> contradiction

theorem Run.keeps_wait (run : Run mid log all) (found : mid.wait? id = some wait) :
    ∃ result, all.wait? id = some { wait with result := result } ∧
      ∀ total, wait.result = some total → result = some total := by
  induction run with
  | start => exact ⟨wait.result, found, fun _ given => given⟩
  | step _ _ stepped ih =>
    obtain ⟨result, here, kept⟩ := ih
    obtain ⟨now, there, again, _⟩ := (step_of_step? stepped).keeps_wait here
    exact ⟨now, there, fun total given => again total (kept total given)⟩

end Kept

section Over

/-- Whether the session has taken what a call has sent. -/
def delivered (log : Log) (id : Nat) : Bool :=
  ((eventsOf id log).filterMap Event.ended?).any fun call => call.2 = .delivered

/-- A resend is over: its part was queued once and sent once, and its workers are gone. -/
def Over (log : Log) (all : Uploaders) (id : Nat) : Prop :=
  ∃ call dispatch request reply, all.call? id = some call ∧
    call.upload.stage = .dispatching dispatch ∧
    (eventsOf id log).filterMap Event.queued? = [request] ∧
    (eventsOf id log).filterMap Event.ended? = [(request, reply)] ∧
    ∀ worker ∈ dispatch.pool.workers, worker.isGone = true

theorem Run.begun (run : Run first log all) (calls : first.calls = [])
    (found : all.call? id = some call) : ∃ job cancelled,
      (Upload.begin job cancelled).run? (movesOf id log) =
        some (call.upload, eventsOf id log) := by
  have whole := @Run.of_call first all log id run calls
  rw [found] at whole
  obtain ⟨job, cancelled, _, ran⟩ := whole
  exact ⟨job, cancelled, ran⟩

theorem Run.summary_kept (run : Run first log all) (calls : first.calls = [])
    (step : Step all act events next) (ended : all.summary? id = some summary) :
    next.summary? id = some summary := by
  obtain ⟨call, dispatch, outcome, found, stage, phase⟩ := finished_of_summary ended
  obtain ⟨job, cancelled, ran⟩ := run.begun calls found
  obtain ⟨_, here⟩ := Upload.run_queuedOnce ran
  simp only [stage] at here
  have gone := (here.1.1.working.finished phase).2.2.1
  have same : ∃ upload, next.call? id = some { call with upload := upload } ∧
      upload.stage = .dispatching dispatch := by
    rcases step.keeps_call found with ⟨_, there⟩ | ⟨_, upload, _, moved, there, _⟩
    · exact ⟨call.upload, there, stage⟩
    · obtain ⟨rfl, _⟩ := Upload.Ended.step (.finished stage phase gone) moved
      exact ⟨_, there, stage⟩
  obtain ⟨upload, there, still⟩ := same
  simp [summary?, there, still, phase]

theorem Run.over (run : Run first log all) (calls : first.calls = [])
    (resend : all.IsResend uploader id) (ended : all.summary? id = some summary) :
    Over log all id ∧ summary = if delivered log id then ⟨1, 0⟩ else ⟨0, 1⟩ := by
  obtain ⟨call, dispatch, outcome, found, stage, phase⟩ := finished_of_summary ended
  obtain ⟨_, there, _, queued⟩ := resend
  cases found.symm.trans there
  obtain ⟨job, cancelled, ran⟩ := run.begun calls found
  obtain ⟨⟨request, reply, one, answered, counted⟩, gone⟩ :=
    Upload.sent_of_finished ran queued stage phase
  refine ⟨⟨call, dispatch, request, reply, found, stage, one, answered, gone⟩, ?_⟩
  rw [counted, delivered, answered]
  simp

/-- The result of a wait is still the count of its resends. -/
theorem Run.settled (run : Run first log all) (unused : first.Unused)
    (found : all.wait? id = some wait) (result : wait.result = some total) :
    all.totals? wait.drains = some total := by
  induction run generalizing wait with
  | start =>
    rw [wait?, unused.waits] at found
    contradiction
  | @step log all next act events ran _ stepped ih =>
    have step := step_of_step? stepped
    -- no step takes a count back, so the total stands that was there when the wait returned
    refine totals_kept (fun _ _ => ran.summary_kept unused.calls step) ?_
    cases before : all.wait? id with
    | none =>
      rw [step.new_wait before found] at result
      contradiction
    | some old =>
      obtain ⟨now, there, _, counted⟩ := step.keeps_wait before
      cases there.symm.trans found
      rcases counted total result with early | late
      · exact (ih before early : all.totals? old.drains = some total)
      · exact late

theorem mem_drains : id ∈ all.drains uploader ↔
    ∃ entry ∈ all.waits, entry.2.uploader = uploader ∧ id ∈ entry.2.drains := by
  rw [drains, List.mem_flatMap]
  refine exists_congr fun entry => and_congr_right fun _ => ?_
  split
  · rename_i here
    simp [here]
  · rename_i other
    simp [other]

theorem Run.resend_of_drained (run : Run first log all) (unused : first.Unused)
    (found : all.wait? id = some wait) {drained : Nat} (member : drained ∈ wait.drains) :
    all.IsResend wait.uploader drained := by
  rw [← (run.accounted unused wait.uploader).resends]
  exact List.mem_append_left _ (mem_drains.mpr ⟨(id, wait), mem_of_lookup found, rfl, member⟩)

/-- What a wait returns, and that all it has waited for is over. -/
theorem Run.counted (run : Run first log all) (unused : first.Unused)
    (found : all.wait? id = some wait) (result : wait.result = some total) :
    total.delivered = wait.drains.countP (delivered log) ∧
    (total.failed = wait.drains.countP fun id => !delivered log id) ∧
    ∀ drained ∈ wait.drains, Over log all drained := by
  have ended := run.settled unused found result
  have each : ∀ drained ∈ wait.drains, Over log all drained ∧
      all.summary? drained = some (if delivered log drained then ⟨1, 0⟩ else ⟨0, 1⟩) := by
    intro drained member
    obtain ⟨summary, its⟩ := summary_of_totals ended member
    obtain ⟨rests, counted⟩ :=
      run.over unused.calls (run.resend_of_drained unused found member) its
    exact ⟨rests, its.trans (congrArg some counted)⟩
  obtain ⟨sent, lost⟩ := totals_count (fun drained member => (each drained member).2) ended
  exact ⟨sent, lost, fun drained member => (each drained member).1⟩

end Over

end Uploaders

end ChunkedUpload
