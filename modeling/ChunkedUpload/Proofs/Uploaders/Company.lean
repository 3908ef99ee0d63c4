import ChunkedUpload.Proofs.Upload.Resting
import ChunkedUpload.Proofs.Uploaders.Slots

/-! Calls in company. They share the limiter, the session and the list of resends, and nothing else:
what the session sees under the identifier of one file comes from one call, and what becomes of that
call is what becomes of it in any other company. A call that has a slot for itself is never kept
waiting by the others. -/
namespace ChunkedUpload

/-- The identifier that the requests of the job carry. -/
def UploadJob.fileId (job : UploadJob) : Int64 :=
  (job.resume.map ResumePart.fileId).getD job.freshId

theorem UploadPlan.make_fileId {job : UploadJob} {size : UInt64} {plan : UploadPlan}
    (made : make size job.resume job.freshId = .ok plan) : plan.fileId = job.fileId := by
  unfold UploadJob.fileId
  obtain ⟨whole, rfl⟩ | ⟨_, again, _, rfl⟩ := make_cases made
  · rw [whole]
    rfl
  · rw [again]
    rfl

theorem Numbered.parts_nodup {plan : UploadPlan} {requests : List PartRequest}
    (numbered : Numbered plan requests) (few : requests.length ≤ 2 ^ 32) :
    (requests.map PartRequest.part).Nodup := by
  refine List.nodup_iff_getElem?_ne_getElem?.mpr fun i j before inside same => ?_
  rw [List.length_map] at inside
  rw [List.getElem?_map, List.getElem?_map, List.getElem?_eq_getElem inside,
    List.getElem?_eq_getElem (Nat.lt_trans before inside)] at same
  have first := congrArg PartRequest.part
    (numbered i _ (List.getElem?_eq_getElem (Nat.lt_trans before inside))).1
  have second := congrArg PartRequest.part (numbered j _ (List.getElem?_eq_getElem inside)).1
  simp only [Option.map_some, Option.some.injEq] at same
  simp only [UploadPlan.request] at first second
  rw [first, second, UInt32.add_right_inj] at same
  have numbers := congrArg UInt32.toNat same
  rw [UInt32.toNat_ofNat_of_lt' (Nat.lt_of_lt_of_le (Nat.lt_trans before inside) few),
    UInt32.toNat_ofNat_of_lt' (Nat.lt_of_lt_of_le inside few)] at numbers
  exact Nat.ne_of_lt before numbers

namespace Upload

section Requests

variable {job : UploadJob} {cancelled : Bool} {moves : List Move} {last : Upload}
  {events : List Event} (run : (begin job cancelled).run? moves = some (last, events))

include run

theorem run_carries : ∀ request ∈ events.filterMap Event.started?,
    request.fileId = job.fileId := by
  have standing := run_known (fun _ _ => trivial : ∀ move ∈ moves, True) run
  refine standing.started (fun sent => ∀ request ∈ sent, request.fileId = job.fileId) (by simp)
    fun dispatch ⟨working, _⟩ request member => ?_
  obtain ⟨i, found⟩ := List.mem_iff_getElem?.mp (working.started_isPrefix.subset member)
  obtain ⟨_, _, _, opened, _⟩ := working.origin
  rw [(working.fed.numbered i request found).1]
  exact UploadPlan.make_fileId opened.planned

theorem run_parts_nodup (few : (events.filterMap Event.started?).length ≤ 2 ^ 32) :
    ((events.filterMap Event.started?).map PartRequest.part).Nodup := by
  have standing := run_known (fun _ _ => trivial : ∀ move ∈ moves, True) run
  refine standing.started (fun sent => sent.length ≤ 2 ^ 32 → (sent.map PartRequest.part).Nodup)
    (by simp) (fun dispatch ⟨working, _⟩ few => ?_) few
  have numbered : Numbered dispatch.plan (events.filterMap Event.started?) :=
    forall_prefix working.started_isPrefix working.fed.numbered
  exact numbered.parts_nodup few

end Requests

theorem unanswered_of_step {upload next : Upload} {move : Move} {events : List Event}
    (step : Step upload move events next)
    (answer : ∀ dispatch, upload.stage = .dispatching dispatch →
      upload.result = dispatch.result? upload.job)
    (unanswered : next.result = none) : upload.result = none := by
  cases step with
  | cancelled | entered | opened | located | connected => exact unanswered
  | withdrawn | unopened | unplanned | unlocated | unconnected => cases unanswered
  | dispatched stage step =>
    rw [answer _ stage]
    exact Dispatch.unanswered_of_step step unanswered

end Upload

namespace Admission

theorem mem_line_leave {limiter : Admission} {id other : Nat} (stands : id ∈ limiter.line)
    (apart : id ≠ other) : id ∈ (limiter.leave other).line := by
  have kept : ∀ names : List Nat, id ∈ names → id ∈ names.erase other := fun _ member =>
    (List.mem_erase_of_ne apart).mpr member
  have cancelled : ∀ limiter : Admission, id ∈ limiter.line → id ∈ (limiter.cancel other).line := by
    intro limiter stands
    rw [cancel, line_settle, mem_line]
    exact (mem_line.mp stands).imp_right (kept _)
  refine cancelled _ ?_
  unfold release
  split
  · rw [line_settle, mem_line]
    exact (mem_line.mp stands).imp_left (kept _)
  · exact stands

end Admission

namespace Uploaders

/-- All requests that the session has seen, in their order. -/
def sentIn (log : Log) : List PartRequest := (log.flatMap Prod.snd).filterMap Event.started?

theorem mem_seen {Seen : Type} {seen? : Event → Option Seen} {seen : Seen} {log : Log} :
    seen ∈ (log.flatMap Prod.snd).filterMap seen? ↔
      ∃ entry ∈ log, seen ∈ entry.2.filterMap seen? := by
  rw [List.filterMap_flatMap, List.mem_flatMap]

theorem seen_of_eventsOf {Seen : Type} {seen? : Event → Option Seen} {seen : Seen} {id : Nat}
    {log : Log} (own : seen ∈ (eventsOf id log).filterMap seen?) :
    ∃ entry ∈ log, seen ∈ entry.2.filterMap seen? := by
  rw [eventsOf, List.filterMap_flatMap, List.mem_flatMap] at own
  obtain ⟨entry, member, here⟩ := own
  split at here
  · exact ⟨entry, member, here⟩
  · cases here

/-- The calls on the uploaders of one limiter that wait for their answer. -/
def unanswered (all : Uploaders) (place : Nat) : List Nat :=
  (all.calls.filter fun entry =>
    entry.2.upload.result.isNone && all.limiterOf? entry.2.uploader == some place).map Prod.fst

variable {first all next : Uploaders} {log : Log} {act : UploaderAct} {events : List Event}
  {id place : Nat} {limiter : Admission} {call : SaveCall}

theorem Run.mover (run : Run first log all) (entry : (act, events) ∈ log) :
    events = [] ∨ ∃ id move call, act = .move id move ∧ all.call? id = some call := by
  induction run with
  | start => cases entry
  | @step log all next last seen ran _ stepped ih =>
    have step := step_of_step? stepped
    rcases List.mem_append.mp entry with earlier | now
    · rcases ih earlier with silent | ⟨id, move, call, same, found⟩
      · exact .inl silent
      · rcases step.keeps_call found with ⟨_, there⟩ | ⟨_, _, _, _, there, _⟩
        · exact .inr ⟨id, move, _, same, there⟩
        · exact .inr ⟨id, move, _, same, there⟩
    · obtain ⟨rfl, rfl⟩ := Prod.mk.inj (List.mem_singleton.mp now)
      cases step with
      | saved | refused | awaited | settled => exact .inl rfl
      | @moved mover move call _ upload _ found =>
        refine .inr ⟨mover, move, { call with upload := upload }, rfl, ?_⟩
        rw [call?_setCall, if_pos rfl, found, Option.map_some]
      | @answered mover move call _ upload _ found =>
        refine .inr ⟨mover, move, { call with upload := upload }, rfl, ?_⟩
        rw [call?_congr (calls_settleResult _ _ _), call?_setCall, if_pos rfl, found,
          Option.map_some]

theorem Run.job_run (run : Run first log all) (fresh : first.calls = [])
    (found : all.call? id = some call) : ∃ cancelled,
      (.save id call.uploader call.upload.job cancelled, []) ∈ log ∧
      (Upload.begin call.upload.job cancelled).run? (movesOf id log) =
        some (call.upload, eventsOf id log) := by
  have whole := @Run.of_call first all log id run fresh
  rw [found] at whole
  obtain ⟨job, cancelled, saved, ran⟩ := whole
  obtain ⟨rfl, _⟩ := Upload.run_known (fun _ _ => trivial : ∀ move ∈ movesOf id log, True) ran
  exact ⟨cancelled, saved, ran⟩

section Sent

theorem eventsOf_subset (entry : (act, events) ∈ log) {move : Move} (own : act = .move id move) :
    events ⊆ eventsOf id log := by
  subst own
  intro event member
  exact List.mem_flatMap.mpr ⟨_, entry, by simpa [UploaderAct.moveOf?] using member⟩

theorem Run.carried (run : Run first log all) (fresh : first.calls = [])
    (entry : (act, events) ∈ log) {request : PartRequest}
    (sent : request ∈ events.filterMap Event.started?) : ∃ id move call, act = .move id move ∧
      all.call? id = some call ∧ request.fileId = call.upload.job.fileId := by
  rcases run.mover entry with rfl | ⟨id, move, call, own, found⟩
  · cases sent
  · obtain ⟨_, _, ran⟩ := run.job_run fresh found
    refine ⟨id, move, call, own, found, Upload.run_carries ran request ?_⟩
    obtain ⟨event, member, same⟩ := List.mem_filterMap.mp sent
    exact List.mem_filterMap.mpr ⟨event, eventsOf_subset entry own member, same⟩

/-- No two calls have to do with the same file. -/
def Apart (all : Uploaders) : Prop :=
  ∀ id other call held, all.call? id = some call → all.call? other = some held →
    call.upload.job.fileId = held.upload.job.fileId → id = other

/-- Under the identifier of a file the session sees what its call sends, and nothing else. -/
theorem Run.sent_of_file (run : Run first log all) (fresh : first.calls = []) (apart : all.Apart)
    (found : all.call? id = some call) :
    (sentIn log).filter (fun request => request.fileId = call.upload.job.fileId) =
      (eventsOf id log).filterMap Event.started? := by
  have each : ∀ entry ∈ log,
      (entry.2.filterMap Event.started?).filter
          (fun request => request.fileId = call.upload.job.fileId) =
        (if (entry.1.moveOf? id).isSome then entry.2 else []).filterMap Event.started? := by
    rintro ⟨act, events⟩ entry
    split
    · rename_i own
      obtain ⟨move, same⟩ := Option.isSome_iff_exists.mp own
      refine List.filter_eq_self.mpr fun request sent => ?_
      obtain ⟨other, made, held, rfl, there, carries⟩ := run.carried fresh entry sent
      obtain rfl : other = id := by
        by_contra foreign
        simp [UploaderAct.moveOf?, foreign] at same
      cases found.symm.trans there
      simpa using carries
    · rename_i foreign
      refine List.filter_eq_nil_iff.mpr fun request sent same => ?_
      obtain ⟨other, made, held, rfl, there, carries⟩ := run.carried fresh entry sent
      obtain rfl : id = other := apart id other call held found there (by simp_all)
      simp [UploaderAct.moveOf?] at foreign
  rw [sentIn, eventsOf, List.filterMap_flatMap, List.filterMap_flatMap, List.filter_flatMap]
  exact List.flatMap_congr each

end Sent

section Lines

/-- Whoever has no answer and is not cancelled stands in the line of its limiter. -/
def Attended (all : Uploaders) : Prop :=
  ∀ id call, all.call? id = some call → call.upload.result = none →
    call.upload.cancelled = false → ∀ place limiter, all.limiterOf? call.uploader = some place →
      all.limiters[place]? = some limiter → id ∈ limiter.line

theorem attended_addCall (attended : all.Attended) {uploader other : Nat} {job : UploadJob}
    {cancelled : Bool} (found : (all.addCall id uploader job cancelled).call? other = some call)
    (unanswered : call.upload.result = none) (awake : call.upload.cancelled = false)
    (used : all.limiterOf? call.uploader = some place) :
    (∀ limiter, all.limiters[place]? = some limiter → other ∈ limiter.line) ∨
    other = id ∧ cancelled = false ∧ call.uploader = uploader := by
  rw [call?_addCall] at found
  cases known : all.call? other with
  | some old =>
    rw [known, Option.some_or] at found
    cases found
    exact .inl fun limiter there => attended other _ known unanswered awake place limiter used there
  | none =>
    rw [known, Option.none_or] at found
    split at found
    · rename_i own
      cases found
      exact .inr ⟨own, awake, rfl⟩
    · contradiction

theorem attended_saved (attended : all.Attended) (id uploader : Nat) (job : UploadJob) :
    ((all.addCall id uploader job false).updateLimiter uploader fun limiter =>
      limiter.request id).Attended := by
  intro other call found unanswered awake place limiter used there
  rw [call?_congr (calls_updateLimiter _ _ _)] at found
  rw [limiterOf?_congr (uploaders_updateLimiter _ _ _)] at used
  rcases attended_addCall attended found unanswered awake used with before | ⟨rfl, _, own⟩
  · refine updateLimiter_keeps (P := (other ∈ ·.line)) there before fun old stands => ?_
    rw [Admission.line_request]
    exact List.mem_append_left _ stands
  · obtain ⟨u, here, rfl⟩ := Option.map_eq_some_iff.mp used
    rw [own] at here
    rw [limiters_updateLimiter here, List.getElem?_modify] at there
    obtain ⟨old, _, same⟩ := Option.map_eq_some_iff.mp there
    rw [if_pos rfl] at same
    rw [← same, Admission.line_request]
    exact List.mem_append_right _ (List.mem_singleton_self _)

theorem attended_setCall (attended : all.Attended) {move : Move} {upload : Upload}
    (found : all.call? id = some call) (stepped : call.upload.step? move = some (upload, events))
    (answer : ∀ dispatch, call.upload.stage = .dispatching dispatch →
      call.upload.result = dispatch.result? call.upload.job) :
    (all.setCall id { call with upload := upload }).Attended := by
  intro other held there unanswered awake
  rw [call?_setCall] at there
  by_cases own : other = id
  · subst own
    rw [if_pos rfl, found] at there
    cases there
    -- whoever has no answer after its move, and is not cancelled, was so before
    refine attended other call found ?_ ?_
    · exact Upload.unanswered_of_step (Upload.step_of_step? answer stepped) answer unanswered
    · exact Upload.uncancelled_of_step awake stepped
  · rw [if_neg own] at there
    exact attended other held there unanswered awake

theorem attended_settleResult (attended : all.Attended) (found : all.call? id = some call)
    (answered : call.upload.result.isSome = true) : (all.settleResult id call).Attended := by
  intro other held there unanswered awake place limiter used here
  rw [call?_congr (calls_settleResult _ _ _)] at there
  rw [limiterOf?_settleResult] at used
  rw [limiters_settleResult] at here
  have apart : other ≠ id := by
    rintro rfl
    cases found.symm.trans there
    rw [unanswered] at answered
    contradiction
  exact updateLimiter_keeps (P := (other ∈ ·.line)) here
    (attended other held there unanswered awake place · used)
    fun old stands => Admission.mem_line_leave stands apart

theorem Run.attended (run : Run first log all) (fresh : first.calls = []) : all.Attended := by
  induction run with
  | start =>
    intro id call found
    rw [call?, fresh] at found
    contradiction
  | step ran _ stepped attended =>
    cases step_of_step? stepped with
    | saved id uploader job => exact attended_saved attended id uploader job
    | refused id uploader job =>
      intro other call found unanswered awake place limiter used there
      exact (attended_addCall attended found unanswered awake used).resolve_right (by simp) limiter
        there
    | moved found _ _ moved => exact attended_setCall attended found moved (ran.answer fresh found)
    | @answered id move call _ upload _ found _ _ moved _ answered =>
      have set := attended_setCall attended found moved (ran.answer fresh found)
      refine attended_settleResult set ?_ answered
      rw [call?_setCall, if_pos rfl, found, Option.map_some]
    | awaited =>
      intro id call found unanswered awake place limiter used
      rw [(step_of_step? stepped).limiterOf?] at used
      exact attended id call found unanswered awake place limiter used
    | settled => exact attended

theorem Run.slot (run : Run first log all) (fresh : first.Fresh) (found : all.call? id = some call)
    (unanswered : call.upload.result = none) (awake : call.upload.cancelled = false)
    (used : all.limiterOf? call.uploader = some place)
    (there : all.limiters[place]? = some limiter)
    (room : (all.unanswered place).length ≤ limiter.max) : id ∈ limiter.holders := by
  obtain ⟨sound, stand⟩ := run.ordered fresh.ordered place limiter there
  have stands := run.attended fresh.calls id call found unanswered awake place limiter used there
  have subset : limiter.line ⊆ all.unanswered place := by
    intro other member
    obtain ⟨held, here, none_yet, its⟩ := stand other member
    refine List.mem_map.mpr ⟨(other, held), List.mem_filter.mpr ⟨?_, by simp [none_yet, its]⟩, rfl⟩
    exact (run.mem_calls fresh.calls).mpr here
  -- the line is no longer than there are slots, and nobody waits while one of them is free
  have few := (List.subperm_of_subset sound.once subset).length_le
  have slots := sound.slots
  rw [Admission.line, List.length_append] at few
  rcases Admission.mem_line.mp stands with holds | waits
  · exact holds
  · have some_waits := List.length_pos_of_mem waits
    rcases sound.settled with taken | nobody
    · omega
    · rw [nobody] at waits
      cases waits

end Lines

section Moves

variable {move : Move} {upload : Upload}

theorem limiter?_of_place (used : all.limiterOf? call.uploader = some place)
    (there : all.limiters[place]? = some limiter) :
    all.limiter? call.uploader = some limiter := by
  obtain ⟨u, here, rfl⟩ := Option.map_eq_some_iff.mp used
  simp [limiter?, here, there]

theorem step_of_upload (found : all.call? id = some call)
    (limited : all.limiter? call.uploader = some limiter)
    (admitted : move = .enter → id ∈ limiter.holders)
    (stepped : call.upload.step? move = some (upload, events)) :
    ∃ next, all.step? (.move id move) = some (next, events) ∧
      next.call? id = some { call with upload := upload } := by
  obtain ⟨next, made⟩ : ∃ next, all.step? (.move id move) = some (next, events) :=
    ⟨_, step?_move found limited admitted stepped⟩
  refine ⟨next, made, ?_⟩
  rcases (step_of_step? made).keeps_call found with ⟨other, _⟩ | ⟨_, _, same, moved, there, _⟩
  · simp [UploaderAct.moveOf?] at other
  · cases same
    cases stepped.symm.trans moved
    exact there

theorem Step.move_other {other : Nat} {held : SaveCall}
    (step : Step all (.move id move) events next) (apart : other ≠ id)
    (there : next.call? other = some held) : all.call? other = some held := by
  cases before : all.call? other with
  | none =>
    obtain ⟨_, _, same, _⟩ := step.new before there
    cases same
  | some old =>
    rcases step.keeps_call before with ⟨_, still⟩ | ⟨_, _, same, _⟩
    · exact still.symm.trans there
    · cases same
      exact absurd rfl apart

end Moves

/-- A process in which nobody is cancelled, no two calls have to do with the same file, and every
call meets these surroundings. -/
structure Company (around : Surroundings) (first : Uploaders) (log : Log) (all : Uploaders) :
    Prop where
  fresh : first.Fresh
  run : Run first log all
  apart : all.Apart
  awake : ∀ id call, all.call? id = some call → call.upload.cancelled = false
  meets : ∀ id call, all.call? id = some call →
    ∀ move ∈ movesOf id log, move.Meets around call.upload.job
  heard : ∀ entry ∈ log, ∀ call ∈ entry.2.filterMap Event.ended?, call.2 = around.reply call.1

theorem apart_of_nodup (run : Run first log all) (fresh : first.calls = [])
    (once : (all.calls.map fun entry => entry.2.upload.job.fileId).Nodup) : all.Apart := by
  intro id other call held found there same
  have entry := (run.mem_calls fresh).mpr found
  have also := (run.mem_calls fresh).mpr there
  exact congrArg Prod.fst (List.inj_on_of_nodup_map once entry also same)

section Company

variable {around : Surroundings} {move : Move} {upload : Upload}

theorem acts_of_logged {acts : List UploaderAct}
    (ran : runSteps? logged? first acts = some (all, log)) : ∀ entry ∈ log, entry.1 ∈ acts := by
  have kept : StepKeeps logged? (fun past _ => ∀ entry ∈ past, entry.1 ∈ acts) (· ∈ acts) := by
    intro past all act next seen listed member stepped entry there
    rcases List.mem_append.mp there with earlier | now
    · exact listed entry earlier
    · unfold logged? at stepped
      split at stepped
      · obtain ⟨_, _, eq⟩ := Option.map_eq_some_iff.mp stepped
        cases eq
        rwa [List.mem_singleton.mp now]
      · contradiction
  exact run_holds kept acts first all log (by simp) (fun _ => id) ran

theorem job_of_logged {acts : List UploaderAct} (fresh : first.calls = [])
    (ran : runSteps? logged? first acts = some (all, log)) (found : all.call? id = some call) :
    ∃ uploader cancelled, .save id uploader call.upload.job cancelled ∈ acts := by
  obtain ⟨cancelled, saved, _⟩ := (run_of_logged ran).job_run fresh found
  exact ⟨call.uploader, cancelled, acts_of_logged ran _ saved⟩

/-- What remains to be computed of a run to see that it has kept company. -/
def keepsCompany (around : Surroundings) (log : Log) (all : Uploaders) : Bool :=
  decide (all.calls.map fun entry => entry.2.upload.job.fileId).Nodup &&
  all.calls.all (fun entry => !entry.2.upload.cancelled) &&
  ((log.flatMap Prod.snd).filterMap Event.ended?).all fun call => call.2 = around.reply call.1

theorem company_of_logged {acts : List UploaderAct} (fresh : first.Fresh)
    (ran : runSteps? logged? first acts = some (all, log))
    (meets : ∀ id move, .move id move ∈ acts → ∀ job, move.Meets around job)
    (kept : keepsCompany around log all = true) : Company around first log all := by
  simp only [keepsCompany, Bool.and_eq_true, decide_eq_true_eq] at kept
  obtain ⟨⟨once, awake⟩, heard⟩ := kept
  have run := run_of_logged ran
  refine ⟨fresh, run, apart_of_nodup run fresh.calls once, fun id call found => ?_,
    fun id call _ move member => ?_, fun entry there ended member => ?_⟩
  · simpa using List.all_eq_true.mp awake _ ((run.mem_calls fresh.calls).mpr found)
  · obtain ⟨⟨act, events⟩, there, own⟩ := List.mem_filterMap.mp member
    have made : act = .move id move := by
      cases act with
      | move other made =>
        simp only [UploaderAct.moveOf?, Option.ite_none_right_eq_some, Option.some.injEq] at own
        rw [own.1, own.2]
      | save | await | settle => cases own
    exact meets id move (made ▸ acts_of_logged ran _ there) _
  · simpa using List.all_eq_true.mp heard ended (mem_seen.mpr ⟨entry, there, member⟩)

theorem Company.lived (company : Company around first log all) (found : all.call? id = some call) :
    Upload.Lived around call.upload.job (movesOf id log) (eventsOf id log) call.upload := by
  have awake := company.awake id call found
  obtain ⟨cancelled, _, ran⟩ := company.run.job_run company.fresh.calls found
  obtain rfl : cancelled = false := Upload.uncancelled_of_run ran awake
  refine ⟨ran, company.meets id call found, awake, fun ended member => ?_⟩
  obtain ⟨entry, there, here⟩ := seen_of_eventsOf member
  exact company.heard entry there ended here

theorem Company.step (company : Company around first log all) (found : all.call? id = some call)
    (stepped : all.step? (.move id move) = some (next, events))
    (there : next.call? id = some { call with upload := upload })
    (lived : Upload.Lived around call.upload.job (movesOf id log ++ [move])
      (eventsOf id log ++ events) upload) :
    Company around first (log ++ [(.move id move, events)]) next := by
  have step := step_of_step? stepped
  have job : upload.job = call.upload.job := lived.course.1.1
  -- the others are where they were
  have origin : ∀ {other held}, next.call? other = some held →
      (other = id ∧ held = { call with upload := upload }) ∨
      (other ≠ id ∧ all.call? other = some held) := by
    intro other held here
    by_cases own : other = id
    · subst own
      exact .inl ⟨rfl, Option.some.inj (here.symm.trans there)⟩
    · exact .inr ⟨own, step.move_other own here⟩
  have before : ∀ {other held}, next.call? other = some held →
      ∃ old, all.call? other = some old ∧ old.upload.job = held.upload.job := by
    intro other held here
    rcases origin here with ⟨rfl, rfl⟩ | ⟨_, still⟩
    · exact ⟨call, found, job.symm⟩
    · exact ⟨held, still, rfl⟩
  constructor
  · exact company.fresh
  · exact company.run.step trivial stepped
  · intro one other held kept here here' same
    obtain ⟨old, was, job⟩ := before here
    obtain ⟨old', was', job'⟩ := before here'
    exact company.apart one other old old' was was' (by rw [job, job', same])
  · intro other held here
    rcases origin here with ⟨_, rfl⟩ | ⟨_, still⟩
    · exact lived.awake
    · exact company.awake other held still
  · intro other held here
    rw [movesOf_snoc]
    rcases origin here with ⟨rfl, rfl⟩ | ⟨apart, still⟩
    · rw [job]
      simpa [UploaderAct.moveOf?] using lived.meets
    · simpa [UploaderAct.moveOf?, Ne.symm apart] using company.meets other held still
  · intro entry member
    rcases List.mem_append.mp member with earlier | now
    · exact company.heard entry earlier
    · rw [List.mem_singleton.mp now]
      intro ended seen
      refine lived.heard ended ?_
      rw [List.filterMap_append]
      exact List.mem_append_right _ seen

section Two

variable {first' all' : Uploaders} {log' : Log} {id' : Nat} {call' : SaveCall}

/-- As long as there is a slot for everybody, a call goes on until it rests, if it has its answer in
another company. -/
theorem Company.goes_on (company : Company around first log all)
    (other : Company around first' log' all') (found : all.call? id = some call)
    (found' : all'.call? id' = some call') (same : call'.upload.job = call.upload.job)
    (answered : call'.upload.result.isSome = true) (restless : call.upload.isAtRest = false)
    (used : all.limiterOf? call.uploader = some place)
    (there : all.limiters[place]? = some limiter)
    (room : (all.unanswered place).length ≤ limiter.max) :
    ∃ move next events, all.step? (.move id move) = some (next, events) ∧
      Company around first (log ++ [(.move id move, events)]) next := by
  have one := company.lived found
  obtain ⟨move, upload, events, stepped, lived⟩ :=
    one.goes_on (same ▸ other.lived found') answered restless
  have admitted : move = .enter → id ∈ limiter.holders := by
    rintro rfl
    refine company.run.slot company.fresh found ?_ one.awake used there room
    obtain ⟨_, here⟩ := one.course.1
    cases one.answer_step stepped with
    | entered stage =>
      simp only [stage] at here
      exact here.2
    | dispatched _ step => cases step
  obtain ⟨next, made, here⟩ :=
    step_of_upload found (limiter?_of_place used there) admitted stepped
  exact ⟨move, next, events, made, company.step found made here lived⟩

end Two

end Company

end Uploaders

end ChunkedUpload
