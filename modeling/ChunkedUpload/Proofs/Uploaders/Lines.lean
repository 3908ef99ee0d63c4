import ChunkedUpload.Proofs.Uploaders.Runs

/-! The lines of the limiters. Whoever stands in one is a call that has no answer yet and whose
uploader uses that limiter, so a call that has its answer has left. -/
namespace ChunkedUpload

namespace Uploaders

/-- A process in which nobody has called yet. -/
structure Fresh (all : Uploaders) : Prop where
  calls : all.calls = []
  limiters : ∀ limiter ∈ all.limiters, ∃ slots, Admission.make? slots = some limiter

/-- The limiter at this place is in order, and only its own calls stand in its line. -/
def Lined (all : Uploaders) (place : Nat) (limiter : Admission) : Prop :=
  limiter.Sound ∧ ∀ id ∈ limiter.line, ∃ call, all.call? id = some call ∧
    call.upload.result = none ∧ all.limiterOf? call.uploader = some place

def Ordered (all : Uploaders) : Prop :=
  ∀ place limiter, all.limiters[place]? = some limiter → all.Lined place limiter

variable {first all next : Uploaders} {log : Log} {act : UploaderAct} {events : List Event}
  {place id uploader : Nat} {limiter : Admission} {call : SaveCall}

theorem Fresh.ordered (fresh : first.Fresh) : first.Ordered := by
  intro place limiter found
  obtain ⟨slots, made⟩ := fresh.limiters limiter (List.mem_of_getElem? found)
  obtain ⟨sound, nobody⟩ := Admission.make?_sound made
  exact ⟨sound, by simp [nobody]⟩

/-- A step that changes no limiter, and gives no answer to those in its line. -/
theorem Lined.keep (lined : all.Lined place limiter)
    (kept : ∀ id ∈ limiter.line, ∀ call, all.call? id = some call → call.upload.result = none →
      ∃ upload, next.call? id = some { call with upload := upload } ∧ upload.result = none)
    (same : ∀ uploader, next.limiterOf? uploader = all.limiterOf? uploader) :
    next.Lined place limiter := by
  refine ⟨lined.1, fun id member => ?_⟩
  obtain ⟨call, found, unanswered, here⟩ := lined.2 id member
  obtain ⟨upload, there, still⟩ := kept id member call found unanswered
  exact ⟨_, there, still, (same _).trans here⟩

theorem Lined.request (lined : all.Lined place limiter) (new : all.call? id = none) :
    (limiter.request id).Sound ∧ (limiter.request id).line = limiter.line ++ [id] := by
  refine ⟨lined.1.request fun member => ?_, limiter.line_request id⟩
  obtain ⟨call, found, _⟩ := lined.2 id member
  rw [new] at found
  contradiction

theorem limiterOf?_congr (same : next.uploaders = all.uploaders) (uploader : Nat) :
    next.limiterOf? uploader = all.limiterOf? uploader := by
  rw [limiterOf?, same, limiterOf?]

theorem ordered_addCall (ordered : all.Ordered) (id uploader : Nat) (job : UploadJob)
    (cancelled : Bool) : (all.addCall id uploader job cancelled).Ordered := by
  intro place limiter found
  refine (ordered place limiter found).keep (fun other _ call there unanswered => ?_) fun _ => rfl
  exact ⟨call.upload, by rw [call?_addCall, there, Option.some_or], unanswered⟩

theorem ordered_setCall (ordered : all.Ordered) {upload : Upload}
    (found : all.call? id = some call) (kept : call.upload.result = none → upload.result = none) :
    (all.setCall id { call with upload := upload }).Ordered := by
  intro place limiter here
  refine (ordered place limiter here).keep (fun other _ old there unanswered => ?_) fun _ => rfl
  rw [call?_setCall]
  by_cases same : other = id
  · subst same
    cases found.symm.trans there
    exact ⟨upload, by simp [found], kept unanswered⟩
  · exact ⟨old.upload, by rw [if_neg same, there], unanswered⟩

theorem ordered_saved (ordered : all.Ordered) (new : all.call? id = none) (uploader : Nat)
    (job : UploadJob) : ((all.addCall id uploader job false).updateLimiter uploader fun limiter =>
      limiter.request id).Ordered := by
  have added := ordered_addCall ordered id uploader job false
  cases used : all.uploaders[uploader]? with
  | none =>
    have used' : (all.addCall id uploader job false).uploaders[uploader]? = none := used
    rw [updateLimiter_of_none used']
    exact added
  | some u =>
    have used' : (all.addCall id uploader job false).uploaders[uploader]? = some u := used
    intro place limiter found
    rw [limiters_updateLimiter used', List.getElem?_modify] at found
    obtain ⟨before, there, eq⟩ := Option.map_eq_some_iff.mp found
    have lined : ((all.addCall id uploader job false).updateLimiter uploader fun limiter =>
        limiter.request id).Lined place before :=
      (added place before there).keep
        (fun other _ call there unanswered => ⟨call.upload, by
          rwa [call?_congr (calls_updateLimiter _ _ _)], unanswered⟩)
        (limiterOf?_congr (uploaders_updateLimiter _ _ _))
    by_cases here : u.limiter = place
    · rw [if_pos here] at eq
      subst eq
      obtain ⟨sound, line⟩ := (ordered place before there).request new
      refine ⟨sound, fun other member => ?_⟩
      rw [line, List.mem_append, List.mem_singleton] at member
      rcases member with earlier | rfl
      · exact lined.2 other earlier
      · refine ⟨⟨uploader, Upload.begin job false⟩, ?_, rfl, ?_⟩
        · rw [call?_congr (calls_updateLimiter _ _ _), call?_addCall, new, Option.none_or,
            if_pos rfl]
        · rw [limiterOf?_congr (uploaders_updateLimiter _ _ _), limiterOf?, used', ← here]
          rfl
    · rw [if_neg here] at eq
      subst eq
      exact lined

theorem ordered_answered (ordered : all.Ordered) {upload : Upload}
    (found : all.call? id = some call) (limited : all.limiter? call.uploader = some limiter) :
    ((all.setCall id { call with upload := upload }).settleResult id
      { call with upload := upload }).Ordered := by
  obtain ⟨u, used, _⟩ := Option.bind_eq_some_iff.mp limited
  have used' : (all.setCall id { call with upload := upload }).uploaders[call.uploader]? =
    some u := used
  intro place limiter there
  rw [limiters_settleResult, limiters_updateLimiter used', List.getElem?_modify] at there
  obtain ⟨before, here, eq⟩ := Option.map_eq_some_iff.mp there
  have lined := ordered place before here
  -- whoever else stands in the line is untouched
  have others : ∀ other ∈ before.line, other ≠ id →
      ∃ old, ((all.setCall id { call with upload := upload }).settleResult id
          { call with upload := upload }).call? other = some old ∧ old.upload.result = none ∧
        ((all.setCall id { call with upload := upload }).settleResult id
          { call with upload := upload }).limiterOf? old.uploader = some place := by
    intro other member apart
    obtain ⟨old, stands, unanswered, its⟩ := lined.2 other member
    refine ⟨old, ?_, unanswered, ?_⟩
    · rw [call?_congr (calls_settleResult _ _ _), call?_setCall, if_neg apart, stands]
    · rw [limiterOf?_settleResult]
      exact its
  by_cases same : u.limiter = place
  · rw [if_pos same] at eq
    subst eq
    obtain ⟨sound, line⟩ := lined.1.leave id
    refine ⟨sound, fun other member => ?_⟩
    rw [line] at member
    refine others other (List.mem_of_mem_erase member) ?_
    rintro rfl
    exact lined.1.once.not_mem_erase member
  · rw [if_neg same] at eq
    subst eq
    refine ⟨lined.1, fun other member => others other member ?_⟩
    rintro rfl
    obtain ⟨old, stands, _, its⟩ := lined.2 other member
    cases found.symm.trans stands
    rw [limiterOf?, used] at its
    exact same (Option.some.inj its)

theorem step_ordered (ordered : all.Ordered) (fresh : act.IsNew all)
    (step : Step all act events next) : next.Ordered := by
  cases step with
  | saved id uploader job => exact ordered_saved ordered fresh uploader job
  | refused id uploader job => exact ordered_addCall ordered id uploader job true
  | moved found _ _ _ unchanged => exact ordered_setCall ordered found unchanged
  | answered found limited => exact ordered_answered ordered found limited
  | awaited =>
    intro place limiter there
    refine (ordered place limiter there).keep (fun _ _ call found unanswered =>
      ⟨call.upload, found, unanswered⟩) fun other => ?_
    exact limiterOf?_updateUploader all _ other fun _ => rfl
  | settled =>
    intro place limiter there
    exact (ordered place limiter there).keep (fun _ _ call found unanswered =>
      ⟨call.upload, found, unanswered⟩) fun _ => rfl

theorem Run.ordered (run : Run first log all) (ordered : first.Ordered) : all.Ordered := by
  induction run with
  | start => exact ordered
  | step _ fresh stepped ih => exact step_ordered ih fresh (step_of_step? stepped)

theorem Ordered.left (ordered : all.Ordered) (found : all.call? id = some call)
    (answered : call.upload.result ≠ none) (member : limiter ∈ all.limiters) :
    id ∉ limiter.line := by
  intro stands
  obtain ⟨place, here⟩ := List.mem_iff_getElem?.mp member
  obtain ⟨old, there, unanswered, _⟩ := (ordered place limiter here).2 id stands
  cases found.symm.trans there
  exact answered unanswered

/-- Only a new call that was not cancelled beforehand gets into a line. -/
theorem Step.line (step : Step all act events next) (member : limiter ∈ next.limiters)
    (stands : id ∈ limiter.line) : (∃ before ∈ all.limiters, id ∈ before.line) ∨
      ∃ uploader job, act = .save id uploader job false := by
  cases step with
  | saved new uploader job =>
    obtain ⟨old, there, rfl | rfl⟩ := mem_updateLimiter member
    · exact .inl ⟨_, there, stands⟩
    · rw [Admission.line_request, List.mem_append, List.mem_singleton] at stands
      rcases stands with earlier | rfl
      · exact .inl ⟨old, there, earlier⟩
      · exact .inr ⟨uploader, job, rfl⟩
  | answered =>
    rw [limiters_settleResult] at member
    obtain ⟨old, there, rfl | rfl⟩ := mem_updateLimiter member
    · exact .inl ⟨_, there, stands⟩
    · exact .inl ⟨old, there, Admission.mem_line_of_leave stands⟩
  | refused | moved | awaited | settled => exact .inl ⟨limiter, member, stands⟩

theorem Run.saved (run : Run first log all) {job : UploadJob} {cancelled : Bool}
    (saved : (.save id uploader job cancelled, events) ∈ log) :
    ∃ call, all.call? id = some call := by
  induction run with
  | start => cases saved
  | @step log all next act seen ran fresh stepped ih =>
    have step := step_of_step? stepped
    rcases List.mem_append.mp saved with earlier | now
    · obtain ⟨call, found⟩ := ih earlier
      rcases step.keeps_call found with ⟨_, there⟩ | ⟨_, _, _, _, there, _⟩
      · exact ⟨_, there⟩
      · exact ⟨_, there⟩
    · obtain ⟨rfl, rfl⟩ := Prod.mk.inj (List.mem_singleton.mp now)
      have missing : all.call? id = none := fresh
      cases step with
      | saved =>
        refine ⟨⟨uploader, Upload.begin job false⟩, ?_⟩
        rw [call?_congr (calls_updateLimiter _ _ _), call?_addCall, missing, Option.none_or,
          if_pos rfl]
      | refused =>
        refine ⟨⟨uploader, Upload.begin job true⟩, ?_⟩
        rw [call?_addCall, missing, Option.none_or, if_pos rfl]

/-- A call that was cancelled before it began never stands in a line. -/
theorem Run.unlined (run : Run first log all) (fresh : first.Fresh) {job : UploadJob}
    (saved : (.save id uploader job true, events) ∈ log) :
    ∀ limiter ∈ all.limiters, id ∉ limiter.line := by
  induction run with
  | start => cases saved
  | @step log all next act seen ran new stepped ih =>
    intro limiter member stands
    have step := step_of_step? stepped
    rcases step.line member stands with ⟨before, there, stood⟩ | ⟨_, _, rfl⟩
    · rcases List.mem_append.mp saved with earlier | now
      · exact ih earlier before there stood
      · obtain ⟨rfl, rfl⟩ := Prod.mk.inj (List.mem_singleton.mp now)
        obtain ⟨place, here⟩ := List.mem_iff_getElem?.mp there
        obtain ⟨call, found, _⟩ := (ran.ordered fresh.ordered place before here).2 id stood
        have missing : all.call? id = none := new
        rw [found] at missing
        contradiction
    · rcases List.mem_append.mp saved with earlier | now
      · obtain ⟨call, found⟩ := ran.saved earlier
        have missing : all.call? id = none := new
        rw [found] at missing
        contradiction
      · simp at now

end Uploaders

end ChunkedUpload
