import ChunkedUpload.Proofs.Upload.Background
import ChunkedUpload.Proofs.Uploaders.Numbers

/-! Resends and those who wait for them. A resend is put down with its uploader when its call has
its answer, and the next wait on that uploader takes over all that are put down there. So a resend
is held by one wait, or by none as long as none has come. -/
namespace ChunkedUpload

namespace Uploaders

/-- A process in which nobody has called and nobody has waited yet. -/
structure Unused (all : Uploaders) : Prop where
  calls : all.calls = []
  waits : all.waits = []
  resends : ∀ u ∈ all.uploaders, u.resends = []

/-- The resends that the waits on an uploader have taken over. -/
def drains (all : Uploaders) (uploader : Nat) : List Nat :=
  all.waits.flatMap fun entry => if entry.2.uploader = uploader then entry.2.drains else []

/-- The resends on an uploader that no wait has taken over yet. -/
def pending (all : Uploaders) (uploader : Nat) : List Nat :=
  (all.uploaders[uploader]?.map Uploader.resends).getD []

/-- What the waits on an uploader have returned. -/
def returned (all : Uploaders) (uploader : Nat) : List PoolSummary :=
  all.waits.filterMap fun entry => if entry.2.uploader = uploader then entry.2.result else none

/-- The resends on an uploader: the calls that have queued a part that was to be sent again. -/
def resent (all : Uploaders) (uploader : Nat) : List Nat :=
  (all.calls.filter fun entry =>
    entry.2.uploader == uploader && queuedResend entry.2.upload).map Prod.fst

/-- Whether a call is one of them. -/
def IsResend (all : Uploaders) (uploader id : Nat) : Prop :=
  ∃ call, all.call? id = some call ∧ call.uploader = uploader ∧ queuedResend call.upload = true

/-- Every resend is in one place: with a wait, or still with its uploader. -/
structure Accounted (all : Uploaders) (uploader : Nat) : Prop where
  once : (all.drains uploader ++ all.pending uploader).Nodup
  resends : ∀ id, id ∈ all.drains uploader ++ all.pending uploader ↔ all.IsResend uploader id

variable {first all next : Uploaders} {log : Log} {events : List Event}
  {id other uploader place : Nat} {call : SaveCall} {upload : Upload} {wait : ResendWait}

theorem isResend_congr (same : next.calls = all.calls) :
    next.IsResend uploader id ↔ all.IsResend uploader id := by
  rw [IsResend, call?_congr same, IsResend]

theorem isResend_addCall (new : all.call? id = none) (place : Nat) (job : UploadJob)
    (cancelled : Bool) : (all.addCall id place job cancelled).IsResend uploader other ↔
      all.IsResend uploader other := by
  rw [IsResend, call?_addCall, IsResend]
  by_cases same : other = id
  · subst same
    simp [new, queuedResend, Upload.begin]
  · rw [if_neg same, Option.or_none]

theorem isResend_setCall (found : all.call? id = some call) :
    (all.setCall id { call with upload := upload }).IsResend uploader other ↔
      if other = id then call.uploader = uploader ∧ queuedResend upload = true
      else all.IsResend uploader other := by
  rw [IsResend, call?_setCall]
  by_cases own : other = id
  · subst own
    simp [found]
  · rw [if_neg own, if_neg own, IsResend]

theorem isResend_moved (found : all.call? id = some call)
    (same : queuedResend upload = queuedResend call.upload) :
    (all.setCall id { call with upload := upload }).IsResend uploader other ↔
      all.IsResend uploader other := by
  rw [isResend_setCall found]
  by_cases own : other = id
  · subst own
    simp [IsResend, found, same]
  · rw [if_neg own]

/-- A step that puts no resend down, and at most passes some on to a wait. -/
theorem Accounted.same (accounted : all.Accounted uploader)
    (whole : next.drains uploader ++ next.pending uploader =
      all.drains uploader ++ all.pending uploader)
    (resends : ∀ id, next.IsResend uploader id ↔ all.IsResend uploader id) :
    next.Accounted uploader := by
  constructor
  · rw [whole]
    exact accounted.once
  · intro id
    rw [whole, resends]
    exact accounted.resends id

theorem Unused.accounted (unused : first.Unused) (uploader : Nat) : first.Accounted uploader := by
  have untaken : first.drains uploader = [] := by rw [drains, unused.waits, List.flatMap_nil]
  have unpending : first.pending uploader = [] := by
    rw [pending]
    cases found : first.uploaders[uploader]? with
    | none => rfl
    | some u => exact unused.resends u (List.mem_of_getElem? found)
  constructor
  · rw [untaken, unpending]
    exact List.nodup_nil
  · intro id
    rw [untaken, unpending, IsResend, call?, unused.calls]
    simp

theorem drains_congr (same : next.waits = all.waits) :
    next.drains uploader = all.drains uploader := by
  rw [drains, same, drains]

theorem pending_congr (same : next.uploaders = all.uploaders) :
    next.pending uploader = all.pending uploader := by
  rw [pending, same, pending]

theorem pending_updateUploader {f : Uploader → Uploader} {g : List Nat → List Nat}
    (changed : ∀ u, (f u).resends = g u.resends)
    (there : (all.uploaders[place]?).isSome = true) :
    (all.updateUploader place f).pending uploader =
      if place = uploader then g (all.pending uploader) else all.pending uploader := by
  simp only [pending, updateUploader, List.getElem?_modify]
  by_cases here : place = uploader
  · subst here
    obtain ⟨u, found⟩ := Option.isSome_iff_exists.mp there
    simp [found, changed]
  · simp [here]

theorem pending_settleResult (there : (all.uploaders[call.uploader]?).isSome = true) :
    (all.settleResult id call).pending uploader =
      if queuedResend call.upload = true ∧ call.uploader = uploader then
        all.pending uploader ++ [id]
      else all.pending uploader := by
  unfold settleResult
  dsimp only
  have freed : (all.updateLimiter call.uploader fun limiter => limiter.leave id).pending uploader =
      all.pending uploader := pending_congr (uploaders_updateLimiter _ _ _)
  cases queued : queuedResend call.upload with
  | false => simpa using freed
  | true =>
    have changed := @pending_updateUploader
      (all.updateLimiter call.uploader fun limiter => limiter.leave id) uploader call.uploader
      (fun u => { u with resends := u.resends ++ [id] }) (· ++ [id]) (fun _ => rfl)
      (by rwa [uploaders_updateLimiter])
    simpa [freed] using changed

theorem Accounted.put (accounted : all.Accounted uploader) (new : ¬ all.IsResend uploader id)
    (drains : next.drains uploader = all.drains uploader)
    (pending : next.pending uploader = all.pending uploader ++ [id])
    (resends : ∀ other, next.IsResend uploader other ↔
      all.IsResend uploader other ∨ other = id) : next.Accounted uploader := by
  have whole : next.drains uploader ++ next.pending uploader =
      (all.drains uploader ++ all.pending uploader) ++ [id] := by
    rw [drains, pending, List.append_assoc]
  constructor
  · rw [whole]
    refine List.Nodup.append accounted.once (List.nodup_singleton id) ?_
    rw [List.disjoint_singleton, accounted.resends]
    exact new
  · intro other
    rw [whole, List.mem_append, List.mem_singleton, accounted.resends, resends]

theorem Accounted.answered (accounted : all.Accounted uploader)
    (found : all.call? id = some call) (there : (all.uploaders[call.uploader]?).isSome = true)
    (before : queuedResend call.upload = false) :
    ((all.setCall id { call with upload := upload }).settleResult id
      { call with upload := upload }).Accounted uploader := by
  have drains : ((all.setCall id { call with upload := upload }).settleResult id
      { call with upload := upload }).drains uploader = all.drains uploader :=
    drains_congr (waits_settleResult _ _ _)
  have pending := @pending_settleResult (all.setCall id { call with upload := upload }) id uploader
    { call with upload := upload } there
  have resends : ∀ other, ((all.setCall id { call with upload := upload }).settleResult id
      { call with upload := upload }).IsResend uploader other ↔
      if other = id then call.uploader = uploader ∧ queuedResend upload = true
      else all.IsResend uploader other := fun other =>
    (isResend_congr (calls_settleResult _ _ _)).trans (isResend_setCall found)
  have unsent : ¬ all.IsResend uploader id := by
    rintro ⟨old, there, _, queued⟩
    cases found.symm.trans there
    rw [before] at queued
    contradiction
  by_cases queues : queuedResend upload = true ∧ call.uploader = uploader
  · refine accounted.put unsent drains (pending.trans (if_pos queues)) fun other => ?_
    rw [resends]
    by_cases own : other = id
    · simp [own, queues]
    · simp [own]
  · refine accounted.same (by rw [drains, pending, if_neg queues]; rfl) fun other => ?_
    rw [resends]
    by_cases own : other = id
    · subst own
      rw [if_pos rfl, and_comm]
      exact iff_of_false queues unsent
    · rw [if_neg own]

theorem Accounted.awaited (accounted : all.Accounted uploader) {u : Uploader}
    (found : all.uploaders[place]? = some u) :
    ({ all.updateUploader place fun u => { u with resends := [] } with
      waits := all.waits ++ [(id, ⟨place, u.resends, none⟩)] } : Uploaders).Accounted uploader := by
  have there : (all.uploaders[place]?).isSome = true := by rw [found, Option.isSome_some]
  have pending := @pending_updateUploader all uploader place (fun u => { u with resends := [] })
    (fun _ => []) (fun _ => rfl) there
  refine accounted.same ?_ fun other => Iff.rfl
  change (all.waits ++ [(id, (⟨place, u.resends, none⟩ : ResendWait))]).flatMap _ ++
    (all.updateUploader place _).pending uploader = _
  rw [pending, List.flatMap_append, ← drains, List.flatMap_singleton]
  by_cases here : place = uploader
  · subst here
    have held : all.pending place = u.resends := by
      rw [Uploaders.pending, found, Option.map_some, Option.getD_some]
    rw [if_pos rfl, if_pos rfl, held, List.append_nil]
  · rw [if_neg here, if_neg here, List.append_nil]

theorem drains_setWait (once : (all.waits.map Prod.fst).Nodup) (found : all.wait? id = some wait)
    (result : Option PoolSummary) :
    (all.setWait id { wait with result := result }).drains uploader = all.drains uploader := by
  simp only [drains, setWait, List.flatMap_map]
  refine List.flatMap_congr fun entry member => ?_
  by_cases here : entry.1 = id
  · have same := lookup_of_mem once member
    rw [here] at same
    cases found.symm.trans same
    rw [if_pos here]
  · rw [if_neg here]

/-- A call that moves without getting its answer has queued what it had queued before. -/
theorem Run.queuedResend_moved (run : Run first log all) (calls : first.calls = []) {move : Move}
    (later : Run first (log ++ [(.move id move, events)])
      (all.setCall id { call with upload := upload }))
    (found : all.call? id = some call)
    (stepped : call.upload.step? move = some (upload, events))
    (unchanged : call.upload.result = none → upload.result = none) :
    queuedResend upload = queuedResend call.upload := by
  have answer := run.answer calls found
  cases answered : call.upload.result with
  | none =>
    have there : (all.setCall id { call with upload := upload }).call? id =
        some { call with upload := upload } := by
      rw [call?_setCall, if_pos rfl, found, Option.map_some]
    rw [Upload.unqueued_of_unanswered answer answered,
      Upload.unqueued_of_unanswered (later.answer calls there) (unchanged answered)]
  | some result =>
    exact Upload.queuedResend_of_step (Upload.step_of_step? answer stepped) answer
      (by rw [answered, Option.isSome_some])

theorem Run.accounted (run : Run first log all) (unused : first.Unused) (uploader : Nat) :
    all.Accounted uploader := by
  induction run with
  | start => exact unused.accounted uploader
  | @step log all next act events ran new stepped accounted =>
    have later := ran.step new stepped
    cases step_of_step? stepped with
    | saved id place job =>
      refine accounted.same ?_ fun other =>
        (isResend_congr (calls_updateLimiter _ _ _)).trans (isResend_addCall new place job false)
      rw [drains_congr (waits_updateLimiter _ _ _), pending_congr (uploaders_updateLimiter _ _ _)]
      rfl
    | refused id place job =>
      exact accounted.same rfl fun other => isResend_addCall new place job true
    | moved found _ _ moved unchanged =>
      have same := ran.queuedResend_moved unused.calls later found moved unchanged
      exact accounted.same rfl fun other => isResend_moved found same
    | answered found limited _ _ unanswered =>
      obtain ⟨u, there, _⟩ := Option.bind_eq_some_iff.mp limited
      exact accounted.answered found (by rw [there, Option.isSome_some])
        (Upload.unqueued_of_unanswered (ran.answer unused.calls found) unanswered)
    | awaited found => exact accounted.awaited found
    | settled found =>
      refine accounted.same ?_ fun other => Iff.rfl
      rw [drains_setWait (ran.wait_numbers unused.waits) found]
      rfl

theorem Run.mem_resent (run : Run first log all) (unused : first.Unused) :
    id ∈ all.resent uploader ↔ all.IsResend uploader id := by
  rw [resent, List.mem_map]
  constructor
  · rintro ⟨⟨_, call⟩, member, rfl⟩
    obtain ⟨there, kind⟩ := List.mem_filter.mp member
    rw [Bool.and_eq_true, beq_iff_eq] at kind
    exact ⟨call, (run.mem_calls unused.calls).mp there, kind.1, kind.2⟩
  · rintro ⟨call, found, rfl, queued⟩
    refine ⟨(id, call), List.mem_filter.mpr ⟨(run.mem_calls unused.calls).mpr found, ?_⟩, rfl⟩
    simpa using queued

end Uploaders

end ChunkedUpload
