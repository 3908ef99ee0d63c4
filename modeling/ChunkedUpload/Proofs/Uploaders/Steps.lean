import ChunkedUpload.Uploaders
import ChunkedUpload.Proofs.Upload.Standing

/-! The steps of all uploads of a process. A step makes a new call, moves one call, or concerns
those who wait for resends; what it does to the calls, to the limiters and to the uploaders is told
apart from the others. -/
namespace ChunkedUpload

namespace Uploaders

variable {all next : Uploaders} {id other uploader : Nat} {call : SaveCall}

@[simp] theorem calls_updateLimiter (all : Uploaders) (uploader : Nat)
    (f : Admission → Admission) : (all.updateLimiter uploader f).calls = all.calls := by
  unfold updateLimiter
  split <;> rfl

@[simp] theorem uploaders_updateLimiter (all : Uploaders) (uploader : Nat)
    (f : Admission → Admission) : (all.updateLimiter uploader f).uploaders = all.uploaders := by
  unfold updateLimiter
  split <;> rfl

@[simp] theorem waits_updateLimiter (all : Uploaders) (uploader : Nat)
    (f : Admission → Admission) : (all.updateLimiter uploader f).waits = all.waits := by
  unfold updateLimiter
  split <;> rfl

theorem limiters_updateLimiter {u : Uploader} (found : all.uploaders[uploader]? = some u)
    (f : Admission → Admission) :
    (all.updateLimiter uploader f).limiters = all.limiters.modify u.limiter f := by
  rw [updateLimiter, found]

theorem updateLimiter_of_none (missing : all.uploaders[uploader]? = none)
    (f : Admission → Admission) : all.updateLimiter uploader f = all := by
  rw [updateLimiter, missing]

theorem mem_updateLimiter {f : Admission → Admission} {limiter : Admission}
    (member : limiter ∈ (all.updateLimiter uploader f).limiters) :
    ∃ old ∈ all.limiters, limiter = old ∨ limiter = f old := by
  unfold updateLimiter at member
  split at member
  · obtain ⟨place, found⟩ := List.mem_iff_getElem?.mp member
    rw [List.getElem?_modify] at found
    obtain ⟨old, there, rfl⟩ := Option.map_eq_some_iff.mp found
    refine ⟨old, List.mem_of_getElem? there, ?_⟩
    split
    · exact .inr rfl
    · exact .inl rfl
  · exact ⟨limiter, member, .inl rfl⟩

@[simp] theorem calls_settleResult (all : Uploaders) (id : Nat) (call : SaveCall) :
    (all.settleResult id call).calls = all.calls := by
  unfold settleResult
  split <;> simp [updateUploader]

@[simp] theorem waits_settleResult (all : Uploaders) (id : Nat) (call : SaveCall) :
    (all.settleResult id call).waits = all.waits := by
  unfold settleResult
  split <;> simp [updateUploader]

@[simp] theorem limiters_settleResult (all : Uploaders) (id : Nat) (call : SaveCall) :
    (all.settleResult id call).limiters =
      (all.updateLimiter call.uploader fun limiter => limiter.leave id).limiters := by
  unfold settleResult
  split <;> rfl

/-- The limiter of an uploader, by its place. -/
def limiterOf? (all : Uploaders) (uploader : Nat) : Option Nat :=
  all.uploaders[uploader]?.map Uploader.limiter

theorem limiterOf?_updateUploader (all : Uploaders) (uploader other : Nat)
    {f : Uploader → Uploader} (same : ∀ u, (f u).limiter = u.limiter) :
    (all.updateUploader uploader f).limiterOf? other = all.limiterOf? other := by
  simp only [limiterOf?, updateUploader, List.getElem?_modify]
  cases all.uploaders[other]? with
  | none => rfl
  | some u =>
    by_cases here : uploader = other
    · simp [here, same]
    · simp [here]

theorem limiterOf?_settleResult (all : Uploaders) (id other : Nat) (call : SaveCall) :
    (all.settleResult id call).limiterOf? other = all.limiterOf? other := by
  unfold settleResult
  split
  · rw [limiterOf?_updateUploader]
    · simp [limiterOf?]
    · exact fun _ => rfl
  · simp [limiterOf?]

theorem lookup_map_set {α : Type} (entries : List (Nat × α)) (id other : Nat) (value : α) :
    (entries.map fun entry => if entry.1 = id then (id, value) else entry).lookup other =
      if other = id then (entries.lookup other).map fun _ => value else entries.lookup other := by
  induction entries with
  | nil => simp
  | cons entry rest ih =>
    obtain ⟨key, old⟩ := entry
    rw [List.map_cons, List.lookup_cons]
    cases same : other == key with
    | true =>
      obtain rfl : other = key := by simpa using same
      by_cases here : other = id
      · subst here
        simp
      · simp [here]
    | false =>
      by_cases here : key = id
      · subst here
        rw [if_pos rfl, List.lookup_cons, same]
        exact ih
      · rw [if_neg here, List.lookup_cons, same]
        exact ih

theorem lookup_snoc {α : Type} (entries : List (Nat × α)) (id other : Nat) (value : α) :
    (entries ++ [(id, value)]).lookup other =
      (entries.lookup other).or (if other = id then some value else none) := by
  rw [List.lookup_append, List.lookup_cons, List.lookup_nil]
  by_cases same : other = id
  · simp [same]
  · have differs : (other == id) = false := by simpa using same
    simp [same, differs]

/-- The process with one more call. -/
def addCall (all : Uploaders) (id uploader : Nat) (job : UploadJob) (cancelled : Bool) :
    Uploaders :=
  { all with calls := all.calls ++ [(id, ⟨uploader, Upload.begin job cancelled⟩)] }

theorem call?_addCall (all : Uploaders) (id uploader other : Nat) (job : UploadJob)
    (cancelled : Bool) : (all.addCall id uploader job cancelled).call? other =
      (all.call? other).or
        (if other = id then some ⟨uploader, Upload.begin job cancelled⟩ else none) :=
  lookup_snoc _ _ _ _

theorem call?_setCall (all : Uploaders) (id other : Nat) (call : SaveCall) :
    (all.setCall id call).call? other =
      if other = id then (all.call? other).map fun _ => call else all.call? other :=
  lookup_map_set _ _ _ _

theorem call?_congr (same : next.calls = all.calls) (id : Nat) : next.call? id = all.call? id := by
  rw [call?, same, call?]

/-- One step of the process. -/
inductive Step (all : Uploaders) : UploaderAct → List Event → Uploaders → Prop
  | saved (id uploader : Nat) (job : UploadJob) :
      Step all (.save id uploader job false) []
        ((all.addCall id uploader job false).updateLimiter uploader fun limiter =>
          limiter.request id)
  | refused (id uploader : Nat) (job : UploadJob) :
      Step all (.save id uploader job true) [] (all.addCall id uploader job true)
  | moved {id : Nat} {move : Move} {call : SaveCall} {limiter : Admission} {upload : Upload}
      {events : List Event} (found : all.call? id = some call)
      (limited : all.limiter? call.uploader = some limiter)
      (admitted : move = .enter → id ∈ limiter.holders)
      (stepped : call.upload.step? move = some (upload, events))
      (unchanged : call.upload.result = none → upload.result = none) :
      Step all (.move id move) events (all.setCall id { call with upload := upload })
  | answered {id : Nat} {move : Move} {call : SaveCall} {limiter : Admission} {upload : Upload}
      {events : List Event} (found : all.call? id = some call)
      (limited : all.limiter? call.uploader = some limiter)
      (admitted : move = .enter → id ∈ limiter.holders)
      (stepped : call.upload.step? move = some (upload, events))
      (unanswered : call.upload.result = none) (answered : upload.result.isSome = true) :
      Step all (.move id move) events ((all.setCall id { call with upload := upload }).settleResult
        id { call with upload := upload })
  | awaited {id uploader : Nat} {u : Uploader} (found : all.uploaders[uploader]? = some u) :
      Step all (.await id uploader) [] { all.updateUploader uploader fun u => { u with
        resends := [] } with waits := all.waits ++ [(id, ⟨uploader, u.resends, none⟩)] }
  | settled {id : Nat} {wait : ResendWait} {total : PoolSummary}
      (found : all.wait? id = some wait) (unsettled : wait.result = none)
      (ended : all.totals? wait.drains = some total) :
      Step all (.settle id) [] (all.setWait id { wait with result := some total })

theorem step_of_move {id : Nat} {move : Move} {call : SaveCall} {limiter : Admission}
    {events : List Event} (found : all.call? id = some call)
    (limited : all.limiter? call.uploader = some limiter)
    (admitted : move = .enter → id ∈ limiter.holders)
    (stepped : ((call.upload.step? move).bind fun (upload, seen) =>
      let moved : SaveCall := { call with upload := upload }
      let next := all.setCall id moved
      pure (if call.upload.result.isNone && upload.result.isSome then next.settleResult id moved
        else next, seen)) = some (next, events)) : Step all (.move id move) events next := by
  obtain ⟨⟨upload, seen⟩, stepped, eq⟩ := Option.bind_eq_some_iff.mp stepped
  cases eq
  split
  · rename_i both
    simp only [Bool.and_eq_true, Option.isNone_iff_eq_none] at both
    exact .answered found limited admitted stepped both.1 both.2
  · rename_i one
    simp only [Bool.and_eq_true, Option.isNone_iff_eq_none, not_and, Bool.not_eq_true,
      Option.isSome_eq_false_iff] at one
    exact .moved found limited admitted stepped one

/-- Conversely, a call that holds what it needs can make any move of its upload. -/
theorem step?_move {id : Nat} {move : Move} {call : SaveCall} {limiter : Admission}
    {upload : Upload} {events : List Event} (found : all.call? id = some call)
    (limited : all.limiter? call.uploader = some limiter)
    (admitted : move = .enter → id ∈ limiter.holders)
    (stepped : call.upload.step? move = some (upload, events)) :
    all.step? (.move id move) =
      some (if call.upload.result.isNone && upload.result.isSome then
          (all.setCall id { call with upload := upload }).settleResult id
            { call with upload := upload }
        else all.setCall id { call with upload := upload }, events) := by
  cases move with
  | enter =>
    have holds : limiter.holds id = true := by simpa [Admission.holds] using admitted rfl
    simp [step?, found, limited, stepped, holds]
  | _ => simp [step?, found, limited, stepped]

theorem step_of_step? {act : UploaderAct} {events : List Event}
    (stepped : all.step? act = some (next, events)) : Step all act events next := by
  cases act with
  | save id uploader job cancelled =>
    cases cancelled with
    | false =>
      cases stepped
      exact .saved id uploader job
    | true =>
      cases stepped
      exact .refused id uploader job
  | move id move =>
    simp only [step?, Option.bind_eq_bind, Option.bind_eq_some_iff] at stepped
    obtain ⟨call, found, limiter, limited, later⟩ := stepped
    split at later
    · split at later
      · nomatch later
      · rename_i held
        refine step_of_move found limited (fun _ => ?_) later
        simpa [Admission.holds] using held
    · rename_i other
      exact step_of_move found limited (fun entering => absurd entering other) later
  | await id uploader =>
    simp only [step?, Option.bind_eq_bind, Option.bind_eq_some_iff] at stepped
    obtain ⟨u, found, eq⟩ := stepped
    cases eq
    exact .awaited found
  | settle id =>
    simp only [step?, Option.bind_eq_bind, Option.bind_eq_some_iff] at stepped
    obtain ⟨wait, found, later⟩ := stepped
    split at later
    · nomatch later
    · rename_i unsettled
      obtain ⟨total, ended, eq⟩ := Option.bind_eq_some_iff.mp later
      cases eq
      exact .settled found (by simpa using unsettled) ended

end Uploaders

end ChunkedUpload
