import ChunkedUpload.Proofs.Admission.History
import ChunkedUpload.Proofs.Upload.Loss
import ChunkedUpload.Proofs.Uploaders.Lines
import ChunkedUpload.Proofs.Uploaders.Numbers

/-! The slots of the limiters while calls come, run and end. A call that has come past its admission
holds a slot until it has its answer, whatever the answer is, so no more calls run at one time than
there are slots, and when all have ended every slot is free. -/
namespace ChunkedUpload

/-- Whether a call is past its admission and has no answer yet. -/
def Upload.isRunning (upload : Upload) : Bool :=
  upload.result.isNone && match upload.stage with
    | .waiting => false
    | _ => true

namespace Admission

variable {limiter : Admission} {id other : Nat}

theorem mem_holders_settle (holds : id ∈ limiter.holders) : id ∈ limiter.settle.holders :=
  List.mem_append_left _ holds

theorem mem_holders_leave (holds : id ∈ limiter.holders) (apart : id ≠ other) :
    id ∈ (limiter.leave other).holders := by
  unfold leave cancel release
  split
  · exact mem_holders_settle (mem_holders_settle ((List.mem_erase_of_ne apart).mpr holds))
  · exact mem_holders_settle holds

end Admission

theorem Dispatch.unanswered_of_step {job : UploadJob} {dispatch after : Dispatch} {move : Move}
    {events : List Event} (step : Step job dispatch move events after)
    (unanswered : after.result? job = none) : dispatch.result? job = none := by
  by_cases inner : move ≠ .enqueue ∧ move ≠ .notify ∧ move ≠ .join
  · rw [← result?_of_step step inner]
    exact unanswered
  · cases step with
    | refused phase | queued phase | resent phase | notified phase | deserted phase =>
      simp [result?, phase]
    | joined => cases unanswered
    | _ => simp at inner

namespace Upload

variable {upload next : Upload} {move : Move} {events : List Event}

theorem running_of_step (step : Step upload move events next) (running : next.isRunning = true)
    (answer : ∀ dispatch, upload.stage = .dispatching dispatch →
      upload.result = dispatch.result? upload.job) :
    upload.isRunning = true ∨ move = .enter := by
  cases step with
  | cancelled => exact .inl running
  | entered => exact .inr rfl
  | withdrawn | unopened | unplanned | unlocated | unconnected => cases running
  | opened stage | located stage | connected stage =>
    left
    simpa [isRunning, stage] using running
  | dispatched stage step =>
    left
    simp only [isRunning, Bool.and_true, Option.isNone_iff_eq_none] at running
    simp [isRunning, stage, answer _ stage, Dispatch.unanswered_of_step step running]

end Upload

namespace Uploaders

/-- The calls that run on the uploaders of one limiter. -/
def running (all : Uploaders) (place : Nat) : List Nat :=
  (all.calls.filter fun entry =>
    entry.2.upload.isRunning && all.limiterOf? entry.2.uploader == some place).map Prod.fst

variable {first all next : Uploaders} {log : Log} {act : UploaderAct} {events : List Event}
  {id place : Nat} {limiter : Admission} {call : SaveCall}

theorem Step.limiterOf? (step : Step all act events next) (uploader : Nat) :
    next.limiterOf? uploader = all.limiterOf? uploader := by
  cases step with
  | saved => exact limiterOf?_congr (uploaders_updateLimiter _ _ _) uploader
  | refused | moved | settled => rfl
  | answered => exact limiterOf?_settleResult _ _ _ _
  | awaited => exact limiterOf?_updateUploader all _ uploader fun _ => rfl

theorem max_updateLimiter (all : Uploaders) (uploader : Nat) {f : Admission → Admission}
    (same : ∀ limiter, (f limiter).max = limiter.max) :
    (all.updateLimiter uploader f).limiters.map Admission.max =
      all.limiters.map Admission.max := by
  unfold updateLimiter
  split
  · rename_i u _
    refine List.ext_getElem? fun place => ?_
    rw [List.getElem?_map, List.getElem?_map, List.getElem?_modify]
    cases all.limiters[place]? with
    | none => rfl
    | some limiter => by_cases here : u.limiter = place <;> simp [here, same]
  · rfl

theorem Step.max (step : Step all act events next) :
    next.limiters.map Admission.max = all.limiters.map Admission.max := by
  cases step with
  | saved => exact max_updateLimiter _ _ fun limiter => limiter.max_request _
  | answered =>
    rw [limiters_settleResult]
    exact max_updateLimiter _ _ fun limiter => limiter.max_leave _
  | refused | moved | awaited | settled => rfl

/-- Whoever runs holds a slot. -/
def Admitted (all : Uploaders) : Prop :=
  ∀ id call, all.call? id = some call → call.upload.isRunning = true →
    ∀ place limiter, all.limiterOf? call.uploader = some place →
      all.limiters[place]? = some limiter → id ∈ limiter.holders

theorem updateLimiter_keeps {P : Admission → Prop} {limiter : Admission} {uploader : Nat}
    {f : Admission → Admission}
    (there : (all.updateLimiter uploader f).limiters[place]? = some limiter)
    (holds : ∀ old, all.limiters[place]? = some old → P old) (kept : ∀ old, P old → P (f old)) :
    P limiter := by
  unfold updateLimiter at there
  split at there
  · rw [List.getElem?_modify] at there
    obtain ⟨old, before, rfl⟩ := Option.map_eq_some_iff.mp there
    split
    · exact kept old (holds old before)
    · exact holds old before
  · exact holds limiter there

/-- The call that moves was running before, or enters with its slot. -/
theorem Run.holds (run : Run first log all) (fresh : first.calls = []) (admitted : all.Admitted)
    {move : Move} {upload : Upload} (found : all.call? id = some call)
    (limited : all.limiter? call.uploader = some limiter)
    (enters : move = .enter → id ∈ limiter.holders)
    (stepped : call.upload.step? move = some (upload, events)) (running : upload.isRunning = true)
    (used : all.limiterOf? call.uploader = some place) {held : Admission}
    (here : all.limiters[place]? = some held) : id ∈ held.holders := by
  have answer := run.answer fresh found
  rcases Upload.running_of_step (Upload.step_of_step? answer stepped) running answer with
    before | entering
  · exact admitted id call found before place held used here
  · obtain ⟨u, there, its⟩ := Option.bind_eq_some_iff.mp limited
    obtain ⟨_, there', rfl⟩ := Option.map_eq_some_iff.mp used
    cases there.symm.trans there'
    cases its.symm.trans here
    exact enters entering

theorem Run.admitted (run : Run first log all) (fresh : first.calls = []) : all.Admitted := by
  induction run with
  | start =>
    intro id call found
    rw [call?, fresh] at found
    contradiction
  | @step log all next act events ran new stepped admitted =>
    have step := step_of_step? stepped
    have same := step.limiterOf?
    -- nobody runs who has just been called
    have begun : ∀ {new uploader : Nat} {job : UploadJob} {cancelled : Bool} {id : Nat}
        {call : SaveCall}, (all.addCall new uploader job cancelled).call? id = some call →
        call.upload.isRunning = true → all.call? id = some call := by
      intro new uploader job cancelled id call found running
      rw [call?_addCall] at found
      cases before : all.call? id with
      | some old => rwa [before, Option.some_or] at found
      | none =>
        rw [before, Option.none_or] at found
        split at found
        · cases found
          contradiction
        · contradiction
    intro id call found running place limiter used there
    rw [same] at used
    cases step with
    | saved number uploader job =>
      rw [call?_congr (calls_updateLimiter _ _ _)] at found
      exact updateLimiter_keeps (P := (id ∈ ·.holders)) there
        (admitted id call (begun found running) running place · used)
        fun old holds => Admission.mem_holders_settle holds
    | refused => exact admitted id call (begun found running) running place limiter used there
    | @moved mover move _ _ _ _ before limited enters moved _ =>
      rw [call?_setCall] at found
      by_cases own : id = mover
      · subst own
        rw [if_pos rfl, before] at found
        cases found
        exact ran.holds fresh admitted before limited enters moved running used there
      · rw [if_neg own] at found
        exact admitted id call found running place limiter used there
    | @answered mover move _ _ _ _ before limited enters moved _ answered =>
      rw [call?_congr (calls_settleResult _ _ _), call?_setCall] at found
      rw [limiters_settleResult] at there
      by_cases own : id = mover
      · -- whoever has an answer runs no longer
        subst own
        rw [if_pos rfl, before] at found
        cases found
        rw [Upload.isRunning, Option.isNone_eq_false_iff.mpr answered] at running
        contradiction
      · rw [if_neg own] at found
        exact updateLimiter_keeps (P := (id ∈ ·.holders)) there
          (admitted id call found running place · used)
          fun old holds => Admission.mem_holders_leave holds own
    | awaited | settled => exact admitted id call found running place limiter used there

theorem Run.max (run : Run first log all) :
    all.limiters.map Admission.max = first.limiters.map Admission.max := by
  induction run with
  | start => rfl
  | step _ _ stepped ih => exact (step_of_step? stepped).max.trans ih

theorem Run.running_nodup (run : Run first log all) (fresh : first.calls = []) (place : Nat) :
    (all.running place).Nodup :=
  (List.filter_sublist.map Prod.fst).nodup (run.numbers fresh)

theorem Run.running_subset (run : Run first log all) (fresh : first.calls = [])
    (there : all.limiters[place]? = some limiter) : all.running place ⊆ limiter.holders := by
  intro id member
  obtain ⟨⟨_, call⟩, entry, rfl⟩ := List.mem_map.mp member
  rw [List.mem_filter, Bool.and_eq_true, beq_iff_eq] at entry
  obtain ⟨here, running, used⟩ := entry
  exact run.admitted fresh _ call ((run.mem_calls fresh).mp here) running place limiter used there

theorem Run.free (run : Run first log all) (fresh : first.Fresh)
    (there : all.limiters[place]? = some limiter)
    (ended : ∀ entry ∈ all.calls, all.limiterOf? entry.2.uploader = some place →
      entry.2.upload.result ≠ none) : limiter.available = limiter.max := by
  obtain ⟨sound, stand⟩ := run.ordered fresh.ordered place limiter there
  have nobody : limiter.holders = [] := by
    refine List.eq_nil_iff_forall_not_mem.mpr fun id holds => ?_
    obtain ⟨call, found, unanswered, used⟩ := stand id (Admission.mem_line.mpr (.inl holds))
    exact ended (id, call) ((run.mem_calls fresh.calls).mpr found) used unanswered
  have slots := sound.slots
  rwa [nobody, List.length_nil, Nat.add_zero] at slots

end Uploaders

open Uploaders in
/-- Slots are neither lost nor made. Of a limiter of any size, and after whatever acts of those who
come under numbers of their own, every slot is held or free, nobody waits while one is free, those
hold slots who were given one and have not given it back, and the slots were given in the order of
arrival, past those who had gone away. So of all calls on uploaders that share a limiter no more run
at a time than it has slots, however they end, and when all of them have ended every slot is
free. -/
theorem slots_conserved :
    (∀ slots ≤ Admission.maxSlots, ∃ first, Admission.make? slots = some first ∧
      ∀ acts last sights, runSteps? Admission.step? first acts = some (last, sights) →
        (sights.filterMap AdmissionSight.arrived?).Nodup →
        last.holders.length + last.available = max slots 1 ∧
        (0 < last.available → last.waiting = []) ∧
        last.holders = (sights.filterMap AdmissionSight.granted?).filter
          (· ∉ sights.filterMap AdmissionSight.released?) ∧
        (sights.filterMap AdmissionSight.arrived?).filter
            (· ∉ sights.filterMap AdmissionSight.withdrawn?) =
          sights.filterMap AdmissionSight.granted? ++ last.waiting) ∧
    ∀ (first all : Uploaders) (log : Log), first.Fresh → Run first log all →
      ∀ (place slots : Nat) (made : Admission), first.limiters[place]? = some made →
        Admission.make? slots = some made →
        ∃ limiter, all.limiters[place]? = some limiter ∧
          limiter.holders.length + limiter.available = max slots 1 ∧
          (0 < limiter.available → limiter.waiting = []) ∧
          all.running place ⊆ limiter.holders ∧
          (all.running place).length ≤ max slots 1 ∧
          ((∀ entry ∈ all.calls, all.limiterOf? entry.2.uploader = some place →
            entry.2.upload.result ≠ none) → limiter.available = max slots 1) := by
  constructor
  · intro slots allowed
    have one : 1 ≤ Admission.maxSlots := by decide
    have few : ¬ Admission.maxSlots < Nat.max slots 1 :=
      Nat.not_lt.mpr (Nat.max_le.mpr ⟨allowed, one⟩)
    refine ⟨_, if_neg few, fun acts last sights run once => ?_⟩
    have told := Admission.run_told (if_neg few) run once
    have counted := told.sound.slots
    have size : last.max = max slots 1 := told.max
    refine ⟨by omega, fun free => ?_, told.held, told.order⟩
    exact told.sound.settled.resolve_left (by omega)
  · intro first all log fresh run place slots made here sized
    have sizes : (all.limiters[place]?).map Admission.max = some (max slots 1) := by
      rw [← List.getElem?_map, run.max, List.getElem?_map, here, Option.map_some,
        (Admission.make?_told sized).max]
    obtain ⟨limiter, there, same⟩ := Option.map_eq_some_iff.mp sizes
    obtain ⟨sound, _⟩ := run.ordered fresh.ordered place limiter there
    have counted := sound.slots
    have subset := run.running_subset fresh.calls there
    have fewer := (List.subperm_of_subset (run.running_nodup fresh.calls place) subset).length_le
    refine ⟨limiter, there, by omega, fun free => ?_, subset, by omega, fun ended => ?_⟩
    · exact sound.settled.resolve_left (by omega)
    · exact (run.free fresh there ended).trans same

/-- The only slot goes past a waiter who has gone away, and from a call that an error has ended to
one on another uploader. -/
theorem one_slot_handed_on :
    let made : Admission := ⟨1, 1, [], []⟩
    let acts : List AdmissionAct := [.acquire 0, .acquire 1, .acquire 2, .leave 1, .release 0]
    let job := plainJob (Stream.ofBytes ⟨#[65]⟩)
    let first : Uploaders := ⟨[made], [⟨0, []⟩, ⟨0, []⟩], [], []⟩
    let log : Uploaders.Log := [(.save 0 0 job false, []), (.save 1 1 job false, []),
      (.move 0 .enter, []), (.move 0 (.openInput FileSystem.empty), [.askedHome]),
      (.move 0 (.locate (.error (.connection "gone"))), []), (.move 1 .enter, [])]
    Admission.make? 1 = some made ∧ 1 ≤ Admission.maxSlots ∧ first.Fresh ∧
    (∃ last sights, runSteps? Admission.step? made acts = some (last, sights) ∧
      (sights.filterMap AdmissionSight.arrived?).Nodup ∧
      sights.filterMap AdmissionSight.granted? ++ last.waiting = [0, 2]) ∧
    ∃ all limiter, Uploaders.Run first log all ∧ all.limiters[0]? = some limiter ∧
      all.running 0 = [1] ∧ all.running 0 ⊆ limiter.holders ∧
      limiter.holders.length + limiter.available = 1 := by
  intro made acts job first log
  have sized : Admission.make? 1 = some made := by decide
  have fresh : first.Fresh := by
    refine ⟨rfl, fun limiter member => ⟨1, ?_⟩⟩
    rw [List.mem_singleton.mp member]
    exact sized
  obtain ⟨alone, together⟩ := slots_conserved
  refine ⟨sized, by decide, fresh, ?_, ?_⟩
  · obtain ⟨start, begins, after⟩ := alone 1 (by decide)
    cases sized.symm.trans begins
    have ran : ((runSteps? Admission.step? made acts).map fun seen =>
        (seen.2.filterMap AdmissionSight.arrived?).filter
          (· ∉ seen.2.filterMap AdmissionSight.withdrawn?)) = some [0, 2] := by decide
    obtain ⟨⟨last, sights⟩, run, came⟩ := Option.map_eq_some_iff.mp ran
    have once : (sights.filterMap AdmissionSight.arrived?).Nodup := by
      cases run
      decide
    obtain ⟨_, _, _, order⟩ := after acts last sights run once
    exact ⟨last, sights, run, once, order.symm.trans came⟩
  · have runs : ∃ all, Uploaders.Run first log all ∧ all.running 0 = [1] :=
      ⟨_, .cons (by rfl) rfl (.cons (by rfl) rfl (.cons trivial rfl (.cons trivial rfl
        (.cons trivial rfl (.cons trivial rfl .start))))), rfl⟩
    obtain ⟨all, run, running⟩ := runs
    obtain ⟨limiter, there, counted, _, subset, _⟩ :=
      together first all log fresh run 0 1 made rfl sized
    exact ⟨all, limiter, run, there, running, subset, counted⟩

end ChunkedUpload
