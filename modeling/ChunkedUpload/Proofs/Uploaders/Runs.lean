import ChunkedUpload.Proofs.Admission
import ChunkedUpload.Proofs.Uploaders.Steps

/-! Runs of all uploads of a process. What happens to one call is a run of its upload; and whoever
stands in the line of a limiter is a call that has no answer yet. -/
namespace ChunkedUpload

/-- Whether an act that begins something begins it under a new number. -/
def UploaderAct.IsNew (all : Uploaders) : UploaderAct → Prop
  | save id _ _ _ => all.call? id = none
  | await id _ => all.wait? id = none
  | _ => True

def UploaderAct.moveOf? (id : Nat) : UploaderAct → Option Move
  | .move other made => if other = id then some made else none
  | _ => none

namespace Uploaders

/-- The acts of a run, each with what was seen of it. -/
abbrev Log := List (UploaderAct × List Event)

def movesOf (id : Nat) (log : Log) : List Move := log.filterMap fun entry => entry.1.moveOf? id

/-- What was seen of one call. -/
def eventsOf (id : Nat) (log : Log) : List Event :=
  log.flatMap fun entry => if (entry.1.moveOf? id).isSome then entry.2 else []

inductive Run (first : Uploaders) : Log → Uploaders → Prop
  | start : Run first [] first
  | step {log : Log} {all next : Uploaders} {act : UploaderAct} {events : List Event}
      (ran : Run first log all) (fresh : act.IsNew all)
      (stepped : all.step? act = some (next, events)) : Run first (log ++ [(act, events)]) next

instance (all : Uploaders) : (act : UploaderAct) → Decidable (act.IsNew all)
  | .save id _ _ _ => decidable_of_iff ((all.call? id).isNone = true) Option.isNone_iff_eq_none
  | .await id _ => decidable_of_iff ((all.wait? id).isNone = true) Option.isNone_iff_eq_none
  | .move _ _ | .settle _ => inferInstanceAs (Decidable True)

/-- One act of a run, computed, with its entry in the log. -/
def logged? (all : Uploaders) (act : UploaderAct) : Option (Uploaders × Log) :=
  if act.IsNew all then (all.step? act).map fun seen => (seen.1, [(act, seen.2)]) else none

theorem run_of_logged {first last : Uploaders} {acts : List UploaderAct} {log : Log}
    (run : runSteps? logged? first acts = some (last, log)) : Run first log last := by
  have kept : StepKeeps logged? (fun past all => Run first past all) fun _ => True := by
    intro past all act next seen ran _ stepped
    unfold logged? at stepped
    split at stepped
    · rename_i fresh
      obtain ⟨⟨_, events⟩, made, eq⟩ := Option.map_eq_some_iff.mp stepped
      cases eq
      exact ran.step fresh made
    · contradiction
  exact run_holds kept acts first last log .start (fun _ _ => trivial) run

section Projection

variable {first mid all next : Uploaders} {log more : Log} {id other : Nat} {act : UploaderAct}
  {events : List Event} {call : SaveCall} {move : Move}

theorem Run.trans (run : Run first log mid) (later : Run mid more all) :
    Run first (log ++ more) all := by
  induction later with
  | start => rwa [List.append_nil]
  | step _ fresh stepped ih =>
    rw [← List.append_assoc]
    exact ih.step fresh stepped

theorem Run.cons (fresh : act.IsNew first) (stepped : first.step? act = some (mid, events))
    (later : Run mid log all) : Run first ((act, events) :: log) all :=
  (Run.start.step fresh stepped).trans later

theorem Run.uncons (run : Run first ((act, events) :: log) all) :
    ∃ mid, act.IsNew first ∧ first.step? act = some (mid, events) ∧ Run mid log all := by
  have front : ∀ {log : Log} {all : Uploaders}, Run first log all → log = [] ∧ all = first ∨
      ∃ act events rest mid, log = (act, events) :: rest ∧ act.IsNew first ∧
        first.step? act = some (mid, events) ∧ Run mid rest all := by
    intro log all run
    induction run with
    | start => exact .inl ⟨rfl, rfl⟩
    | step _ fresh stepped ih =>
      rcases ih with ⟨rfl, rfl⟩ | ⟨_, _, _, mid, rfl, begun, made, later⟩
      · exact .inr ⟨_, _, [], _, rfl, fresh, stepped, .start⟩
      · exact .inr ⟨_, _, _, mid, rfl, begun, made, later.step fresh stepped⟩
  rcases front run with ⟨empty, _⟩ | ⟨_, _, _, mid, eq, fresh, stepped, later⟩
  · cases empty
  · cases eq
    exact ⟨mid, fresh, stepped, later⟩

theorem movesOf_snoc (id : Nat) (log : Log) (act : UploaderAct) (events : List Event) :
    movesOf id (log ++ [(act, events)]) = movesOf id log ++ (act.moveOf? id).toList := by
  rw [movesOf, List.filterMap_append, ← movesOf]
  cases found : act.moveOf? id <;> simp [found]

theorem eventsOf_snoc (id : Nat) (log : Log) (act : UploaderAct) (events : List Event) :
    eventsOf id (log ++ [(act, events)]) =
      eventsOf id log ++ if (act.moveOf? id).isSome then events else [] := by
  simp [eventsOf]

theorem Step.keeps_call (step : Step all act events next) (found : all.call? id = some call) :
    (act.moveOf? id = none ∧ next.call? id = some call) ∨
    ∃ move upload, act = .move id move ∧ call.upload.step? move = some (upload, events) ∧
      next.call? id = some { call with upload := upload } ∧
      ∃ limiter, all.limiter? call.uploader = some limiter ∧
        (move = .enter → id ∈ limiter.holders) := by
  cases step with
  | saved new uploader job =>
    refine .inl ⟨rfl, ?_⟩
    rw [call?_congr (calls_updateLimiter _ _ _), call?_addCall, found, Option.some_or]
  | refused new uploader job =>
    refine .inl ⟨rfl, ?_⟩
    rw [call?_addCall, found, Option.some_or]
  | @moved mover move _ limiter upload _ there limited admitted stepped =>
    rw [call?_setCall]
    by_cases same : id = mover
    · subst same
      cases there.symm.trans found
      exact .inr ⟨move, upload, rfl, stepped, by simp [found], limiter, limited, admitted⟩
    · exact .inl ⟨by simp [UploaderAct.moveOf?, Ne.symm same], by rw [if_neg same, found]⟩
  | @answered mover move _ limiter upload _ there limited admitted stepped =>
    rw [call?_congr (calls_settleResult _ _ _), call?_setCall]
    by_cases same : id = mover
    · subst same
      cases there.symm.trans found
      exact .inr ⟨move, upload, rfl, stepped, by simp [found], limiter, limited, admitted⟩
    · exact .inl ⟨by simp [UploaderAct.moveOf?, Ne.symm same], by rw [if_neg same, found]⟩
  | awaited | settled => exact .inl ⟨rfl, found⟩

/-- A call that is there stays, and has made the moves of a run of its upload. -/
theorem Run.later (run : Run mid log all) (found : mid.call? id = some call) :
    ∃ upload, all.call? id = some { call with upload := upload } ∧
      call.upload.run? (movesOf id log) = some (upload, eventsOf id log) := by
  induction run with
  | start => exact ⟨call.upload, found, rfl⟩
  | @step log all next act events ran _ stepped ih =>
    obtain ⟨upload, here, moved⟩ := ih
    rw [Upload.run?_eq] at moved ⊢
    rw [movesOf_snoc, eventsOf_snoc]
    rcases (step_of_step? stepped).keeps_call here with
      ⟨other, there⟩ | ⟨move, after, rfl, step, there, _⟩
    · refine ⟨upload, there, ?_⟩
      simpa [other] using moved
    · refine ⟨after, there, ?_⟩
      simpa [UploaderAct.moveOf?] using runSteps_snoc moved step

theorem Step.new (step : Step all act events next) (missing : all.call? id = none)
    (found : next.call? id = some call) :
    ∃ job cancelled, act = .save id call.uploader job cancelled ∧ events = [] ∧
      call.upload = Upload.begin job cancelled := by
  have only : ∀ {uploader new : Nat} {job : UploadJob} {cancelled : Bool},
      (all.addCall new uploader job cancelled).call? id = some call →
      new = id ∧ call = ⟨uploader, Upload.begin job cancelled⟩ := by
    intro uploader new job cancelled there
    rw [call?_addCall, missing, Option.none_or] at there
    split at there
    · rename_i same
      exact ⟨same.symm, (Option.some.inj there).symm⟩
    · contradiction
  cases step with
  | saved new uploader job =>
    rw [call?_congr (calls_updateLimiter _ _ _)] at found
    obtain ⟨rfl, rfl⟩ := only found
    exact ⟨job, false, rfl, rfl, rfl⟩
  | refused new uploader job =>
    obtain ⟨rfl, rfl⟩ := only found
    exact ⟨job, true, rfl, rfl, rfl⟩
  | moved =>
    rw [call?_setCall, missing] at found
    split at found <;> contradiction
  | answered =>
    rw [call?_congr (calls_settleResult _ _ _), call?_setCall, missing] at found
    split at found <;> contradiction
  | awaited | settled =>
    have same := missing.symm.trans found
    contradiction

theorem Step.silent (step : Step all act events next) (missing : all.call? id = none) :
    act.moveOf? id = none := by
  cases step with
  | @moved mover _ _ _ _ _ found | @answered mover _ _ _ _ _ found =>
    have other : mover ≠ id := by
      rintro rfl
      rw [missing] at found
      contradiction
    simp [UploaderAct.moveOf?, other]
  | saved | refused | awaited | settled => rfl

/-- Every call was begun once, and what has happened to it since is a run of its upload. -/
theorem Run.of_call (run : Run first log all) (fresh : first.calls = []) :
    match all.call? id with
    | none => movesOf id log = [] ∧ eventsOf id log = []
    | some call => ∃ job cancelled,
        (.save id call.uploader job cancelled, []) ∈ log ∧
        (Upload.begin job cancelled).run? (movesOf id log) =
          some (call.upload, eventsOf id log) := by
  induction run with
  | start =>
    rw [call?, fresh]
    exact ⟨rfl, rfl⟩
  | @step log all next act events ran _ stepped ih =>
    have step := step_of_step? stepped
    rw [movesOf_snoc, eventsOf_snoc]
    cases before : all.call? id with
    | none =>
      have silent := step.silent before
      rw [before] at ih
      obtain ⟨unmoved, unseen⟩ := ih
      rw [silent, unmoved, unseen]
      cases after : next.call? id with
      | none => exact ⟨rfl, rfl⟩
      | some call =>
        obtain ⟨job, cancelled, rfl, rfl, begun⟩ := step.new before after
        exact ⟨job, cancelled, by simp, by rw [begun]; rfl⟩
    | some call =>
      rw [before] at ih
      obtain ⟨job, cancelled, saved, moved⟩ := ih
      rw [Upload.run?_eq] at moved
      rcases step.keeps_call before with ⟨other, there⟩ | ⟨move, upload, rfl, stepped, there, _⟩
      · rw [there]
        refine ⟨job, cancelled, List.mem_append_left _ saved, ?_⟩
        rw [Upload.run?_eq]
        simpa [other] using moved
      · rw [there]
        refine ⟨job, cancelled, List.mem_append_left _ saved, ?_⟩
        rw [Upload.run?_eq]
        simpa [UploaderAct.moveOf?] using runSteps_snoc moved stepped

theorem Run.answer (run : Run first log all) (fresh : first.calls = [])
    (found : all.call? id = some call) (dispatch : Dispatch)
    (stage : call.upload.stage = .dispatching dispatch) :
    call.upload.result = dispatch.result? call.upload.job := by
  have whole := @Run.of_call first all log id run fresh
  rw [found] at whole
  obtain ⟨job, cancelled, _, ran⟩ := whole
  have standing : Upload.Standing job (fun _ => True) (fun _ _ => True) (eventsOf id log)
      call.upload :=
    Upload.run_standing (fun _ _ _ _ _ _ => trivial) (fun _ _ _ _ _ _ _ _ => trivial)
      (fun _ _ => trivial) ran
  exact standing.answer dispatch stage

end Projection

end Uploaders

end ChunkedUpload
