import ChunkedUpload.Proofs.Depot.Writings
import ChunkedUpload.Proofs.Upload.Served
import ChunkedUpload.Proofs.Uploaders.Runs

/-! A store while a single call runs. The call opens its input among the files that were there when
it came, and from then on only its own parts are written. -/
namespace ChunkedUpload

/-- A move of this call, or a step of a writing. -/
def DepotAct.IsOf (call : Nat) : DepotAct → Prop
  | act (.move id _) => id = call
  | act _ => False
  | write _ _ => True

def DepotAct.isCancel : DepotAct → Bool
  | act (.move _ .cancel) => true
  | _ => false

namespace Depot

/-- What is known of a call while it runs, which asks for some of these requests and no others. -/
structure Course (requests : List PartRequest) (first : FileSystem) (Allowed : Move → Prop)
    (Keeps : List Event → Upload → Prop) : Prop where
  kept : StepKeeps Upload.step? Keeps Allowed
  standing : ∀ past upload, Keeps past upload →
    ∃ job Moves P, Upload.Standing job Moves P past upload
  started : ∀ past upload, Keeps past upload →
    (past.filterMap Event.started?).Sublist requests
  distinct : (requests.map PartRequest.place).Nodup
  calm : ∀ move : Move, move.Calm first → Allowed move

/-- The store while this call runs. -/
structure Serving (store : Store) (requests : List PartRequest) (first : FileSystem)
    (call uploader : Nat) (Keeps : List Event → Upload → Prop) (past : List Event)
    (depot : Depot) : Prop where
  kept : Kept store requests first past depot
  upload : ∃ upload, depot.all.call? call = some ⟨uploader, upload⟩ ∧ Keeps past upload ∧
    ((∀ dispatch, upload.stage ≠ .dispatching dispatch) → depot.files = first)

section Serving

variable {store : Store} {requests : List PartRequest} {first : FileSystem} {call uploader : Nat}
  {Allowed : Move → Prop} {Keeps : List Event → Upload → Prop} {past events : List Event}
  {depot next : Depot} {job : UploadJob} {cancelled : Bool} {upload : Upload}

variable (Keeps) in
theorem Serving.start (sound : depot.files.Sound) (idle : depot.writings = [])
    (new : depot.all.call? call = none) (begins : Keeps [] (Upload.begin job cancelled))
    (stepped : step? store depot (.act (.save call uploader job cancelled)) = some (next, events)) :
    events = [] ∧ next.all.call? call = some ⟨uploader, Upload.begin job cancelled⟩ ∧
      Serving store requests depot.files call uploader Keeps [] next := by
  obtain ⟨all, writings, acted, heeded, rfl⟩ := step_of_act stepped
  have there : events = [] ∧
      all.call? call = some ⟨uploader, Upload.begin job cancelled⟩ := by
    cases Uploaders.step_of_step? acted with
    | saved =>
      rw [Uploaders.call?_congr (Uploaders.calls_updateLimiter _ _ _), Uploaders.call?_addCall, new,
        if_pos rfl, Option.none_or]
      exact ⟨rfl, rfl⟩
    | refused =>
      rw [Uploaders.call?_addCall, new, if_pos rfl, Option.none_or]
      exact ⟨rfl, rfl⟩
  obtain ⟨rfl, there⟩ := there
  exact ⟨rfl, there, (Kept.start sound idle rfl).heed heeded, _, there, begins, fun _ => rfl⟩

/-- A move finds what a calm move finds, unless somebody cancels. -/
theorem allowed_of_answered {move : Move} {after : Upload} {Moves : Move → Prop}
    {P : List Event → Dispatch → Prop} {writings : List (PartRequest × WriteStage)}
    (calm : ∀ move : Move, move.Calm first → Allowed move)
    (cancel : move = .cancel → Allowed .cancel) (standing : Upload.Standing job Moves P past upload)
    (same : (∀ dispatch, upload.stage ≠ .dispatching dispatch) → depot.files = first)
    (heeded : Heeded depot.writings events writings)
    (moved : upload.step? (answered depot.files move) = some (after, events)) :
    Allowed (answered depot.files move) := by
  have step := Upload.step_of_step? standing.answer moved
  cases move with
  | cancel => exact cancel rfl
  | openInput found =>
    refine calm _ (same ?_)
    cases step with
    | unopened stage | unplanned stage | opened stage => simp [stage]
    | dispatched _ step => cases step
  | locate => exact calm _ ⟨_, rfl⟩
  | connect => exact calm _ rfl
  -- no writing ends in a way that would make the call crash
  | finish worker reply =>
    refine calm _ ?_
    cases step with
    | dispatched _ step =>
      cases step with
      | @finished _ _ _ request =>
        obtain ⟨stage, answer, _⟩ := heeded.ended (request, reply) (by simp [Event.ended?])
        rintro rfl
        cases answer
  | enter | withdraw | seek | read | enqueue | notify | abort | stop | join | take =>
    exact calm _ trivial

theorem step_serving (course : Course requests first Allowed Keeps) :
    StepKeeps (step? store) (Serving store requests first call uploader Keeps)
      (fun act => act.IsOf call ∧ (act.isCancel = true → Allowed .cancel)) := by
  intro past depot act next events serving ⟨own, cancel⟩ stepped
  obtain ⟨upload, found, keeps, same⟩ := serving.upload
  obtain ⟨job, Moves, P, standing⟩ := course.standing _ _ keeps
  have started := course.started _ _ keeps
  cases act with
  | write index move =>
    obtain ⟨rfl, request, stage, later, files, there, step, rfl⟩ := step_of_write stepped
    rw [List.append_nil]
    obtain ⟨once, asked⟩ :=
      serving.kept.places (course.distinct.sublist (started.map PartRequest.place))
    have own : ∀ entry ∈ depot.writings, ∀ other ∈ requests, other.place = entry.1.place →
        other = entry.1 := fun entry member other wanted same =>
      List.inj_on_of_nodup_map course.distinct wanted (started.subset (asked entry member)) same
    refine ⟨serving.kept.write once own there step, upload, found, keeps, fun before => ?_⟩
    -- before there are workers nothing is being written
    have nothing := serving.kept.calls
    rw [standing.unstarted before] at nothing
    have none_there := (List.append_eq_nil_iff.mp nothing.symm.eq_nil).2
    rw [List.map_eq_nil_iff.mp none_there] at there
    cases there
  | act act =>
    obtain ⟨all, writings, acted, heeded, rfl⟩ := step_of_act stepped
    cases act with
    | move id move =>
      obtain rfl : id = call := own
      rcases (Uploaders.step_of_step? acted).keeps_call found with
        ⟨other, _⟩ | ⟨_, after, eq, moved, there, _⟩
      · simp [heard, UploaderAct.moveOf?] at other
      · cases eq
        have allowed := allowed_of_answered course.calm (fun same => cancel (by rw [same]; rfl))
          standing same heeded moved
        refine ⟨serving.kept.heed heeded, after, there,
          course.kept _ _ _ _ _ keeps allowed moved, fun before => same ?_⟩
        exact ((Upload.step_of_step? standing.answer moved).unended before).1
    | save | await | settle => exact own.elim

theorem Kept.idle (kept : Kept store requests first past depot)
    (ended : ((past.filterMap Event.ended?).map Prod.fst).Perm (past.filterMap Event.started?)) :
    depot.writings = [] := by
  have size := kept.calls.length_eq
  have same := ended.length_eq
  rw [List.length_append, same, Nat.left_eq_add, List.length_map] at size
  exact List.eq_nil_of_length_eq_zero size

end Serving

end Depot

end ChunkedUpload
