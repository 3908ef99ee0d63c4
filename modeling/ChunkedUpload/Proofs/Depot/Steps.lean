import ChunkedUpload.Proofs.Store.Steps
import ChunkedUpload.Proofs.Upload.Steps
import ChunkedUpload.Uploaders

/-! Uploads whose session is a part store. The request that a worker begins with is written step by
step, in any order with the steps of the other writings and of the uploads, and the worker hears
what became of it. -/
namespace ChunkedUpload

structure Depot where
  all : Uploaders
  files : FileSystem
  /-- The requests that workers wait for, each with the stage of its writing. -/
  writings : List (PartRequest × WriteStage)

inductive DepotAct
  | act (act : UploaderAct)
  /-- A step of the writing at this place in the list. -/
  | write (index : Nat) (move : WriteMove)

def PartWriting.ofEntry (entry : PartRequest × WriteStage) : PartWriting :=
  ⟨entry.1.fileId, entry.1.part, entry.1.payload, entry.2⟩

/-- The stage of a writing that makes a worker hear this. -/
def Reply.stage? : Reply → Option WriteStage
  | delivered => some .done
  | refused (.io error) => some (.failed error)
  | refused _ | crashed => none

namespace Depot

/-- What a move that asks for something outside finds there: the files as they are, and a provider
that has a session for everybody. -/
def answered (files : FileSystem) : Move → Move
  | .openInput _ => .openInput files
  | .locate _ => .locate (.ok Store.endpoint)
  | .connect _ => .connect (.ok ())
  | move => move

def heard (files : FileSystem) : UploaderAct → UploaderAct
  | .move id move => .move id (answered files move)
  | act => act

/-- A request that begins is to be written, and one ends with what became of it. -/
def heed (writings : List (PartRequest × WriteStage)) :
    Event → Option (List (PartRequest × WriteStage))
  | .started request => some (writings ++ [(request, .begun)])
  | .ended request reply => reply.stage?.bind fun stage =>
    if (request, stage) ∈ writings then some (writings.erase (request, stage)) else none
  | _ => some writings

def step? (store : Store) (depot : Depot) : DepotAct → Option (Depot × List Event)
  | .act act =>
    (depot.all.step? (heard depot.files act)).bind fun (all, events) =>
      (events.foldlM heed depot.writings).map fun writings =>
        ({ depot with all := all, writings := writings }, events)
  | .write index move =>
    depot.writings[index]?.bind fun entry =>
      (PartWriting.step? store depot.files (.ofEntry entry) move).map fun (next, files) =>
        ({ depot with
          files := files
          writings := depot.writings.set index (entry.1, next.stage) }, [])

/-- What events make of the list of writings. -/
structure Heeded (writings : List (PartRequest × WriteStage)) (events : List Event)
    (after : List (PartRequest × WriteStage)) : Prop where
  calls : (writings.map Prod.fst ++ events.filterMap Event.started?).Perm
    ((events.filterMap Event.ended?).map Prod.fst ++ after.map Prod.fst)
  entries : ∀ entry ∈ after, entry ∈ writings ∨ entry.2 = .begun
  ended : ∀ call ∈ events.filterMap Event.ended?, ∃ stage, call.2.stage? = some stage ∧
    (call.1, stage) ∈ writings

section Heed

variable {store : Store} {depot next : Depot} {act : UploaderAct} {index : Nat} {move : WriteMove}
  {writings after : List (PartRequest × WriteStage)} {event : Event} {events : List Event}

theorem begun_ne_stage (reply : Reply) : reply.stage? ≠ some .begun := by
  cases reply with
  | delivered | crashed => simp [Reply.stage?]
  | refused error => cases error <;> simp [Reply.stage?]

theorem heeded_of_heed (heeded : heed writings event = some after) :
    Heeded writings [event] after := by
  cases event with
  | started request =>
    cases heeded
    refine ⟨by simp [Event.started?, Event.ended?], fun entry member => ?_, by simp [Event.ended?]⟩
    rcases List.mem_append.mp member with before | new
    · exact .inl before
    · exact .inr (by rw [List.mem_singleton.mp new])
  | ended request reply =>
    obtain ⟨stage, answer, taken⟩ := Option.bind_eq_some_iff.mp heeded
    split at taken
    · rename_i there
      cases taken
      refine ⟨?_, fun entry member => .inl (List.mem_of_mem_erase member), ?_⟩
      · have order := (List.perm_cons_erase there).map Prod.fst
        simpa [Event.started?, Event.ended?] using order
      · simpa [Event.ended?] using ⟨stage, answer, there⟩
    · contradiction
  | askedHome | askedSession | queued | reported =>
    cases heeded
    exact ⟨by simp [Event.started?, Event.ended?], fun _ => .inl, by simp [Event.ended?]⟩

theorem heeded_of_foldlM (heeded : events.foldlM heed writings = some after) :
    Heeded writings events after := by
  induction events generalizing writings with
  | nil =>
    cases heeded
    exact ⟨by simp, fun _ => .inl, by simp⟩
  | cons event rest ih =>
    rw [List.foldlM_cons] at heeded
    obtain ⟨mid, first, later⟩ := Option.bind_eq_some_iff.mp heeded
    have now := heeded_of_heed first
    have others := ih later
    have split_started : (event :: rest).filterMap Event.started? =
        [event].filterMap Event.started? ++ rest.filterMap Event.started? := by
      rw [← List.filterMap_append, List.singleton_append]
    have split_ended : (event :: rest).filterMap Event.ended? =
        [event].filterMap Event.ended? ++ rest.filterMap Event.ended? := by
      rw [← List.filterMap_append, List.singleton_append]
    refine ⟨?_, fun entry member => ?_, fun call member => ?_⟩
    · rw [split_started, split_ended, List.map_append, ← List.append_assoc]
      refine (now.calls.append_right _).trans ?_
      rw [List.append_assoc, List.append_assoc]
      exact others.calls.append_left _
    · rcases others.entries entry member with before | begun
      · exact now.entries entry before
      · exact .inr begun
    · rw [split_ended] at member
      rcases List.mem_append.mp member with here | there
      · exact now.ended call here
      -- a writing that has only begun ends no call, so this one was there before
      · obtain ⟨stage, answer, found⟩ := others.ended call there
        refine ⟨stage, answer, (now.entries _ found).resolve_right ?_⟩
        rintro rfl
        exact begun_ne_stage call.2 answer

theorem step_of_act (stepped : step? store depot (.act act) = some (next, events)) :
    ∃ all writings, depot.all.step? (heard depot.files act) = some (all, events) ∧
      Heeded depot.writings events writings ∧
      next = { depot with all := all, writings := writings } := by
  obtain ⟨⟨all, seen⟩, acted, later⟩ := Option.bind_eq_some_iff.mp stepped
  obtain ⟨writings, heeded, eq⟩ := Option.map_eq_some_iff.mp later
  cases eq
  exact ⟨all, writings, acted, heeded_of_foldlM heeded, rfl⟩

theorem step_of_write (stepped : step? store depot (.write index move) = some (next, events)) :
    events = [] ∧ ∃ request stage later files, depot.writings[index]? = some (request, stage) ∧
      PartWriting.Step store depot.files (.ofEntry (request, stage)) later files ∧
      next = { depot with
        files := files
        writings := depot.writings.set index (request, later) } := by
  obtain ⟨⟨request, stage⟩, found, later⟩ := Option.bind_eq_some_iff.mp stepped
  obtain ⟨⟨writing, files⟩, made, eq⟩ := Option.map_eq_some_iff.mp later
  cases eq
  obtain ⟨reached, same, step⟩ := PartWriting.step_of_step? made
  rw [same]
  exact ⟨rfl, request, stage, reached, files, found, step, rfl⟩

end Heed

end Depot

end ChunkedUpload
