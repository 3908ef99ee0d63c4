import ChunkedUpload.Proofs.Depot.Steps
import Mathlib.Data.List.Nodup

/-! The parts that are written at the same time for requests that all concern different parts. None
of the writings comes in the way of another or of a part that is stored. -/
namespace ChunkedUpload

/-- The part of a request is stored as the request has it. -/
def Store.Has (store : Store) (files : FileSystem) (request : PartRequest) : Prop :=
  store.Holds files request.fileId request.part request.payload

def PartRequest.place (request : PartRequest) : Int64 × UInt32 := (request.fileId, request.part)

namespace Depot

/-- Since the files were like this, nothing has been sent but some of these requests. -/
structure Kept (store : Store) (requests : List PartRequest) (first : FileSystem)
    (past : List Event) (depot : Depot) : Prop where
  calls : (past.filterMap Event.started?).Perm
    ((past.filterMap Event.ended?).map Prod.fst ++ depot.writings.map Prod.fst)
  sound : depot.files.Sound
  stands : ∀ entry ∈ depot.writings, (PartWriting.ofEntry entry).Stands store depot.files
  stored : ∀ request ∈ requests, store.Has first request ∨ (request, .done) ∈ depot.writings ∨
    (request, .delivered) ∈ past.filterMap Event.ended? → store.Has depot.files request
  tidy : ∀ fileId, store.Tidy first fileId → store.Tidy depot.files fileId

section Kept

variable {store : Store} {requests : List PartRequest} {first files : FileSystem}
  {past events : List Event} {depot : Depot} {all : Uploaders} {request : PartRequest}
  {stage later : WriteStage} {index : Nat} {writings : List (PartRequest × WriteStage)}

theorem Kept.start (sound : first.Sound) (idle : depot.writings = []) (same : depot.files = first) :
    Kept store requests first [] depot := by
  subst same
  refine ⟨by simp [idle], sound, by simp [idle], fun request _ => ?_, fun _ => id⟩
  rintro (before | done | delivered)
  · exact before
  · simp [idle] at done
  · cases delivered

theorem Kept.heed (kept : Kept store requests first past depot)
    (heeded : Heeded depot.writings events writings) :
    Kept store requests first (past ++ events)
      { depot with all := all, writings := writings } := by
  refine ⟨?_, kept.sound, fun entry member => ?_, fun request asked reached => ?_, kept.tidy⟩
  · rw [List.filterMap_append, List.filterMap_append, List.map_append, List.append_assoc]
    refine (kept.calls.append_right _).trans ?_
    rw [List.append_assoc]
    exact heeded.calls.append_left _
  · rcases heeded.entries entry member with before | begun
    · exact kept.stands entry before
    · rw [PartWriting.Stands, PartWriting.ofEntry, begun]
      exact trivial
  · refine kept.stored request asked ?_
    rcases reached with before | done | delivered
    · exact .inl before
    · exact .inr (.inl ((heeded.entries _ done).resolve_right (by simp)))
    · rw [List.filterMap_append, List.mem_append] at delivered
      rcases delivered with earlier | now
      · exact .inr (.inr earlier)
      · obtain ⟨stage, answer, there⟩ := heeded.ended _ now
        cases answer
        exact .inr (.inl there)

theorem Kept.places (kept : Kept store requests first past depot)
    (distinct : ((past.filterMap Event.started?).map PartRequest.place).Nodup) :
    (depot.writings.map fun entry => entry.1.place).Nodup ∧
    ∀ entry ∈ depot.writings, entry.1 ∈ past.filterMap Event.started? := by
  have once := (kept.calls.map PartRequest.place).nodup_iff.mp distinct
  rw [List.map_append, List.nodup_append, List.map_map, List.map_map] at once
  refine ⟨once.2.1, fun entry member => kept.calls.mem_iff.mpr ?_⟩
  exact List.mem_append_right _ (List.mem_map_of_mem member)

/-- What stands in the list when one writing has gone on: that one, and such as concern other
parts. -/
theorem mem_set_of_places (once : (depot.writings.map fun entry => entry.1.place).Nodup)
    (found : depot.writings[index]? = some (request, stage)) {entry : PartRequest × WriteStage}
    (there : entry ∈ depot.writings.set index (request, later)) :
    entry = (request, later) ∨ entry ∈ depot.writings ∧ entry.1.place ≠ request.place := by
  have inside := (List.getElem?_eq_some_iff.mp found).1
  obtain ⟨other, here⟩ := List.mem_iff_getElem?.mp there
  rw [List.getElem?_set] at here
  split at here
  · exact .inl (Option.some.inj here).symm
  · rename_i apart
    refine .inr ⟨List.mem_of_getElem? here, fun same => apart ?_⟩
    refine (List.getElem?_inj (by simpa using inside) once).mp ?_
    rw [List.getElem?_map, List.getElem?_map, found, here, Option.map_some, Option.map_some, same]

theorem requests_set (found : depot.writings[index]? = some (request, stage)) :
    (depot.writings.set index (request, later)).map Prod.fst = depot.writings.map Prod.fst := by
  apply List.ext_getElem?
  intro i
  rw [List.getElem?_map, List.getElem?_map, List.getElem?_set]
  split
  · rename_i here
    subst here
    rw [found, if_pos (List.getElem?_eq_some_iff.mp found).1]
    rfl
  · rfl

/-- A writing goes on, when no two writings are of the same part, and a writing of a part that is
asked for is the one that is asked for. -/
theorem Kept.write (kept : Kept store requests first past depot)
    (once : (depot.writings.map fun entry => entry.1.place).Nodup)
    (own : ∀ entry ∈ depot.writings, ∀ other ∈ requests, other.place = entry.1.place →
      other = entry.1)
    (found : depot.writings[index]? = some (request, stage))
    (step : PartWriting.Step store depot.files (.ofEntry (request, stage)) later files) :
    Kept store requests first past { depot with
      files := files
      writings := depot.writings.set index (request, later) } := by
  have member := List.mem_of_getElem? found
  have mine := kept.stands _ member
  refine ⟨?_, step.sound kept.sound, fun entry there => ?_, fun other wanted reached => ?_,
    fun fileId tidy => step.tidy (kept.tidy fileId tidy)⟩
  · rw [requests_set found]
    exact kept.calls
  · rcases mem_set_of_places once found there with rfl | ⟨before, apart⟩
    · exact step.stands mine
    · refine step.stands_other kept.sound mine (kept.stands entry before) ?_
      rintro ⟨fileId, part⟩
      exact apart (Prod.ext fileId part)
  · have spared : store.Has depot.files other → store.Has files other := by
      intro held
      refine step.holds_other kept.sound mine held fun fileId part => ?_
      have same := own _ member other wanted (Prod.ext fileId part)
      rw [same]
      rfl
    rcases reached with before | done | delivered
    · exact spared (kept.stored other wanted (.inl before))
    · rcases mem_set_of_places once found done with same | ⟨there, _⟩
      · cases same
        exact step.holds mine
      · exact spared (kept.stored other wanted (.inr (.inl there)))
    · exact spared (kept.stored other wanted (.inr (.inr delivered)))

end Kept

end Depot

end ChunkedUpload
