import ChunkedUpload.Proofs.Keys
import ChunkedUpload.Proofs.Uploaders.Runs

/-! The numbers of calls and of waits. Each is given once, and what is known under it stays known
under it. -/
namespace ChunkedUpload

namespace UploaderAct

/-- The number of the call that an act begins. -/
def saved? : UploaderAct → Option Nat
  | save id _ _ _ => some id
  | _ => none

/-- The number of the wait that an act begins. -/
def awaited? : UploaderAct → Option Nat
  | await id _ => some id
  | _ => none

end UploaderAct

namespace Uploaders

theorem keys_map_set {α : Type} (entries : List (Nat × α)) (id : Nat) (value : α) :
    (entries.map fun entry => if entry.1 = id then (id, value) else entry).map Prod.fst =
      entries.map Prod.fst := by
  rw [List.map_map]
  refine List.map_congr_left fun entry _ => ?_
  by_cases here : entry.1 = id <;> simp [here]

variable {first all next : Uploaders} {log : Log} {act : UploaderAct} {events : List Event}
  {id : Nat} {call : SaveCall}

theorem Step.numbers (step : Step all act events next) :
    next.calls.map Prod.fst = all.calls.map Prod.fst ++ act.saved?.toList ∧
    next.waits.map Prod.fst = all.waits.map Prod.fst ++ act.awaited?.toList := by
  cases step with
  | saved => simp [addCall, UploaderAct.saved?, UploaderAct.awaited?]
  | refused => simp [addCall, UploaderAct.saved?, UploaderAct.awaited?]
  | moved =>
    refine ⟨?_, (List.append_nil _).symm⟩
    exact (keys_map_set _ _ _).trans (List.append_nil _).symm
  | answered =>
    rw [calls_settleResult, waits_settleResult]
    refine ⟨?_, (List.append_nil _).symm⟩
    exact (keys_map_set _ _ _).trans (List.append_nil _).symm
  | awaited => simp [updateUploader, UploaderAct.saved?, UploaderAct.awaited?]
  | settled =>
    refine ⟨(List.append_nil _).symm, ?_⟩
    exact (keys_map_set _ _ _).trans (List.append_nil _).symm

theorem Run.numbers (run : Run first log all) (calls : first.calls = []) :
    (all.calls.map Prod.fst).Nodup := by
  induction run with
  | start =>
    rw [calls]
    exact List.nodup_nil
  | @step log all next act events _ fresh stepped ih =>
    rw [(step_of_step? stepped).numbers.1]
    cases act with
    | save id uploader job cancelled =>
      exact List.Nodup.append ih (List.nodup_singleton id)
        (List.disjoint_singleton.mpr (notMem_keys fresh))
    | move | await | settle => simpa [UploaderAct.saved?] using ih

theorem Run.wait_numbers (run : Run first log all) (waits : first.waits = []) :
    (all.waits.map Prod.fst).Nodup := by
  induction run with
  | start =>
    rw [waits]
    exact List.nodup_nil
  | @step log all next act events _ fresh stepped ih =>
    rw [(step_of_step? stepped).numbers.2]
    cases act with
    | await id uploader =>
      exact List.Nodup.append ih (List.nodup_singleton id)
        (List.disjoint_singleton.mpr (notMem_keys fresh))
    | save | move | settle => simpa [UploaderAct.awaited?] using ih

theorem Run.mem_calls (run : Run first log all) (calls : first.calls = []) :
    (id, call) ∈ all.calls ↔ all.call? id = some call :=
  ⟨lookup_of_mem (run.numbers calls), mem_of_lookup⟩

end Uploaders

end ChunkedUpload
