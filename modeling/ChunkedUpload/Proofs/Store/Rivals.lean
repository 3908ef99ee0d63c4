import ChunkedUpload.Proofs.Store.Writers

/-! Calls that write the same part. They share one temporary file, so that a part is complete only
as long as they use it in turn: a file that one of them has written can be emptied and written anew
by another, and is then put in its place half-written. -/
namespace ChunkedUpload.Writers

variable {store : Store} {root : Location} {first last : Writers}

/-- While the writings of each part take turns, a part is as before until one of them is done, and
from then on as one of those that are done. -/
theorem complete_in_turn (begins : Begins store root first) (run : Run store InTurn first last) :
    last.writings.map PartWriting.call = first.writings.map PartWriting.call ∧
    ∀ fileId part, Complete store first last fileId part := by
  have kept := run.kept begins fun _ _ _ turn => turn
  exact ⟨kept.calls, kept.complete⟩

section Rivals

/-- Two calls for the same part of the same file. -/
def rivals : Writers :=
  ⟨FileSystem.empty, [⟨7, 0, ⟨#[1, 2]⟩, .begun⟩, ⟨7, 0, ⟨#[3, 4, 5]⟩, .begun⟩]⟩

theorem rivals_begin :
    Begins ⟨Path.ofString "/parts"⟩ (Path.ofString "/parts").turns.reverse rivals :=
  ⟨FileSystem.sound_empty, FileSystem.leads_empty (by decide +kernel), by decide⟩

/-- One rival fails after it has written half of its part; the other waits for that and is done. -/
theorem complete_after_failed_rival :
    let store : Store := ⟨Path.ofString "/parts"⟩
    ∃ last, Run store InTurn rivals last ∧
      (∀ fileId part, Complete store rivals last fileId part) ∧
      last.writings.map PartWriting.stage = [.failed (.described "disk full"), .done] ∧
      store.part? last.files 7 0 = some ⟨#[3, 4, 5]⟩ := by
  intro store
  have outcome : (run? store InTurn rivals
      [(0, .proceed), (1, .proceed), (0, .proceed), (0, .write 1),
        (0, .fail (.described "disk full")), (1, .proceed), (1, .write 2), (1, .write 2),
        (1, .proceed), (1, .proceed)]).map (fun last =>
          (last.writings.map PartWriting.stage, store.part? last.files 7 0)) =
      some ([.failed (.described "disk full"), .done], some ⟨#[3, 4, 5]⟩) := by decide +kernel
  obtain ⟨last, ran, facts⟩ := Option.map_eq_some_iff.mp outcome
  obtain ⟨stages, there⟩ := Prod.mk.inj facts
  have run := run_of_run? .start ran
  exact ⟨last, run, (complete_in_turn rivals_begin run).2, stages, there⟩

/-- One rival empties and fills the file that the other puts in its place. The part is neither of
the two while both are under way; and when all is over, it is that of the call that has failed. -/
theorem rivals_leave_torn_part :
    let store : Store := ⟨Path.ofString "/parts"⟩
    ∃ torn last, Run store (fun _ _ => True) rivals torn ∧
      store.part? torn.files 7 0 = some ⟨#[3]⟩ ∧
      Run store (fun _ _ => True) torn last ∧
      last.writings.map PartWriting.stage =
        [.done, .failed (.system SystemError.noSuchFile)] ∧
      store.part? last.files 7 0 = some ⟨#[3, 4, 5]⟩ := by
  intro store
  have outcome : (run? store (fun _ _ => True) rivals
      [(0, .proceed), (1, .proceed), (0, .proceed), (0, .write 2), (0, .proceed), (1, .proceed),
        (1, .write 1), (0, .proceed)]).bind (fun torn =>
          (run? store (fun _ _ => True) torn [(1, .write 2), (1, .proceed), (1, .proceed)]).map
            fun last => (store.part? torn.files 7 0, last.writings.map PartWriting.stage,
              store.part? last.files 7 0)) =
      some (some ⟨#[3]⟩, [.done, .failed (.system SystemError.noSuchFile)],
        some ⟨#[3, 4, 5]⟩) := by decide +kernel
  obtain ⟨torn, before, outcome⟩ := Option.bind_eq_some_iff.mp outcome
  obtain ⟨last, later, facts⟩ := Option.map_eq_some_iff.mp outcome
  simp only [Prod.mk.injEq] at facts
  obtain ⟨half, stages, whole⟩ := facts
  exact ⟨torn, last, run_of_run? .start before, half, run_of_run? .start later, stages, whole⟩

end Rivals

end ChunkedUpload.Writers
