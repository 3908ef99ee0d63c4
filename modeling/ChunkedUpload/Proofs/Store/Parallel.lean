import ChunkedUpload.Proofs.Store.Writers
import Mathlib.Data.List.Nodup

/-! Different parts that are written in parallel. Each is complete or as before, whatever the order
of the steps, whichever of them fail, and wherever they all stop. -/
namespace ChunkedUpload.Writers

variable {store : Store} {root : Location} {first last : Writers}

/-- What writings of different parts have done to a store, finished or not. -/
structure WholeOrBefore (store : Store) (first last : Writers) : Prop where
  calls : last.writings.map PartWriting.call = first.writings
  renewed : ∀ fileId part bytes, ⟨fileId, part, bytes, .done⟩ ∈ last.writings →
    store.part? last.files fileId part = some bytes
  before : ∀ fileId part, (∀ bytes, ⟨fileId, part, bytes, .done⟩ ∉ last.writings) →
    store.part? last.files fileId part = store.part? first.files fileId part
  failed : ∀ fileId part bytes error, ⟨fileId, part, bytes, .failed error⟩ ∈ last.writings →
    store.part? last.files fileId part = store.part? first.files fileId part
  /-- No temporary file is taken for a part. -/
  listed : ∀ fileId part, store.Lists last.files fileId part ↔
    store.Lists first.files fileId part ∨ ∃ bytes, ⟨fileId, part, bytes, .done⟩ ∈ last.writings
  /-- Nothing but parts is put together. -/
  assembled : ∀ fileId total out written after, store.Outside last.files out →
    store.assemble fileId total out last.files = (.ok written, after) →
    ∃ piece : UInt32 → ByteArray,
      (∀ part < total, store.part? last.files fileId part = some (piece part)) ∧
      after.read out =
        .ok (((Store.partNumbers total).map piece).foldl (· ++ ·) ByteArray.empty)

theorem Begins.calls (begins : Begins store root first) :
    first.writings.map PartWriting.call = first.writings := by
  refine (List.map_congr_left fun writing member => ?_).trans (List.map_id _)
  rw [PartWriting.call, ← begins.begun writing member]
  rfl

/-- Of those that write different parts, only one can have put a part in its place. -/
theorem Kept.same_call (kept : Kept store root first last)
    (distinct : (first.writings.map PartWriting.place).Nodup) {one two : PartWriting}
    (member : one ∈ last.writings) (also : two ∈ last.writings) (same : one.place = two.place) :
    one = two := by
  rw [← kept.places] at distinct
  exact List.inj_on_of_nodup_map distinct member also same

theorem whole_or_before (begins : Begins store root first)
    (distinct : (first.writings.map PartWriting.place).Nodup)
    (run : Run store (fun _ _ => True) first last) : WholeOrBefore store first last := by
  have kept := run.kept begins fun writers index kept _ => kept.inTurn distinct index
  have before : ∀ fileId part, (∀ bytes, ⟨fileId, part, bytes, .done⟩ ∉ last.writings) →
      store.part? last.files fileId part = store.part? first.files fileId part := by
    intro fileId part none
    rcases kept.complete fileId part with ⟨bytes, member, _⟩ | ⟨_, same⟩
    · exact absurd member (none bytes)
    · exact same
  refine ⟨kept.calls.trans begins.calls, fun fileId part bytes done => ?_, before,
    fun fileId part bytes error failed => ?_, kept.lists, ?_⟩
  · rcases kept.complete fileId part with ⟨found, member, there⟩ | ⟨none, _⟩
    · cases kept.same_call distinct done member rfl
      exact there
    · exact absurd done (none bytes)
  · refine before fileId part fun found member => ?_
    cases kept.same_call distinct failed member rfl
  · intro fileId total out written after outside assembled
    obtain ⟨piece, held, _, read⟩ := Store.parts_of_assemble kept.sound
      (fun part _ => outside.not_isPart fileId part) assembled
    exact ⟨piece, held, read⟩

/-- While the second of three parts is written, the first fails on top of an earlier copy, and the
third is cut short. -/
theorem whole_or_before_three_calls :
    let store : Store := ⟨Path.ofString "/parts"⟩
    let files := (store.putPart 7 0 ⟨#[1]⟩ FileSystem.empty).2
    let calls : List PartWriting :=
      [⟨7, 0, ⟨#[2, 3]⟩, .begun⟩, ⟨7, 1, ⟨#[4]⟩, .begun⟩, ⟨8, 0, ⟨#[5, 6]⟩, .begun⟩]
    ∃ last, Run store (fun _ _ => True) ⟨files, calls⟩ last ∧
      WholeOrBefore store ⟨files, calls⟩ last ∧
      store.part? last.files 7 0 = some ⟨#[1]⟩ ∧ store.part? last.files 7 1 = some ⟨#[4]⟩ ∧
      store.part? last.files 8 0 = none := by
  intro store files calls
  have outcome : (run? store (fun _ _ => True) ⟨files, calls⟩
      [(0, .proceed), (1, .proceed), (0, .proceed), (1, .proceed), (0, .write 1), (2, .proceed),
        (1, .write 1), (0, .fail (.described "disk full")), (1, .proceed), (2, .proceed),
        (1, .proceed), (2, .write 1)]).map (fun last =>
        (store.part? last.files 7 0, store.part? last.files 7 1, store.part? last.files 8 0)) =
      some (some ⟨#[1]⟩, some ⟨#[4]⟩, none) := by decide +kernel
  obtain ⟨last, ran, parts⟩ := Option.map_eq_some_iff.mp outcome
  have down : [Path.dot, Path.dot] ∉ store.root.turns := by decide +kernel
  have put : store.putPart 7 0 ⟨#[1]⟩ FileSystem.empty = (.ok (), files) :=
    Prod.ext (by decide +kernel) rfl
  have earlier := kept_of_putPart FileSystem.sound_empty (FileSystem.leads_empty down) put
  have begins : Begins store _ ⟨files, calls⟩ :=
    ⟨earlier.sound, earlier.leads, by decide⟩
  have run := run_of_run? .start ran
  simp only [Prod.mk.injEq] at parts
  obtain ⟨first, second, third⟩ := parts
  exact ⟨last, run, whole_or_before begins (by decide) run, first, second, third⟩

end ChunkedUpload.Writers
