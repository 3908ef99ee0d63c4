import ChunkedUpload.Admission
import Mathlib.Data.List.Nodup

/-! Limiters as lines. All who have come and not left stand in one line in the order of their
arrival; the first of them hold the slots and the others wait. -/
namespace ChunkedUpload

namespace Admission

/-- Whoever holds a slot or waits for one, in the order of arrival. -/
def line (limiter : Admission) : List Nat := limiter.holders ++ limiter.waiting

/-- Nobody has come twice, every slot is free or held, and nobody waits while one is free. -/
structure Sound (limiter : Admission) : Prop where
  once : limiter.line.Nodup
  slots : limiter.available + limiter.holders.length = limiter.max
  settled : limiter.available = 0 ∨ limiter.waiting = []

variable {limiter : Admission} {id : Nat}

@[simp] theorem line_settle (limiter : Admission) : limiter.settle.line = limiter.line := by
  simp only [line, settle, List.append_assoc, List.take_append_drop]

theorem mem_line : id ∈ limiter.line ↔ id ∈ limiter.holders ∨ id ∈ limiter.waiting :=
  List.mem_append

/-- Settling needs no more than that slots and people are counted rightly. -/
theorem sound_settle (once : limiter.line.Nodup)
    (slots : limiter.available + limiter.holders.length = limiter.max) : limiter.settle.Sound := by
  constructor
  · rwa [line_settle]
  · simp only [settle, List.length_append, List.length_take]
    omega
  · rcases Nat.le_total limiter.waiting.length limiter.available with few | many
    · exact .inr (List.drop_eq_nil_of_le few)
    · left
      simp only [settle, List.length_take, Nat.min_eq_left many, Nat.sub_self]

theorem make?_sound {slots : Nat} (made : make? slots = some limiter) :
    limiter.Sound ∧ limiter.line = [] := by
  unfold make? at made
  dsimp only at made
  split at made
  · contradiction
  · cases made
    exact ⟨⟨List.nodup_nil, rfl, .inr rfl⟩, rfl⟩

theorem line_request (limiter : Admission) (id : Nat) :
    (limiter.request id).line = limiter.line ++ [id] := by
  rw [request, line_settle]
  exact (List.append_assoc _ _ _).symm

theorem Sound.request (sound : limiter.Sound) (new : id ∉ limiter.line) :
    (limiter.request id).Sound := by
  refine sound_settle ?_ sound.slots
  rw [line, ← List.append_assoc, List.nodup_append]
  refine ⟨sound.once, List.nodup_singleton id, ?_⟩
  rintro other stands _ here rfl
  rw [List.mem_singleton] at here
  exact new (here ▸ stands)

theorem Sound.release (sound : limiter.Sound) (held : id ∈ limiter.holders) :
    (limiter.release id).Sound ∧ (limiter.release id).line = limiter.line.erase id := by
  have less : (limiter.holders.erase id).length = limiter.holders.length - 1 :=
    List.length_erase_of_mem held
  have some_held := List.length_pos_of_mem held
  have slots := sound.slots
  have line : limiter.holders.erase id ++ limiter.waiting = limiter.line.erase id :=
    (List.erase_append_left limiter.waiting held).symm
  rw [Admission.release, if_pos held]
  constructor
  · refine sound_settle ?_ ?_
    · rw [Admission.line, line]
      exact sound.once.erase id
    · rw [less]
      change limiter.available + 1 + _ = limiter.max
      omega
  · rw [line_settle]
    exact line

theorem Sound.cancel (sound : limiter.Sound) (unheld : id ∉ limiter.holders) :
    (limiter.cancel id).Sound ∧ (limiter.cancel id).line = limiter.line.erase id := by
  have line : limiter.holders ++ limiter.waiting.erase id = limiter.line.erase id :=
    (List.erase_append_right limiter.waiting unheld).symm
  constructor
  · refine sound_settle ?_ sound.slots
    rw [Admission.line, line]
    exact sound.once.erase id
  · rw [Admission.cancel, line_settle]
    exact line

/-- Whoever leaves goes out of the line, and the others stay in it as they stand. -/
theorem Sound.leave (sound : limiter.Sound) (id : Nat) :
    (limiter.leave id).Sound ∧ (limiter.leave id).line = limiter.line.erase id := by
  by_cases held : id ∈ limiter.holders
  · obtain ⟨released, line⟩ := sound.release held
    have gone : id ∉ (limiter.release id).line := line ▸ sound.once.not_mem_erase
    obtain ⟨cancelled, same⟩ := released.cancel fun still => gone (mem_line.mpr (.inl still))
    exact ⟨cancelled, by rw [Admission.leave, same, List.erase_of_not_mem gone, line]⟩
  · rw [Admission.leave, Admission.release, if_neg held]
    exact sound.cancel held

/-- A limiter that nobody uses has a slot for whoever comes. -/
theorem request_of_free (slots id : Nat) :
    (⟨slots + 1, slots + 1, [], []⟩ : Admission).request id = ⟨slots + 1, slots, [id], []⟩ := by
  simp [request, settle]

theorem leave_of_only (slots id : Nat) :
    (⟨slots + 1, slots, [id], []⟩ : Admission).leave id = ⟨slots + 1, slots + 1, [], []⟩ := by
  simp [leave, release, cancel, settle]

theorem free_of_make? {slots : Nat} {limiter : Admission} (made : make? slots = some limiter) :
    ∃ more, limiter = ⟨more + 1, more + 1, [], []⟩ := by
  unfold make? at made
  dsimp only at made
  split at made
  · contradiction
  · cases made
    exact ⟨Nat.max slots 1 - 1, by rw [Nat.sub_add_cancel (Nat.le_max_right _ _)]⟩

theorem mem_line_of_leave {other : Nat} (stands : other ∈ (limiter.leave id).line) :
    other ∈ limiter.line := by
  have released : ∀ {one : Nat}, one ∈ (limiter.release id).line → one ∈ limiter.line := by
    intro one member
    unfold release at member
    split at member
    · rw [line_settle] at member
      exact List.mem_append.mpr ((List.mem_append.mp member).imp_left List.mem_of_mem_erase)
    · exact member
  rw [leave, cancel, line_settle] at stands
  exact released
    (List.mem_append.mpr ((List.mem_append.mp stands).imp_right List.mem_of_mem_erase))

end Admission

end ChunkedUpload
