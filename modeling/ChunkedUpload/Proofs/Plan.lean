import ChunkedUpload.Plan
import Mathlib.Algebra.Group.Nat.Defs

/-! Plans and what can be read off them: a plan for a whole file begins at the first part and has as
many parts as cover the file, as long as these can be counted in 32 bits. -/
namespace ChunkedUpload

theorem partSize_pos : 0 < partSize := by decide

/-- The number of full parts that cover so many bytes. -/
def partsFor (size : Nat) : Nat := (size + (partSize - 1)) / partSize

theorem toNat_totalParts (size : UInt64) :
    (totalParts size).toNat = partsFor size.toNat % 2 ^ 32 := UInt32.toNat_ofNat'

/-- Enough parts for all bytes, and not one more. -/
theorem partsFor_eq_iff (size count : Nat) :
    partsFor size = count ↔ size ≤ count * partSize ∧ count * partSize < size + partSize := by
  have pos := partSize_pos
  rw [partsFor, Nat.div_eq_iff pos]
  omega

theorem partsFor_covers (size : Nat) : size ≤ partsFor size * partSize :=
  ((partsFor_eq_iff size _).mp rfl).1

theorem lt_partsFor {size i : Nat} (inside : i * partSize < size) : i < partsFor size :=
  Nat.lt_of_mul_lt_mul_right (Nat.lt_of_lt_of_le inside (partsFor_covers size))

theorem lt_partsFor_iff {size i : Nat} : i < partsFor size ↔ i * partSize < size := by
  refine ⟨fun inside => ?_, lt_partsFor⟩
  have most := ((partsFor_eq_iff size _).mp rfl).2
  have next := Nat.mul_le_mul_right partSize (Nat.succ_le_of_lt inside)
  rw [Nat.succ_mul] at next
  omega

theorem partsFor_lt {size : Nat} (few : size ≤ (2 ^ 32 - 1) * partSize) :
    partsFor size < 2 ^ 32 := by
  have most := ((partsFor_eq_iff size _).mp rfl).2
  have all : (2 ^ 32 - 1) * partSize + partSize = 2 ^ 32 * partSize :=
    (Nat.succ_mul (2 ^ 32 - 1) partSize).symm
  exact Nat.lt_of_mul_lt_mul_right
    (Nat.lt_of_lt_of_le most (all ▸ Nat.add_le_add_right few partSize))

theorem UploadMode.isResend_select (size : UInt64) (resume : Option ResumePart) :
    (select size resume).isResend = resume.isSome := by
  cases resume with
  | none => cases big : isBigFile size <;> simp [select, big, isResend]
  | some part => rfl

namespace UploadPlan

variable {size : UInt64} {resume : Option ResumePart} {freshId : Int64} {plan : UploadPlan}

theorem workers_le (plan : UploadPlan) : max plan.workerCount 1 ≤ bigFileWorkers := by
  unfold workerCount
  cases plan.mode with
  | big | small | resend _ => simp [UploadMode.workerCount, bigFileWorkers, smallFileWorkers]

/-- A plan is for a whole new file, or for a part that its file has. -/
theorem make_cases (made : make size resume freshId = .ok plan) :
    resume = none ∧ plan = ⟨freshId, size, ChunkedUpload.totalParts size,
      if isBigFile size then .big else .small, 0⟩ ∨
    ∃ part, resume = some part ∧ part.part < ChunkedUpload.totalParts size ∧
      plan = ⟨part.fileId, size, ChunkedUpload.totalParts size, .resend (isBigFile size),
        part.part⟩ := by
  unfold make at made
  cases resume with
  | none =>
    cases made
    exact .inl ⟨rfl, rfl⟩
  | some part =>
    dsimp only at made
    split at made
    · contradiction
    · rename_i inside
      cases made
      exact .inr ⟨part, rfl, UInt32.not_le.mp inside, rfl⟩

theorem make_mode (made : make size resume freshId = .ok plan) :
    plan.mode = UploadMode.select size resume := by
  obtain ⟨rfl, rfl⟩ | ⟨_, rfl, _, rfl⟩ := make_cases made <;> rfl

theorem make_fileSize (made : make size resume freshId = .ok plan) : plan.fileSize = size := by
  obtain ⟨_, rfl⟩ | ⟨_, _, _, rfl⟩ := make_cases made <;> rfl

theorem make_totalParts (made : make size resume freshId = .ok plan) :
    plan.totalParts = ChunkedUpload.totalParts size := by
  obtain ⟨_, rfl⟩ | ⟨_, _, _, rfl⟩ := make_cases made <;> rfl

theorem make_startPart_lt (made : make size resume freshId = .ok plan)
    (resend : plan.mode.isResend = true) : plan.startPart < plan.totalParts := by
  obtain ⟨rfl, _⟩ | ⟨_, _, inside, rfl⟩ := make_cases made
  · rw [make_mode made, UploadMode.isResend_select] at resend
    contradiction
  · exact inside

theorem make_whole (made : make size resume freshId = .ok plan)
    (whole : plan.mode.isResend = false) :
    resume = none ∧ plan = ⟨freshId, size, ChunkedUpload.totalParts size,
      if isBigFile size then .big else .small, 0⟩ := by
  rcases make_cases made with new | ⟨_, _, _, rfl⟩
  · exact new
  · contradiction

theorem reference_eq {name : String} {checksum : Option String} {reference : FileReference}
    (given : plan.reference name checksum = some reference) :
    plan.mode.isResend = false ∧ reference.fileId = plan.fileId ∧
    reference.parts = plan.totalParts ∧ reference.name = name := by
  unfold UploadPlan.reference at given
  split at given
  · rename_i mode
    cases given
    exact ⟨by rw [mode]; rfl, rfl, rfl, rfl⟩
  · rename_i mode
    cases given
    exact ⟨by rw [mode]; rfl, rfl, rfl, rfl⟩
  · contradiction

end UploadPlan

end ChunkedUpload
