import ChunkedUpload.Proofs.Plan
import ChunkedUpload.Proofs.Source.Reading
import Mathlib.Logic.ExistsUnique

/-! What the parts of a plan cover. Any size above zero can be measured when a source is opened, but
the parts are counted in 32 bits. As long as the count fits, the parts cover the size and each byte
lies in one of them; beyond that the count wraps around, and every plan for the size falls short. -/
namespace ChunkedUpload

theorem partsFor_lt_iff {size : Nat} :
    partsFor size < 2 ^ 32 ↔ size ≤ (2 ^ 32 - 1) * partSize := by
  refine ⟨fun few => ?_, partsFor_lt⟩
  have most : partsFor size ≤ 2 ^ 32 - 1 := Nat.le_sub_one_of_lt few
  exact Nat.le_trans (partsFor_covers size) (Nat.mul_le_mul_right partSize most)

/-- The bytes from this part on up to the next. -/
def PartHolds (part : UInt32) (offset : Nat) : Prop :=
  part.toNat * partSize ≤ offset ∧ offset < (part.toNat + 1) * partSize

theorem partHolds_iff {part : UInt32} {offset : Nat} :
    PartHolds part offset ↔ offset / partSize = part.toNat := by
  rw [PartHolds, Nat.div_eq_iff partSize_pos, Nat.succ_mul]
  have pos := partSize_pos
  omega

namespace UploadPlan

variable {size : UInt64} {resume : Option ResumePart} {freshId : Int64} {plan : UploadPlan}

/-- All parts but the last are full, the last has a byte at least, and each byte of the file lies in
one part. -/
structure Covers (plan : UploadPlan) : Prop where
  none_idle : (plan.totalParts.toNat - 1) * partSize < plan.fileSize.toNat
  enough : plan.fileSize.toNat ≤ plan.totalParts.toNat * partSize
  one_part : ∀ offset < plan.fileSize.toNat,
    ∃! part : UInt32, part < plan.totalParts ∧ PartHolds part offset

theorem covers_of_eq (positive : 0 < plan.fileSize.toNat)
    (total : plan.totalParts.toNat = partsFor plan.fileSize.toNat) : plan.Covers := by
  obtain ⟨enough, most⟩ := (partsFor_eq_iff _ _).mp total.symm
  have some_parts : 0 < plan.totalParts.toNat := total ▸ lt_partsFor (by omega)
  refine ⟨?_, enough, fun offset inside => ?_⟩
  · rw [Nat.sub_one_mul]
    have pos := partSize_pos
    omega
  · have below : offset / partSize < plan.totalParts.toNat :=
      (Nat.div_lt_iff_lt_mul partSize_pos).mpr (Nat.lt_of_lt_of_le inside enough)
    have small := Nat.lt_trans below plan.totalParts.toNat_lt
    refine ⟨UInt32.ofNat (offset / partSize), ⟨?_, ?_⟩, fun part ⟨_, held⟩ => ?_⟩
    · rwa [UInt32.lt_iff_toNat_lt, UInt32.toNat_ofNat_of_lt' small]
    · rw [partHolds_iff, UInt32.toNat_ofNat_of_lt' small]
    · rw [partHolds_iff.mp held, UInt32.ofNat_toNat]

theorem make_counts (made : make size resume freshId = .ok plan) :
    plan.totalParts.toNat = partsFor size.toNat % 2 ^ 32 := by
  rw [make_totalParts made, toNat_totalParts]

/-- A part is sent again just in case it is below the number of parts as it is kept. -/
theorem make_again_iff {part : ResumePart} :
    (∃ plan, make size (some part) freshId = .ok plan) ↔
      part.part.toNat < partsFor size.toNat % 2 ^ 32 := by
  rw [← toNat_totalParts, ← UInt32.lt_iff_toNat_lt]
  constructor
  · rintro ⟨plan, made⟩
    obtain ⟨none, _⟩ | ⟨_, same, inside, _⟩ := make_cases made
    · contradiction
    · cases same
      exact inside
  · intro inside
    have below : ¬ ChunkedUpload.totalParts size ≤ part.part := UInt32.not_le.mpr inside
    exact ⟨_, if_neg below⟩

theorem make_covers_iff (positive : 0 < size) (made : make size resume freshId = .ok plan) :
    plan.Covers ↔ size.toNat ≤ (2 ^ 32 - 1) * partSize := by
  have total := make_counts made
  have measured := make_fileSize made
  constructor
  · intro covers
    have enough := covers.enough
    rw [measured, total] at enough
    have kept : partsFor size.toNat % 2 ^ 32 ≤ 2 ^ 32 - 1 :=
      Nat.le_sub_one_of_lt (Nat.mod_lt _ (by decide))
    exact Nat.le_trans enough (Nat.mul_le_mul_right partSize kept)
  · intro few
    rw [Nat.mod_eq_of_lt (partsFor_lt few)] at total
    exact covers_of_eq (measured ▸ UInt64.lt_iff_toNat_lt.mp positive) (measured ▸ total)

theorem again_exact_iff : (∀ fileId part freshId,
      (∃ plan, make size (some ⟨fileId, part⟩) freshId = .ok plan) ↔
        part.toNat * partSize < size.toNat) ↔
    size.toNat ≤ (2 ^ 32 - 1) * partSize := by
  simp only [make_again_iff, ← lt_partsFor_iff]
  rw [← partsFor_lt_iff]
  constructor
  · -- the first part that is refused has no byte, and it can be named with 32 bits
    intro exact_range
    have kept := Nat.mod_lt (partsFor size.toNat) (show 0 < 2 ^ 32 by decide)
    have edge := exact_range 0 (UInt32.ofNat (partsFor size.toNat % 2 ^ 32)) 0
    rw [UInt32.toNat_ofNat_of_lt' kept] at edge
    have refused := mt edge.mpr (Nat.lt_irrefl _)
    omega
  · intro few _ part _
    rw [Nat.mod_eq_of_lt few]

end UploadPlan

theorem Source.seekToPart_inside {source after : Source} {part : UInt32}
    (sought : source.seekToPart part = (.ok (), after)) :
    after.stream.position = part.toNat * partSize ∧
      after.stream.position + partSize < 2 ^ 64 := by
  rw [seekToPart_ok sought]
  have few := part.toNat_lt
  refine ⟨rfl, ?_⟩
  dsimp only
  rw [partSize]
  omega

/-- A source of this size opens under some limit, as one that holds nothing but zeros does. -/
theorem Source.opens_of_any (size : UInt64) (positive : 0 < size) :
    ∃ (stream : Stream) (limit : SizeLimit) (source : Source),
      (ofInput FileSystem.empty (.stream stream none) limit.bytes).1 = .ok source ∧
        source.size = size := by
  let stream := Stream.ofContent ⟨size.toNat, fun _ => 0⟩
  have reported : stream.reportedSize = size := UInt64.ofNat_toNat
  have some_bytes : stream.reportedSize ≠ 0 := by
    rw [reported]
    exact UInt64.pos_iff_ne_zero.mp positive
  have within : stream.reportedSize ≤ (SizeLimit.fixed size).bytes := by
    rw [reported]
    exact UInt64.le_refl size
  exact ⟨stream, .fixed size, _, ofStream_opens (fun _ => rfl) some_bytes within _ _, reported⟩

/-- What holds of the plans for a size. A source of any size above zero can be opened, and the
number of its parts is kept modulo `2 ^ 32`. So long as that many parts can be counted, the parts
that can be sent again are those that have a byte, and the parts of every plan cover the file; for
any larger size both are wrong. The beginning of a part never overflows. -/
theorem plan_covers_iff (size : UInt64) (positive : 0 < size) :
    (∃ (stream : Stream) (limit : SizeLimit) (source : Source),
      (Source.ofInput FileSystem.empty (.stream stream none) limit.bytes).1 = .ok source ∧
        source.size = size) ∧
    (∀ fileId part freshId,
      (∃ plan, UploadPlan.make size (some ⟨fileId, part⟩) freshId = .ok plan) ↔
        part.toNat < partsFor size.toNat % 2 ^ 32) ∧
    ((∀ fileId part freshId,
        (∃ plan, UploadPlan.make size (some ⟨fileId, part⟩) freshId = .ok plan) ↔
          part.toNat * partSize < size.toNat) ↔
      size.toNat ≤ (2 ^ 32 - 1) * partSize) ∧
    (∀ resume freshId plan, UploadPlan.make size resume freshId = .ok plan →
      plan.totalParts.toNat = partsFor size.toNat % 2 ^ 32 ∧
      (plan.Covers ↔ size.toNat ≤ (2 ^ 32 - 1) * partSize)) ∧
    ∀ (source after : Source) (part : UInt32), source.seekToPart part = (.ok (), after) →
      after.stream.position = part.toNat * partSize ∧ after.stream.position + partSize < 2 ^ 64 :=
  ⟨Source.opens_of_any size positive, fun _ _ _ => UploadPlan.make_again_iff,
    UploadPlan.again_exact_iff, fun _ _ _ made =>
      ⟨UploadPlan.make_counts made, UploadPlan.make_covers_iff positive made⟩,
    fun _ _ _ => Source.seekToPart_inside⟩

/-- Two full parts and a byte: the third part can be sent again. -/
theorem third_part_covered : (0 : UInt64) < 1048577 ∧
    ∃ plan, UploadPlan.make 1048577 (some ⟨7, 2⟩) 0 = .ok plan ∧ plan.Covers := by
  obtain ⟨_, _, again, covered, _⟩ := plan_covers_iff 1048577 (by decide)
  obtain ⟨plan, made⟩ := (again.mpr (by decide) 7 2 0).mpr (by decide)
  exact ⟨by decide, plan, made, (covered _ _ _ made).2.mpr (by decide)⟩

/-- One byte more than `2 ^ 32 - 1` full parts: a plan has no part for any of them, and not even the
first can be sent again. -/
theorem vast_file_without_parts :
    let size : UInt64 := 2251799813160961
    (∃ (stream : Stream) (limit : SizeLimit) (source : Source),
      (Source.ofInput FileSystem.empty (.stream stream none) limit.bytes).1 = .ok source ∧
        source.size = size) ∧
    (0 : UInt32).toNat * partSize < size.toNat ∧
    UploadPlan.make size (some ⟨7, 0⟩) 1 = .error (.invalidInput (.partOutOfRange 0 0)) ∧
    ∃ plan, UploadPlan.make size none 1 = .ok plan ∧ plan.totalParts = 0 := by
  intro size
  exact ⟨Source.opens_of_any size (by decide), by decide, by decide, _, rfl, by decide⟩

end ChunkedUpload
