import ChunkedUpload.Checksum
import Mathlib.Data.List.Basic

/-! The checksum of a file that is fed piece by piece is that of the whole. A block is folded in by
the bytes it covers, wherever these stand, so that the blocks of a message may be taken from the
pieces in which it comes. -/
namespace ChunkedUpload

namespace Md5

/-- From these places on, so many bytes of the one are those of the other. -/
def SameBytes (a : ByteArray) (s : Nat) (b : ByteArray) (t count : Nat) : Prop :=
  ∀ i < count, byteAt a (s + i) = byteAt b (t + i)

section Same

variable {a b : ByteArray} {s t count : Nat}

theorem SameBytes.inner (same : SameBytes a s b t count) (skip less : Nat)
    (inside : skip + less ≤ count) : SameBytes a (s + skip) b (t + skip) less := by
  intro i below
  have here := same (skip + i) (by omega)
  rwa [← Nat.add_assoc, ← Nat.add_assoc] at here

theorem wordAt_congr (same : SameBytes a s b t 4) : wordAt a s = wordAt b t := by
  have first := same 0 (by decide)
  rw [Nat.add_zero, Nat.add_zero] at first
  rw [wordAt, wordAt, first, same 1 (by decide), same 2 (by decide), same 3 (by decide)]

theorem mix_lt (step : Nat) (b c d : UInt32) : (mix step b c d).2 < 16 := by
  unfold mix
  split
  · rename_i first
    dsimp only
    omega
  · exact Nat.mod_lt _ (by decide)
  · exact Nat.mod_lt _ (by decide)
  · exact Nat.mod_lt _ (by decide)

theorem steps_congr (same : SameBytes a s b t 64) (count : Nat) (state : State) :
    steps a s count state = steps b t count state := by
  induction count generalizing state with
  | zero => rfl
  | succ count ih =>
    obtain ⟨x, y, z, w⟩ := state
    have inside := mix_lt (63 - count) y z w
    have equal := wordAt_congr (same.inner (4 * (mix (63 - count) y z w).2) 4 (by omega))
    simp only [steps, equal, ih]

theorem compress_congr (same : SameBytes a s b t 64) (state : State) :
    compress a s state = compress b t state := by
  rw [compress, compress, steps_congr same]

end Same

/-- Blocks of 64 bytes, from `start` on, folded by a function of their place. -/
def foldBlocks {S : Type} (fold : Nat → S → S) (start : Nat) : Nat → S → S
  | 0, state => state
  | count + 1, state => foldBlocks fold (start + 64) count (fold start state)

theorem foldBlocks_add {S : Type} (fold : Nat → S → S) (start first second : Nat) (state : S) :
    foldBlocks fold start (first + second) state =
      foldBlocks fold (start + 64 * first) second (foldBlocks fold start first state) := by
  induction first generalizing start state with
  | zero => rw [Nat.zero_add, Nat.mul_zero, Nat.add_zero, foldBlocks]
  | succ first ih =>
    have next : start + 64 * (first + 1) = start + 64 + 64 * first := by omega
    rw [Nat.succ_add, foldBlocks, foldBlocks, ih, next]

theorem foldBlocks_congr {S : Type} {fold other : Nat → S → S} {s t count : Nat}
    (same : ∀ i < count, fold (s + 64 * i) = other (t + 64 * i)) (state : S) :
    foldBlocks fold s count state = foldBlocks other t count state := by
  induction count generalizing s t state with
  | zero => rfl
  | succ count ih =>
    have first := same 0 (Nat.succ_pos count)
    have rest : ∀ i < count, fold (s + 64 + 64 * i) = other (t + 64 + 64 * i) := by
      intro i below
      have here := same (i + 1) (Nat.succ_lt_succ below)
      rwa [Nat.mul_succ, Nat.add_comm (64 * i), ← Nat.add_assoc, ← Nat.add_assoc] at here
    rw [Nat.mul_zero, Nat.add_zero, Nat.add_zero] at first
    rw [foldBlocks, foldBlocks, first, ih rest]

/-- Stated apart from the compression, so that nothing tries to compute it. -/
theorem absorb_eq (bytes : ByteArray) : absorb bytes = foldBlocks (compress bytes) := by
  delta absorb foldBlocks
  rfl

theorem absorb_add (bytes : ByteArray) (start first second : Nat) (state : State) :
    absorb bytes start (first + second) state =
      absorb bytes (start + 64 * first) second (absorb bytes start first state) := by
  rw [absorb_eq, foldBlocks_add]

theorem absorb_congr {a b : ByteArray} {s t count : Nat} (same : SameBytes a s b t (64 * count))
    (state : State) : absorb a s count state = absorb b t count state := by
  rw [absorb_eq, absorb_eq]
  apply foldBlocks_congr
  intro i below
  funext state
  exact compress_congr (same.inner (64 * i) 64 (by omega)) state

theorem byteAt_append_left {a b : ByteArray} {i : Nat} (inside : i < a.size) :
    byteAt (a ++ b) i = byteAt a i := by
  have both : i < (a ++ b).size := by
    rw [ByteArray.size_append]
    omega
  rw [byteAt, byteAt, dif_pos both, dif_pos inside, ByteArray.getElem_append_left]

theorem byteAt_append_right {a b : ByteArray} (i : Nat) :
    byteAt (a ++ b) (a.size + i) = byteAt b i := by
  by_cases inside : i < b.size
  · have both : a.size + i < (a ++ b).size := by
      rw [ByteArray.size_append]
      omega
    rw [byteAt, byteAt, dif_pos both, dif_pos inside, ByteArray.getElem_append_right (by omega)]
    congr 1
    omega
  · have outside : ¬ a.size + i < (a ++ b).size := by
      rw [ByteArray.size_append]
      omega
    rw [byteAt, byteAt, dif_neg outside, dif_neg inside]

/-- A message and what comes after it, cut in front of the end of the message. -/
theorem append_cut (a b : ByteArray) {cut : Nat} (inside : cut ≤ a.size) :
    a ++ b = a.extract 0 cut ++ (a.extract cut a.size ++ b) ∧ (a.extract 0 cut).size = cut := by
  constructor
  · rw [← ByteArray.append_assoc, ByteArray.extract_append_extract]
    simp [inside]
  · rw [ByteArray.size_extract]
    omega

theorem sameBytes_tail (a b : ByteArray) {cut : Nat} (inside : cut ≤ a.size) (count : Nat) :
    SameBytes (a ++ b) cut (a.extract cut a.size ++ b) 0 count := by
  obtain ⟨tail, size⟩ := append_cut a b inside
  intro i _
  rw [tail, Nat.zero_add]
  have shifted := byteAt_append_right (a := a.extract 0 cut) (b := a.extract cut a.size ++ b) i
  rwa [size] at shifted

theorem absorb_tail (message more : ByteArray) (state : State) :
    let tail := message.extract (64 * (message.size / 64)) message.size ++ more
    absorb tail 0 (tail.size / 64) (absorb message 0 (message.size / 64) state) =
      absorb (message ++ more) 0 ((message ++ more).size / 64) state := by
  intro tail
  have blocks : (message ++ more).size / 64 = message.size / 64 + tail.size / 64 := by
    simp only [tail, ByteArray.size_append, ByteArray.size_extract]
    omega
  have head : SameBytes message 0 (message ++ more) 0 (64 * (message.size / 64)) := by
    intro i below
    rw [byteAt_append_left (by omega)]
  have rest := sameBytes_tail message more (Nat.mul_div_le message.size 64)
    (64 * (tail.size / 64))
  rw [blocks, absorb_add, Nat.zero_add, absorb_congr head, absorb_congr rest]

end Md5

namespace Checksum

/-- The sum has been fed a message. -/
structure Follows (message : ByteArray) (sum : Checksum) : Prop where
  state : sum.state = Md5.absorb message 0 (message.size / 64) Md5.initial
  pending : sum.pending = message.extract (64 * (message.size / 64)) message.size
  bytes : sum.bytes = message.size

theorem empty_follows : Follows ByteArray.empty empty := ⟨rfl, rfl, rfl⟩

theorem Follows.update {message : ByteArray} {sum : Checksum} (h : Follows message sum)
    (chunk : ByteArray) : Follows (message ++ chunk) (sum.update chunk) := by
  have joined : sum.pending ++ chunk =
      message.extract (64 * (message.size / 64)) message.size ++ chunk := by rw [h.pending]
  constructor
  · rw [← Md5.absorb_tail, ← h.state, ← joined]
    rfl
  · obtain ⟨whole, size⟩ := Md5.append_cut message chunk (Nat.mul_div_le message.size 64)
    have total : (message ++ chunk).size =
        64 * (message.size / 64) + (sum.pending ++ chunk).size := by
      rw [joined]
      simp only [ByteArray.size_append, ByteArray.size_extract]
      omega
    have blocks : 64 * ((message ++ chunk).size / 64) =
        64 * (message.size / 64) + 64 * ((sum.pending ++ chunk).size / 64) := by omega
    rw [blocks, total, whole, ← joined, ByteArray.extract_append_size_add' size.symm]
    rfl
  · rw [ByteArray.size_append, ← h.bytes]
    rfl

/-- The digest of what has been fed is the digest of the message. -/
theorem Follows.hex {message : ByteArray} {sum : Checksum} (h : Follows message sum) :
    sum.hex = ofBytes message := by
  rw [ofBytes, Md5.digest, ← Md5.absorb_tail, ← h.state, ← h.pending, Checksum.hex, h.bytes]

end Checksum

end ChunkedUpload
