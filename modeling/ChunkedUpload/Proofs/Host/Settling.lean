import ChunkedUpload.Host
import ChunkedUpload.Proofs.Admission
import ChunkedUpload.Proofs.Uploaders.Steps

/-! How a host comes to rest. It makes its moves one by one till nothing moves, and as long as there
are few enough of them it does not stop before. Where there is a single call, the next move is known
from what its workers, its session and its provider have to do. -/
namespace ChunkedUpload

namespace Host

/-- So many moves lead from one host to another, at which nothing moves. -/
inductive Settles : Nat → Host → Host → Prop
  | rest {host : Host} (still : host.advance? = none) : Settles 0 host host
  | move {count : Nat} {host next last : Host} (advances : host.advance? = some next)
      (later : Settles count next last) : Settles (count + 1) host last

theorem Settles.within {count fuel : Nat} {host last : Host} (settles : Settles count host last)
    (enough : count ≤ fuel) : host.settleWithin fuel = last := by
  induction settles generalizing fuel with
  | rest still =>
    cases fuel with
    | zero => rfl
    | succ fuel => rw [settleWithin, still]
  | move advances _ ih =>
    obtain ⟨fuel, rfl⟩ := Nat.exists_eq_add_of_le' (Nat.le_trans (Nat.le_add_left 1 _) enough)
    rw [settleWithin, advances]
    exact ih (Nat.le_of_add_le_add_right enough)

/-- A single call may make many more moves than it takes to send one part. -/
theorem Settles.settle {count : Nat} {host last : Host} (settles : Settles count host last)
    (few : count ≤ 200) {id : Nat} {call : SaveCall} (only : host.all.calls = [(id, call)]) :
    host.settle = last := by
  refine settles.within (Nat.le_trans few ?_)
  have enough : ∀ size, 200 ≤ callMoves size := fun size =>
    Nat.mul_le_mul_left 10 (Nat.le_add_left 20 (size / partSize))
  simp only [moveBound, only, List.map_cons, List.map_nil, List.foldl_cons, List.foldl_nil]
  rw [Nat.zero_add, Nat.add_assoc]
  split <;> exact Nat.le_trans (enough _) (Nat.le_add_right _ _)

end Host

/-- One call on the only uploader. -/
def Uploaders.single (limiter : Admission) (resends : List Nat) (waits : List (Nat × ResendWait))
    (upload : Upload) : Uploaders := ⟨[limiter], [⟨0, resends⟩], [(0, ⟨0, upload⟩)], waits⟩

namespace Host

section Moves

variable {store : Store} {files after : FileSystem} {limiter : Admission} {resends : List Nat}
  {waits : List (Nat × ResendWait)} {provider : Provider} {inFlight : List (Nat × Nat)}
  {seen : List (Nat × Event)} {delivered : List Int64} {upload next : Upload} {move : Move}
  {events : List Event} {slots : Nat}

/-- Where no worker and no session has anything to do, the call moves. -/
theorem advance_own {host next : Host} {call : SaveCall} (only : host.all.calls = [(0, call)])
    (idle : host.inFlight = [])
    (untaken : (List.range (workerCount call)).findSome? (host.take? 0) = none)
    (quiet : host.provider.advance? = none) (own : host.nextMove? 0 call = some move)
    (moved : host.move? 0 move = some next) : host.advance? = some next := by
  simp [advance?, only, idle, untaken, quiet, produce?, own, moved]

/-- The session answers before anything else happens. -/
theorem advance_answer {host told last : Host} {request : PartRequest} {reply : Reply}
    (busy : host.inFlight = [(0, 0)]) (asked : host.sending? 0 0 = some request)
    (answer : host.reply? request = some (reply, told))
    (moved : told.move? 0 (.finish 0 reply) = some last) :
    host.advance? = some { last with inFlight := last.inFlight.erase (0, 0) } := by
  simp [advance?, busy, finish?, asked, answer, moved]

/-- A move of the call, as long as it brings no answer. -/
theorem move_single (held : move = .enter → 0 ∈ limiter.holders)
    (stepped : upload.step? move = some (next, events))
    (same : (upload.result.isNone && next.result.isSome) = false) :
    (⟨.single limiter resends waits upload, files, .store store, provider, inFlight, seen,
      delivered⟩ : Host).move? 0 move =
    some (events.foldl (fun host event => host.heed 0 event)
      ⟨.single limiter resends waits next, files, .store store, provider, inFlight, seen,
        delivered⟩) := by
  have found : (Uploaders.single limiter resends waits upload).call? 0 = some ⟨0, upload⟩ := rfl
  have limited : (Uploaders.single limiter resends waits upload).limiter? 0 = some limiter := rfl
  have moved := Uploaders.step?_move found limited held stepped
  rw [if_neg (by simp [same])] at moved
  rw [move?, act?, moved]
  rfl

/-- The move that brings the answer gives the only slot back. -/
theorem answer_single (held : move ≠ .enter)
    (stepped : upload.step? move = some (next, events))
    (answered : (upload.result.isNone && next.result.isSome) = true) :
    (⟨.single ⟨slots + 1, slots, [0], []⟩ [] [] upload, files, .store store, provider, inFlight,
      seen, delivered⟩ : Host).move? 0 move =
    some (events.foldl (fun host event => host.heed 0 event)
      ⟨.single ⟨slots + 1, slots + 1, [], []⟩ (if Uploaders.queuedResend next then [0] else []) []
        next, files, .store store, provider, inFlight, seen, delivered⟩) := by
  have found : (Uploaders.single ⟨slots + 1, slots, [0], []⟩ [] [] upload).call? 0 =
      some ⟨0, upload⟩ := rfl
  have limited : (Uploaders.single ⟨slots + 1, slots, [0], []⟩ [] [] upload).limiter? 0 =
      some ⟨slots + 1, slots, [0], []⟩ := rfl
  have moved := Uploaders.step?_move found limited (fun enters => absurd enters held) stepped
  rw [if_pos answered] at moved
  rw [move?, act?, moved, ← Admission.leave_of_only slots 0, Uploaders.settleResult]
  split
  · rfl
  · rfl

end Moves

end Host

end ChunkedUpload
