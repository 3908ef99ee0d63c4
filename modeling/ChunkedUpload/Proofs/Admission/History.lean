import ChunkedUpload.Proofs.Admission
import ChunkedUpload.Proofs.Run

/-! The history of a limiter: who has come, who has been given a slot, who has given it back, and
who has gone away without one. All of it is read off the limiter before and after each act. Slots
are given in the order of arrival, past those who have gone away. -/
namespace ChunkedUpload

inductive AdmissionAct
  | acquire (id : Nat)
  | release (id : Nat)
  /-- Gives up waiting. -/
  | cancel (id : Nat)
  /-- Goes away, also if a slot has just been given to it. -/
  | leave (id : Nat)

def AdmissionAct.arrives? : AdmissionAct → Option Nat
  | acquire id => some id
  | release _ | cancel _ | leave _ => none

inductive AdmissionSight
  | arrived (id : Nat)
  | withdrawn (id : Nat)
  | released (id : Nat)
  | granted (id : Nat)
deriving DecidableEq

namespace AdmissionSight

def arrived? : AdmissionSight → Option Nat
  | arrived id => some id
  | _ => none

def withdrawn? : AdmissionSight → Option Nat
  | withdrawn id => some id
  | _ => none

def released? : AdmissionSight → Option Nat
  | released id => some id
  | _ => none

def granted? : AdmissionSight → Option Nat
  | granted id => some id
  | _ => none

end AdmissionSight

namespace Admission

def act (limiter : Admission) : AdmissionAct → Admission
  | .acquire id => limiter.request id
  | .release id => limiter.release id
  | .cancel id => limiter.cancel id
  | .leave id => limiter.leave id

/-- What has changed from one limiter to the next. -/
def changes (before after : Admission) : List AdmissionSight :=
  (before.waiting.filter (· ∉ after.line)).map .withdrawn ++
  (before.holders.filter (· ∉ after.holders)).map .released ++
  (after.holders.filter (· ∉ before.holders)).map .granted

def step? (limiter : Admission) (what : AdmissionAct) :
    Option (Admission × List AdmissionSight) :=
  some (limiter.act what,
    what.arrives?.toList.map .arrived ++ limiter.changes (limiter.act what))

section Act

variable {limiter next : Admission} {id : Nat} {what : AdmissionAct} {stays : Nat → Bool}
  {new : List Nat}

/-- An act lets those who stay in the line stand as they stood, and a new one at its end. -/
theorem Sound.act (sound : limiter.Sound) (what : AdmissionAct)
    (new : ∀ id, what.arrives? = some id → id ∉ limiter.line) :
    (limiter.act what).Sound ∧ ∃ stays : Nat → Bool,
      (limiter.act what).line = limiter.line.filter stays ++ what.arrives?.toList := by
  cases what with
  | acquire id =>
    refine ⟨sound.request (new id rfl), fun _ => true, ?_⟩
    rw [List.filter_true]
    exact limiter.line_request id
  | release id =>
    by_cases held : id ∈ limiter.holders
    · obtain ⟨released, line⟩ := sound.release held
      refine ⟨released, (· != id), ?_⟩
      rw [← sound.once.erase_eq_filter id]
      exact line.trans (List.append_nil _).symm
    · have same : limiter.act (.release id) = limiter := if_neg held
      rw [same]
      exact ⟨sound, fun _ => true, by rw [List.filter_true]; exact (List.append_nil _).symm⟩
  | cancel id =>
    by_cases held : id ∈ limiter.holders
    · -- whoever holds a slot does not wait
      have unwaiting : id ∉ limiter.waiting := fun waits =>
        (List.nodup_append.mp sound.once).2.2 id held id waits rfl
      have same : limiter.act (.cancel id) = limiter.settle := by
        simp only [Admission.act, Admission.cancel, List.erase_of_not_mem unwaiting]
      rw [same]
      refine ⟨sound_settle sound.once sound.slots, fun _ => true, ?_⟩
      rw [line_settle, List.filter_true]
      exact (List.append_nil _).symm
    · obtain ⟨cancelled, line⟩ := sound.cancel held
      refine ⟨cancelled, (· != id), ?_⟩
      rw [← sound.once.erase_eq_filter id]
      exact line.trans (List.append_nil _).symm
  | leave id =>
    obtain ⟨left, line⟩ := sound.leave id
    refine ⟨left, (· != id), ?_⟩
    rw [← sound.once.erase_eq_filter id]
    exact line.trans (List.append_nil _).symm

theorem max_request (limiter : Admission) (id : Nat) : (limiter.request id).max = limiter.max := rfl

theorem max_release (limiter : Admission) (id : Nat) :
    (limiter.release id).max = limiter.max := by
  unfold release
  split <;> rfl

theorem max_leave (limiter : Admission) (id : Nat) : (limiter.leave id).max = limiter.max :=
  max_release limiter id

theorem max_act (limiter : Admission) (what : AdmissionAct) :
    (limiter.act what).max = limiter.max := by
  cases what with
  | acquire id | cancel id => rfl
  | release id => exact max_release limiter id
  | leave id => exact max_leave limiter id

/-- The line alone decides who is given a slot: those who hold one keep it, and the first of those
who wait get the others. -/
theorem Sound.granted (sound : limiter.Sound) (after : next.Sound) (max : next.max = limiter.max)
    (line : next.line = limiter.line.filter stays ++ new) :
    ∃ granted, next.holders = limiter.holders.filter stays ++ granted ∧
      limiter.waiting.filter stays ++ new = granted ++ next.waiting := by
  rw [Admission.line, Admission.line, List.filter_append, List.append_assoc] at line
  have fewer := List.length_filter_le stays limiter.holders
  have slots := sound.slots
  have slots' := after.slots
  rcases List.append_eq_append_iff.mp line with ⟨rest, held, waits⟩ | ⟨granted, held, waits⟩
  · -- nobody who stays loses a slot
    have none_lost : rest = [] := by
      rcases after.settled with full | nobody
      · have length := congrArg List.length held
        rw [List.length_append] at length
        exact List.eq_nil_of_length_eq_zero (by omega)
      · rw [nobody] at waits
        exact (List.append_eq_nil_iff.mp waits.symm).1
    subst none_lost
    rw [List.append_nil] at held
    exact ⟨[], by rw [held, List.append_nil], waits.symm⟩
  · exact ⟨granted, held, waits⟩

/-- What is seen to change when some stay and others are given slots. -/
theorem Sound.changes {granted : List Nat} (sound : limiter.Sound)
    (apart : ∀ id ∈ new, id ∉ limiter.line)
    (held : next.holders = limiter.holders.filter stays ++ granted)
    (waits : limiter.waiting.filter stays ++ new = granted ++ next.waiting) :
    limiter.changes next = (limiter.waiting.filter fun id => !stays id).map .withdrawn ++
      (limiter.holders.filter fun id => !stays id).map .released ++ granted.map .granted := by
  obtain ⟨_, _, disjoint⟩ := List.nodup_append.mp sound.once
  have given : ∀ id ∈ granted, id ∉ limiter.holders := by
    intro id member holds
    have source : id ∈ limiter.waiting.filter stays ++ new := by
      rw [waits]
      exact List.mem_append_left _ member
    rcases List.mem_append.mp source with waited | came
    · exact disjoint id holds id (List.mem_of_mem_filter waited) rfl
    · exact apart id came (mem_line.mpr (.inl holds))
  have line : ∀ id ∈ limiter.waiting, id ∈ next.line ↔ stays id = true := by
    intro id waiting
    have unheld : id ∉ limiter.holders := fun holds => disjoint id holds id waiting rfl
    have stands : next.line =
        limiter.holders.filter stays ++ (limiter.waiting.filter stays ++ new) := by
      rw [Admission.line, held, waits, List.append_assoc]
    rw [stands, List.mem_append, List.mem_append, List.mem_filter, List.mem_filter]
    constructor
    · rintro (⟨holds, _⟩ | ⟨_, still⟩ | came)
      · exact absurd holds unheld
      · exact still
      · exact absurd (mem_line.mpr (.inr waiting)) (apart id came)
    · exact fun still => .inr (.inl ⟨waiting, still⟩)
  have holders : ∀ id ∈ limiter.holders, id ∈ next.holders ↔ stays id = true := by
    intro id holds
    rw [held, List.mem_append, List.mem_filter]
    constructor
    · rintro (⟨_, still⟩ | got)
      · exact still
      · exact absurd holds (given id got)
    · exact fun still => .inl ⟨holds, still⟩
  have fresh : next.holders.filter (· ∉ limiter.holders) = granted := by
    rw [held, List.filter_append, List.filter_filter, List.filter_eq_nil_iff.mpr,
      List.filter_eq_self.mpr, List.nil_append]
    · exact fun id member => decide_eq_true (given id member)
    · intro id holds
      simp [holds]
  rw [Admission.changes, fresh]
  congr 3
  · exact List.filter_congr fun id member => by simp [line id member]
  · exact List.filter_congr fun id member => by simp [holders id member]

end Act

/-- What the history tells of a limiter. -/
structure Told (size : Nat) (sights : List AdmissionSight) (limiter : Admission) : Prop where
  sound : limiter.Sound
  max : limiter.max = size
  order : (sights.filterMap AdmissionSight.arrived?).filter
      (· ∉ sights.filterMap AdmissionSight.withdrawn?) =
    sights.filterMap AdmissionSight.granted? ++ limiter.waiting
  held : limiter.holders = (sights.filterMap AdmissionSight.granted?).filter
      (· ∉ sights.filterMap AdmissionSight.released?)
  arrived : ∀ id ∈ sights.filterMap AdmissionSight.withdrawn?,
    id ∈ sights.filterMap AdmissionSight.arrived?
  granted : ∀ id ∈ sights.filterMap AdmissionSight.released?,
    id ∈ sights.filterMap AdmissionSight.granted?

section Lists

variable {xs ys zs : List Nat} {stays : Nat → Bool}

theorem filter_notMem (apart : ∀ id ∈ xs, id ∉ ys) : xs.filter (· ∉ ys) = xs :=
  List.filter_eq_self.mpr fun id member => decide_eq_true (apart id member)

theorem filter_notMem_append (xs ys zs : List Nat) :
    xs.filter (· ∉ ys ++ zs) = (xs.filter (· ∉ ys)).filter (· ∉ zs) := by
  rw [List.filter_filter]
  refine List.filter_congr fun id _ => ?_
  rw [Bool.and_comm]
  simp [not_or]

theorem filter_notMem_filter (xs : List Nat) (stays : Nat → Bool) :
    xs.filter (· ∉ xs.filter fun id => !stays id) = xs.filter stays := by
  refine List.filter_congr fun id member => ?_
  simp [List.mem_filter, member]

/-- The order of arrival, when some of those who wait go, others come, and the first are served. -/
theorem order_next {arrived withdrawn granted waiting new got later : List Nat}
    (order : arrived.filter (· ∉ withdrawn) = granted ++ waiting) (once : (arrived ++ new).Nodup)
    (known : ∀ id ∈ withdrawn, id ∈ arrived)
    (waits : waiting.filter stays ++ new = got ++ later) :
    (arrived ++ new).filter (· ∉ withdrawn ++ waiting.filter fun id => !stays id) =
      granted ++ got ++ later := by
  obtain ⟨first, _, apart⟩ := List.nodup_append.mp once
  have before : (granted ++ waiting).Nodup := order ▸ first.filter _
  have waited : ∀ id ∈ waiting, id ∈ arrived := fun id member =>
    (List.mem_filter.mp (order ▸ List.mem_append_right granted member)).1
  have kept : granted.filter (· ∉ waiting.filter fun id => !stays id) = granted :=
    filter_notMem fun id got waits =>
      (List.nodup_append.mp before).2.2 id got id (List.mem_filter.mp waits).1 rfl
  have come : new.filter (· ∉ withdrawn ++ waiting.filter fun id => !stays id) = new := by
    refine filter_notMem fun id now gone => ?_
    rcases List.mem_append.mp gone with early | late
    · exact apart id (known id early) id now rfl
    · exact apart id (waited id (List.mem_filter.mp late).1) id now rfl
  rw [List.filter_append, come, filter_notMem_append, order, List.filter_append, kept,
    filter_notMem_filter, List.append_assoc, waits, List.append_assoc]

/-- Who holds a slot, when some give theirs back and others get one. -/
theorem held_next {holders granted released got : List Nat}
    (held : holders = granted.filter (· ∉ released)) (once : (granted ++ got).Nodup)
    (known : ∀ id ∈ released, id ∈ granted) :
    holders.filter stays ++ got =
      (granted ++ got).filter (· ∉ released ++ holders.filter fun id => !stays id) := by
  obtain ⟨_, _, apart⟩ := List.nodup_append.mp once
  have given : got.filter (· ∉ released ++ holders.filter fun id => !stays id) = got := by
    refine filter_notMem fun id now gone => ?_
    rcases List.mem_append.mp gone with early | late
    · exact apart id (known id early) id now rfl
    · have holds := (List.mem_filter.mp late).1
      rw [held, List.mem_filter] at holds
      exact apart id holds.1 id now rfl
  rw [List.filter_append, given, filter_notMem_append, ← held, filter_notMem_filter]

end Lists

section Run

variable {size : Nat} {sights seen : List AdmissionSight} {limiter next : Admission}
  {what : AdmissionAct}

theorem make?_told {slots : Nat} (made : make? slots = some limiter) :
    Told (Nat.max slots 1) [] limiter := by
  obtain ⟨sound, _⟩ := make?_sound made
  unfold make? at made
  dsimp only at made
  split at made
  · contradiction
  · cases made
    exact ⟨sound, rfl, rfl, rfl, by simp, by simp⟩

theorem Told.granted_arrived (told : Told size sights limiter) {id : Nat}
    (granted : id ∈ sights.filterMap AdmissionSight.granted?) :
    id ∈ sights.filterMap AdmissionSight.arrived? := by
  have came := List.mem_append_left limiter.waiting granted
  rw [← told.order, List.mem_filter] at came
  exact came.1

theorem Told.line_arrived (told : Told size sights limiter) {id : Nat}
    (stands : id ∈ limiter.line) : id ∈ sights.filterMap AdmissionSight.arrived? := by
  rcases Admission.mem_line.mp stands with holds | waits
  · rw [told.held, List.mem_filter] at holds
    exact told.granted_arrived holds.1
  · have came := List.mem_append_right (sights.filterMap AdmissionSight.granted?) waits
    rw [← told.order, List.mem_filter] at came
    exact came.1

/-- Those who come, go without a slot, give one back and get one in one act. -/
theorem filterMap_sights (new gone back got : List Nat) :
    let seen := new.map AdmissionSight.arrived ++
      (gone.map .withdrawn ++ back.map .released ++ got.map .granted)
    seen.filterMap AdmissionSight.arrived? = new ∧
    seen.filterMap AdmissionSight.withdrawn? = gone ∧
    seen.filterMap AdmissionSight.released? = back ∧
    seen.filterMap AdmissionSight.granted? = got := by
  simp [List.filterMap_map, Function.comp_def, AdmissionSight.arrived?, AdmissionSight.withdrawn?,
    AdmissionSight.released?, AdmissionSight.granted?]

theorem Told.step (told : Told size sights limiter)
    (stepped : limiter.step? what = some (next, seen))
    (once : ((sights ++ seen).filterMap AdmissionSight.arrived?).Nodup) :
    Told size (sights ++ seen) next := by
  cases stepped
  rw [List.filterMap_append, changes, (filterMap_sights _ _ _ _).1] at once
  have apart : ∀ id ∈ what.arrives?.toList, id ∉ limiter.line := fun id new stands =>
    (List.nodup_append.mp once).2.2 id (told.line_arrived stands) id new rfl
  obtain ⟨sound, stays, line⟩ := told.sound.act what fun id new => apart id (by simp [new])
  obtain ⟨got, held, waits⟩ := told.sound.granted sound (max_act _ _) line
  have order := order_next told.order once told.arrived waits
  have given : (sights.filterMap AdmissionSight.granted? ++ got).Nodup := by
    have whole := once.filter (· ∉ sights.filterMap AdmissionSight.withdrawn? ++
      limiter.waiting.filter fun id => !stays id)
    rw [order] at whole
    exact (List.nodup_append.mp whole).1
  rw [told.sound.changes apart held waits]
  obtain ⟨arrived, withdrawn, released, granted⟩ := filterMap_sights what.arrives?.toList
    (limiter.waiting.filter fun id => !stays id) (limiter.holders.filter fun id => !stays id) got
  constructor
  · exact sound
  · exact (max_act _ _).trans told.max
  · simp only [List.filterMap_append, arrived, withdrawn, granted]
    exact order
  · simp only [List.filterMap_append, released, granted, held]
    exact held_next told.held given told.granted
  · simp only [List.filterMap_append, arrived, withdrawn, List.mem_append]
    rintro id (earlier | now)
    · exact .inl (told.arrived id earlier)
    · exact .inl (told.line_arrived (Admission.mem_line.mpr (.inr (List.mem_filter.mp now).1)))
  · simp only [List.filterMap_append, released, granted, List.mem_append]
    rintro id (earlier | now)
    · exact .inl (told.granted id earlier)
    · have holds := (List.mem_filter.mp now).1
      rw [told.held, List.mem_filter] at holds
      exact .inl holds.1

/-- As long as everybody comes under a number of their own, the history tells of the limiter. -/
theorem run_told {slots : Nat} {first last : Admission} {acts : List AdmissionAct}
    (made : make? slots = some first) (run : runSteps? step? first acts = some (last, sights))
    (once : (sights.filterMap AdmissionSight.arrived?).Nodup) :
    Told (Nat.max slots 1) sights last := by
  have kept : StepKeeps step? (fun past limiter =>
      (past.filterMap AdmissionSight.arrived?).Nodup → Told (Nat.max slots 1) past limiter)
      (fun _ => True) := by
    intro past limiter act next seen told _ stepped once
    have earlier : (past.filterMap AdmissionSight.arrived?).Nodup := by
      rw [List.filterMap_append] at once
      exact (List.nodup_append.mp once).1
    exact (told earlier).step stepped once
  exact run_holds kept acts _ _ _ (fun _ => make?_told made) (fun _ _ => trivial) run once

end Run

end Admission

end ChunkedUpload
