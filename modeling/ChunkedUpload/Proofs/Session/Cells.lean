import ChunkedUpload.Proofs.Keys
import ChunkedUpload.Proofs.Run
import ChunkedUpload.Session.Cells

/-! What one move of the calls for sessions can be, and what all moves keep: each endpoint has one
cell, nobody has the permit of a cell with a session, and a call is in one place before it comes to
its cell. The calls cannot move forever unless somebody acts, and where they stand still the map is
free and every line is behind a creation for its own endpoint. -/
namespace ChunkedUpload

variable {ε : Type}

/-- A move that a call makes by itself. -/
def SessionMove.IsInner : SessionMove ε → Prop
  | lock | lookUp | reach .. | create _ | serve .. => True
  | come .. | complete .. | abort _ => False

namespace SessionCalls

open SessionCache (Notice)

variable {calls next : SessionCalls} {move : SessionMove ε} {sights : List (Notice ε)}
  {endpoint : Int32} {caller : Nat}

section Cells

variable (calls endpoint)

theorem cell_setCell (cell : SessionCell) (other : Int32) :
    (calls.setCell endpoint cell).cell other =
      if other = endpoint then cell else calls.cell other := by
  rw [SessionCalls.cell, setCell, List.lookup_cons, lookup_filter_ne]
  by_cases here : other = endpoint
  · rw [if_pos here, if_pos here, here, beq_self_eq_true]
    rfl
  · rw [if_neg here, if_neg here, beq_false_of_ne here]
    rfl

theorem cell_setCell_self (other : Int32) :
    (calls.setCell endpoint (calls.cell endpoint)).cell other = calls.cell other := by
  rw [cell_setCell]
  split
  · subst other
    rfl
  · rfl

theorem cell_without (caller : Nat) :
    (calls.without caller).cell endpoint = (calls.cell endpoint).without caller := by
  rw [SessionCalls.cell, without, SessionCalls.cell,
    lookup_map_value calls.cells fun _ cell => cell.without caller]
  cases calls.cells.lookup endpoint <;> rfl

/-- How many wait at the cells. -/
def inLine (cells : List (Int32 × SessionCell)) : Nat :=
  (cells.map fun entry => entry.2.line.length).sum

variable {calls endpoint}

theorem inLine_setCell (once : (calls.cells.map Prod.fst).Nodup) (cell : SessionCell) :
    inLine (calls.setCell endpoint cell).cells + (calls.cell endpoint).line.length =
      inLine calls.cells + cell.line.length := by
  have rest := sum_filter_ne once (fun cell => cell.line.length) endpoint
  have held : ((calls.cells.lookup endpoint).map fun cell => cell.line.length).getD 0 =
      (calls.cell endpoint).line.length := by
    rw [SessionCalls.cell]
    cases calls.cells.lookup endpoint <;> rfl
  simp only [inLine, setCell, List.map_cons, List.sum_cons, ← held, ← rest]
  omega

end Cells

/-- The calls that have not yet come to their cells. -/
def outside (calls : SessionCalls) : List (Int32 × Nat) :=
  calls.leaving ++ calls.holder.toList ++ calls.entering

/-- What a move can be. -/
inductive Stepped (calls : SessionCalls) :
    SessionMove ε → SessionCalls → List (Notice ε) → Prop
  | come {caller : Nat} {endpoint : Int32} (new : caller ∉ calls.arrived) :
      Stepped calls (.come caller endpoint)
        { calls with
          entering := calls.entering ++ [(endpoint, caller)]
          arrived := calls.arrived ++ [caller] } []
  | lock {first : Int32 × Nat} {others : List (Int32 × Nat)} (free : calls.holder = none)
      (line : calls.entering = first :: others) :
      Stepped calls .lock { calls with holder := some first, entering := others } []
  | lookUp {endpoint : Int32} {caller : Nat} (held : calls.holder = some (endpoint, caller)) :
      Stepped calls .lookUp
        { calls.setCell endpoint (calls.cell endpoint) with
          holder := none
          leaving := calls.leaving ++ [(endpoint, caller)] } []
  | found {endpoint : Int32} {caller session : Nat} (leaves : (endpoint, caller) ∈ calls.leaving)
      (there : (calls.cell endpoint).session = some session) :
      Stepped calls (.reach endpoint caller)
        { calls with leaving := calls.leaving.erase (endpoint, caller) }
        [.answered caller (.ok session)]
  | joined {endpoint : Int32} {caller : Nat} (leaves : (endpoint, caller) ∈ calls.leaving)
      (missing : (calls.cell endpoint).session = none) :
      Stepped calls (.reach endpoint caller)
        (SessionCalls.setCell { calls with leaving := calls.leaving.erase (endpoint, caller) }
          endpoint { calls.cell endpoint with line := (calls.cell endpoint).line ++ [caller] }) []
  | create {endpoint : Int32} {caller : Nat} {others : List Nat}
      (free : calls.cell endpoint = ⟨none, none, caller :: others⟩) :
      Stepped calls (.create endpoint) (calls.setCell endpoint ⟨none, some caller, others⟩)
        [.begun caller endpoint]
  | serve {endpoint : Int32} {caller session : Nat} (waits : caller ∈ (calls.cell endpoint).line)
      (there : (calls.cell endpoint).session = some session) :
      Stepped calls (.serve endpoint caller)
        (calls.setCell endpoint
          { calls.cell endpoint with line := (calls.cell endpoint).line.erase caller })
        [.answered caller (.ok session)]
  | complete {endpoint : Int32} {creator : Nat} {outcome : Except ε Nat}
      (creates : (calls.cell endpoint).creator = some creator) :
      Stepped calls (.complete endpoint outcome)
        (calls.setCell endpoint { calls.cell endpoint with
          session := outcome.toOption.or (calls.cell endpoint).session
          creator := none })
        [.answered creator outcome]
  | abort {caller : Nat} (came : caller ∈ calls.arrived) :
      Stepped calls (.abort caller) (calls.without caller) []

theorem step?_eq_some_iff :
    calls.step? move = some (next, sights) ↔ Stepped calls move next sights := by
  constructor
  · intro stepped
    cases move with
    | come caller endpoint =>
      simp only [step?] at stepped
      split at stepped
      · contradiction
      · cases stepped
        exact .come ‹_›
    | lock =>
      simp only [step?] at stepped
      split at stepped
      · cases stepped
        exact .lock ‹_› ‹_›
      · contradiction
    | lookUp =>
      obtain ⟨⟨endpoint, caller⟩, held, same⟩ := Option.map_eq_some_iff.mp stepped
      cases same
      exact .lookUp held
    | reach endpoint caller =>
      simp only [step?] at stepped
      split at stepped
      · split at stepped
        · cases stepped
          exact .found ‹_› ‹_›
        · cases stepped
          exact .joined ‹_› ‹_›
      · contradiction
    | create endpoint =>
      simp only [step?] at stepped
      split at stepped
      · cases stepped
        exact .create ‹_›
      · contradiction
    | serve endpoint caller =>
      simp only [step?] at stepped
      split at stepped
      · obtain ⟨session, there, same⟩ := Option.map_eq_some_iff.mp stepped
        cases same
        exact .serve ‹_› there
      · contradiction
    | complete endpoint outcome =>
      obtain ⟨creator, creates, same⟩ := Option.map_eq_some_iff.mp stepped
      cases same
      exact .complete creates
    | abort caller =>
      simp only [step?] at stepped
      split at stepped
      · cases stepped
        exact .abort ‹_›
      · contradiction
  · intro stepped
    cases stepped with
    | come new => simp [step?, new]
    | lock free line => simp [step?, free, line]
    | lookUp held => simp [step?, held]
    | found leaves there => simp [step?, leaves, there]
    | joined leaves missing => simp [step?, leaves, missing]
    | create free => simp [step?, free]
    | serve waits there => simp [step?, waits, there]
    | complete creates => simp [step?, creates]
    | abort came => simp [step?, came]

/-- What all moves keep. -/
structure Sound (calls : SessionCalls) : Prop where
  keys : (calls.cells.map Prod.fst).Nodup
  served : ∀ endpoint, (calls.cell endpoint).session ≠ none → (calls.cell endpoint).creator = none
  once : (calls.outside.map Prod.snd).Nodup
  came : ∀ entry ∈ calls.outside, entry.2 ∈ calls.arrived

theorem sound_fresh : fresh.Sound where
  keys := List.nodup_nil
  served := fun _ _ => rfl
  once := List.nodup_nil
  came := nofun

theorem outside_erase {entry : Int32 × Nat} (leaves : entry ∈ calls.leaving) :
    outside { calls with leaving := calls.leaving.erase entry } = calls.outside.erase entry := by
  rw [outside, outside, List.append_assoc, List.append_assoc, List.erase_append_left _ leaves]

theorem outside_without (caller : Nat) :
    (calls.without caller).outside = calls.outside.filter fun entry => entry.2 ≠ caller := by
  simp only [outside, without, List.filter_append]
  cases calls.holder with
  | none => rfl
  | some entry => by_cases gone : entry.2 = caller <;> simp [gone, Option.filter]

/-- Where a call is outside changes when it comes, reaches its cell or gives up. -/
theorem Stepped.outside (stepped : Stepped calls move next sights) :
    next.outside = match move with
      | .come caller endpoint => calls.outside ++ [(endpoint, caller)]
      | .reach endpoint caller => calls.outside.erase (endpoint, caller)
      | .abort caller => calls.outside.filter fun entry => entry.2 ≠ caller
      | _ => calls.outside := by
  cases stepped with
  | come new => exact (List.append_assoc _ _ _).symm
  | lock free line => simp [SessionCalls.outside, free, line]
  | lookUp held => simp [SessionCalls.outside, setCell, held]
  | found leaves | joined leaves => exact outside_erase leaves
  | create | serve | complete => rfl
  | abort => exact outside_without _

theorem Stepped.arrived (stepped : Stepped calls move next sights) :
    next.arrived = match move with
      | .come caller _ => calls.arrived ++ [caller]
      | _ => calls.arrived := by
  cases stepped <;> rfl

theorem keys_setCell (once : (calls.cells.map Prod.fst).Nodup) (endpoint : Int32)
    (cell : SessionCell) : ((calls.setCell endpoint cell).cells.map Prod.fst).Nodup := by
  rw [setCell, List.map_cons, List.nodup_cons]
  exact ⟨by simp, once.sublist (List.filter_sublist.map _)⟩

theorem Sound.keys_step (sound : calls.Sound) (stepped : Stepped calls move next sights) :
    (next.cells.map Prod.fst).Nodup := by
  cases stepped with
  | come | lock | found => exact sound.keys
  | lookUp | joined | create | serve | complete => exact keys_setCell sound.keys _ _
  | abort =>
    rw [without, List.map_map]
    exact sound.keys

theorem Sound.served_step (sound : calls.Sound) (stepped : Stepped calls move next sights)
    (other : Int32) (there : (next.cell other).session ≠ none) :
    (next.cell other).creator = none := by
  have before := sound.served other
  cases stepped with
  | come | lock | found => exact before there
  | @lookUp endpoint =>
    have same : (calls.setCell endpoint (calls.cell endpoint)).cell other = calls.cell other :=
      calls.cell_setCell_self endpoint other
    change ((calls.setCell endpoint (calls.cell endpoint)).cell other).session ≠ none at there
    rw [same] at there
    exact (congrArg SessionCell.creator same).trans (before there)
  | joined _ missing =>
    rw [cell_setCell] at there ⊢
    split at there
    · exact absurd missing there
    · rw [if_neg ‹_›]
      exact before there
  | create free =>
    rw [cell_setCell] at there ⊢
    split at there
    · exact absurd rfl there
    · rw [if_neg ‹_›]
      exact before there
  | serve waits found =>
    rw [cell_setCell] at there ⊢
    split
    · subst other
      exact before (by rw [found]; nofun)
    · rw [if_neg ‹_›] at there
      exact before there
  | complete creates =>
    rw [cell_setCell] at there ⊢
    split
    · rfl
    · rw [if_neg ‹_›] at there
      exact before there
  | abort =>
    rw [cell_without] at there ⊢
    rw [SessionCell.without, before there]
    rfl

theorem Sound.step (sound : calls.Sound) (stepped : Stepped calls move next sights) :
    next.Sound := by
  have places := stepped.outside
  have arrived := stepped.arrived
  refine ⟨sound.keys_step stepped, sound.served_step stepped, ?_, ?_⟩
  · rw [places]
    cases stepped with
    | come new =>
      rw [List.map_append]
      apply sound.once.append (List.nodup_singleton _)
      refine List.disjoint_singleton.mpr fun there => ?_
      obtain ⟨entry, member, rfl⟩ := List.mem_map.mp there
      exact new (sound.came entry member)
    | found | joined => exact sound.once.sublist (List.erase_sublist.map _)
    | abort => exact sound.once.sublist (List.filter_sublist.map _)
    | lock | lookUp | create | serve | complete => exact sound.once
  · rw [places, arrived]
    intro entry member
    cases stepped with
    | come new =>
      rcases List.mem_append.mp member with earlier | now
      · exact List.mem_append_left _ (sound.came entry earlier)
      · rw [List.mem_singleton.mp now]
        exact List.mem_append_right _ List.mem_cons_self
    | found | joined => exact sound.came entry (List.mem_of_mem_erase member)
    | abort => exact sound.came entry (List.mem_filter.mp member).1
    | lock | lookUp | create | serve | complete => exact sound.came entry member

/-- No call can move by itself: the map is free and nobody is on the way, whoever waits at a cell
waits for a session that is being created there. -/
structure Standstill (calls : SessionCalls) : Prop where
  inside : calls.outside = []
  unserved : ∀ endpoint, (calls.cell endpoint).line ≠ [] →
    (calls.cell endpoint).session = none ∧ (calls.cell endpoint).creator ≠ none

theorem standstill_iff :
    calls.Standstill ↔ ∀ move : SessionMove ε, move.IsInner → calls.step? move = none := by
  constructor
  · intro still move inner
    rw [Option.eq_none_iff_forall_ne_some]
    rintro ⟨next, sights⟩ possible
    have stepped := step?_eq_some_iff.mp possible
    have nobody := still.inside
    simp only [outside, List.append_eq_nil_iff] at nobody
    obtain ⟨⟨leaving, holder⟩, entering⟩ := nobody
    cases stepped with
    | come | complete | abort => exact inner
    | lock free line => cases entering.symm.trans line
    | lookUp held => simp [held] at holder
    | found leaves | joined leaves => simp [leaving] at leaves
    | create free => exact (still.unserved _ (by rw [free]; nofun)).2 (by rw [free])
    | serve waits there =>
      cases (still.unserved _ (List.ne_nil_of_mem waits)).1.symm.trans there
  · intro still
    have held : calls.holder = none := Option.map_eq_none_iff.mp (still .lookUp trivial)
    have entering : calls.entering = [] := by
      cases line : calls.entering with
      | nil => rfl
      | cons first others => simpa [step?, held, line] using still .lock trivial
    have leaving : calls.leaving = [] := by
      cases line : calls.leaving with
      | nil => rfl
      | cons first others =>
        obtain ⟨endpoint, caller⟩ := first
        have reach := still (.reach endpoint caller) trivial
        cases there : (calls.cell endpoint).session <;> simp [step?, line, there] at reach
    refine ⟨by simp [outside, held, entering, leaving], fun endpoint some_line => ?_⟩
    have serve := fun caller => still (.serve endpoint caller) trivial
    have create := still (.create endpoint) trivial
    simp only [step?] at serve create
    generalize calls.cell endpoint = cell at some_line serve create ⊢
    obtain ⟨session, creator, line⟩ := cell
    obtain ⟨caller, others, rfl⟩ := List.exists_cons_of_ne_nil some_line
    cases session with
    | some session => simpa using serve caller
    | none =>
      refine ⟨rfl, ?_⟩
      rintro rfl
      simp at create

/-- How many moves the calls can make by themselves: four each that has not yet the lock, and fewer
the farther it is. -/
def work (calls : SessionCalls) : Nat :=
  4 * calls.entering.length + 3 * calls.holder.toList.length + 2 * calls.leaving.length +
    inLine calls.cells

theorem work_step (sound : calls.Sound) (inner : move.IsInner)
    (stepped : Stepped calls move next sights) : next.work < calls.work := by
  have lines := fun endpoint => @inLine_setCell calls endpoint sound.keys
  cases stepped with
  | come | complete | abort => exact inner.elim
  | lock free line =>
    simp only [work, free, line, List.length_cons, Option.toList, List.length_nil]
    omega
  | @lookUp endpoint caller held =>
    have same := lines endpoint (calls.cell endpoint)
    simp only [work, held, List.length_append, List.length_singleton, Option.toList,
      List.length_nil]
    simp only [setCell] at same ⊢
    omega
  | found leaves =>
    have some_leave := List.length_pos_of_mem leaves
    simp only [work, List.length_erase_of_mem leaves]
    omega
  | @joined endpoint caller leaves =>
    have some_leave := List.length_pos_of_mem leaves
    have more := lines endpoint
      { calls.cell endpoint with line := (calls.cell endpoint).line ++ [caller] }
    simp only [List.length_append, List.length_singleton] at more
    simp only [work, setCell, List.length_erase_of_mem leaves] at more ⊢
    omega
  | @create endpoint caller others free =>
    have fewer := lines endpoint ⟨none, some caller, others⟩
    simp only [free, List.length_cons] at fewer
    simp only [work, setCell] at fewer ⊢
    omega
  | @serve endpoint caller session waits =>
    have some_wait := List.length_pos_of_mem waits
    have fewer := lines endpoint
      { calls.cell endpoint with line := (calls.cell endpoint).line.erase caller }
    simp only [List.length_erase_of_mem waits] at fewer
    simp only [work, setCell] at fewer ⊢
    omega

theorem inner_moves_le {moves : List (SessionMove ε)} (sound : calls.Sound)
    (inner : ∀ move ∈ moves, move.IsInner)
    (run : runSteps? step? calls moves = some (next, sights)) : moves.length ≤ calls.work := by
  have kept : StepKeeps (step? (ε := ε)) (fun _ calls => calls.Sound) SessionMove.IsInner :=
    fun _ _ _ _ _ sound _ stepped => sound.step (step?_eq_some_iff.mp stepped)
  have bound := run_length_le work kept
    (fun _ _ _ _ _ sound inner stepped => work_step sound inner (step?_eq_some_iff.mp stepped))
    moves calls next [] sights sound inner run
  exact Nat.le_trans (Nat.le_add_right _ _) bound

end SessionCalls

end ChunkedUpload
