import Mathlib.Data.List.Basic

/-! Runs of a system that moves in steps, where a step may be impossible and others may see
something of it. What every allowed step keeps, a run of allowed moves keeps; where every allowed
step lowers a measure, a run is no longer than the measure at its start; and where one is possible
besides, as long as something is left to do, some run does it all. -/
namespace ChunkedUpload

section Runs

variable {State Move Seen : Type} {step? : State → Move → Option (State × List Seen)}
  {Keeps : List Seen → State → Prop} {Allowed : Move → Prop}

/-- The steps of some moves, one after the other, and all that is seen of them. -/
def runSteps? (step? : State → Move → Option (State × List Seen)) (state : State) :
    List Move → Option (State × List Seen)
  | [] => some (state, [])
  | move :: rest =>
    (step? state move).bind fun (next, seen) =>
      (runSteps? step? next rest).map fun (last, later) => (last, seen ++ later)

/-- Every allowed step keeps a property, which may speak of all that has been seen so far. -/
def StepKeeps (step? : State → Move → Option (State × List Seen))
    (Keeps : List Seen → State → Prop) (Allowed : Move → Prop) : Prop :=
  ∀ past state move next seen, Keeps past state → Allowed move →
    step? state move = some (next, seen) → Keeps (past ++ seen) next

theorem runSteps_cons {state last : State} {move : Move} {rest : List Move} {seen : List Seen}
    (run : runSteps? step? state (move :: rest) = some (last, seen)) :
    ∃ next first later, step? state move = some (next, first) ∧
      runSteps? step? next rest = some (last, later) ∧ seen = first ++ later := by
  simp only [runSteps?, Option.bind_eq_some_iff, Option.map_eq_some_iff] at run
  obtain ⟨⟨next, first⟩, stepped, ⟨final, later⟩, ran, eq⟩ := run
  cases eq
  exact ⟨next, first, later, stepped, ran, rfl⟩

theorem run_keeps (kept : StepKeeps step? Keeps Allowed) (moves : List Move) (state last : State)
    (past later : List Seen) (holds : Keeps past state) (allowed : ∀ move ∈ moves, Allowed move)
    (run : runSteps? step? state moves = some (last, later)) : Keeps (past ++ later) last := by
  induction moves generalizing state past later with
  | nil =>
    cases run
    simpa using holds
  | cons move rest ih =>
    obtain ⟨next, first, more, stepped, ran, rfl⟩ := runSteps_cons run
    have now := kept past state move next first holds (allowed move (by simp)) stepped
    have whole := ih next (past ++ first) more now (fun m hm => allowed m (by simp [hm])) ran
    simpa [List.append_assoc] using whole

/-- A run from the beginning, when nothing has been seen yet. -/
theorem run_holds (kept : StepKeeps step? Keeps Allowed) (moves : List Move) (state last : State)
    (seen : List Seen) (start : Keeps [] state) (allowed : ∀ move ∈ moves, Allowed move)
    (run : runSteps? step? state moves = some (last, seen)) : Keeps seen last := by
  simpa using run_keeps kept moves state last [] seen start allowed run

theorem runSteps_append {moves rest : List Move} {state mid last : State} {seen more : List Seen}
    (run : runSteps? step? state moves = some (mid, seen))
    (later : runSteps? step? mid rest = some (last, more)) :
    runSteps? step? state (moves ++ rest) = some (last, seen ++ more) := by
  induction moves generalizing state seen with
  | nil =>
    cases run
    exact later
  | cons move moves ih =>
    obtain ⟨next, first, others, stepped, ran, rfl⟩ := runSteps_cons run
    simp only [List.cons_append, runSteps?, stepped, ih ran, Option.bind_some, Option.map_some,
      List.append_assoc]

theorem runSteps_split {moves rest : List Move} {state last : State} {seen : List Seen}
    (run : runSteps? step? state (moves ++ rest) = some (last, seen)) :
    ∃ mid first later, runSteps? step? state moves = some (mid, first) ∧
      runSteps? step? mid rest = some (last, later) ∧ seen = first ++ later := by
  induction moves generalizing state seen with
  | nil => exact ⟨state, [], seen, rfl, run, rfl⟩
  | cons move moves ih =>
    obtain ⟨next, first, others, stepped, ran, rfl⟩ := runSteps_cons run
    obtain ⟨mid, more, later, before, after, rfl⟩ := ih ran
    refine ⟨mid, first ++ more, later, ?_, after, (List.append_assoc _ _ _).symm⟩
    simp only [runSteps?, stepped, before, Option.bind_some, Option.map_some]

theorem runSteps_snoc {moves : List Move} {move : Move} {state mid last : State}
    {seen more : List Seen} (run : runSteps? step? state moves = some (mid, seen))
    (stepped : step? mid move = some (last, more)) :
    runSteps? step? state (moves ++ [move]) = some (last, seen ++ more) := by
  apply runSteps_append run
  simp [runSteps?, stepped]

/-- Where no step raises a measure, there are no more of those that lower it than it allows. -/
theorem run_countP_le (measure : State → Nat) (lowering : Move → Bool)
    (kept : StepKeeps step? Keeps Allowed)
    (lowers : ∀ past state move next seen, Keeps past state → Allowed move →
      step? state move = some (next, seen) →
      measure next + (if lowering move then 1 else 0) ≤ measure state)
    (moves : List Move) (state last : State) (past later : List Seen) (holds : Keeps past state)
    (allowed : ∀ move ∈ moves, Allowed move)
    (run : runSteps? step? state moves = some (last, later)) :
    moves.countP lowering + measure last ≤ measure state := by
  induction moves generalizing state past later with
  | nil =>
    cases run
    simp
  | cons move rest ih =>
    obtain ⟨next, first, more, stepped, ran, rfl⟩ := runSteps_cons run
    have here := allowed move (by simp)
    have now := kept past state move next first holds here stepped
    have less := lowers past state move next first holds here stepped
    have whole := ih next (past ++ first) more now (fun m hm => allowed m (by simp [hm])) ran
    rw [List.countP_cons]
    omega

/-- A run whose steps all lower a measure ends in time. -/
theorem run_length_le (measure : State → Nat) (kept : StepKeeps step? Keeps Allowed)
    (lowers : ∀ past state move next seen, Keeps past state → Allowed move →
      step? state move = some (next, seen) → measure next < measure state)
    (moves : List Move) (state last : State) (past later : List Seen) (holds : Keeps past state)
    (allowed : ∀ move ∈ moves, Allowed move)
    (run : runSteps? step? state moves = some (last, later)) :
    moves.length + measure last ≤ measure state := by
  have counted := run_countP_le measure (fun _ => true) kept lowers moves state last past later
    holds allowed run
  rwa [List.countP_true] at counted

/-- As long as a state is not done there is an allowed step, and all of them lower a measure: then
some allowed moves lead to a state that is done. -/
theorem exists_run_done {Done : State → Prop} (measure : State → Nat)
    (kept : StepKeeps step? Keeps Allowed)
    (lowers : ∀ past state move next seen, Keeps past state → Allowed move →
      step? state move = some (next, seen) → measure next < measure state)
    (able : ∀ past state, Keeps past state → ¬ Done state →
      ∃ move next seen, Allowed move ∧ step? state move = some (next, seen))
    (past : List Seen) (state : State) (holds : Keeps past state) :
    ∃ moves last later, (∀ move ∈ moves, Allowed move) ∧
      runSteps? step? state moves = some (last, later) ∧ Done last := by
  induction left : measure state using Nat.strongRecOn generalizing past state with
  | ind left ih =>
    by_cases done : Done state
    · exact ⟨[], state, [], nofun, rfl, done⟩
    · obtain ⟨move, next, seen, allowed, stepped⟩ := able past state holds done
      have less := lowers past state move next seen holds allowed stepped
      obtain ⟨moves, last, later, all, run, done⟩ := ih (measure next) (left ▸ less) (past ++ seen)
        next (kept past state move next seen holds allowed stepped) rfl
      refine ⟨move :: moves, last, seen ++ later, List.forall_mem_cons.mpr ⟨allowed, all⟩, ?_, done⟩
      simp only [runSteps?, stepped, run, Option.bind_some, Option.map_some]

end Runs

end ChunkedUpload
