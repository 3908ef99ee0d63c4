import ChunkedUpload.Proofs.Session.Cells
import ChunkedUpload.Proofs.Session.Calls
import Mathlib.Algebra.Order.Group.Multiset

/-! What the calls for sessions are owed. Where they stand in the cache that does at once what is
due can be read from their cells, and so can what that cache has told them and they have not seen:
that there is a session by now, or that the permit is theirs. -/
namespace ChunkedUpload

open SessionCache (Notice)

variable {ε : Type}

/-- The call that sees a notice. -/
def SessionCache.Notice.caller : Notice ε → Nat
  | .begun caller _ => caller
  | .answered caller _ => caller

namespace SessionCell

variable {cell : SessionCell} {endpoint : Int32} {caller session : Nat}

/-- What the cache has for the endpoint of a cell: who waits at a cell with a session has been
served, and the first in line has a free permit. -/
def desk (cell : SessionCell) : Desk where
  session := cell.session
  line := if cell.session.isSome then [] else cell.creator.toList ++ cell.line

/-- What the cache has told those at a cell, and they have not seen. -/
def owed (cell : SessionCell) (endpoint : Int32) : List (Notice ε) :=
  match cell.session, cell.creator with
  | some session, _ => cell.line.map fun caller => .answered caller (.ok session)
  | none, none => Desk.begin endpoint cell.line
  | none, some _ => []

theorem desk_of_some (there : cell.session = some session) : cell.desk = ⟨some session, []⟩ := by
  rw [desk, there]
  rfl

theorem desk_of_none (missing : cell.session = none) :
    cell.desk = ⟨none, cell.creator.toList ++ cell.line⟩ := by
  rw [desk, missing]
  rfl

theorem found_notice (there : cell.session = some session) (endpoint : Int32) (caller : Nat) :
    cell.desk.act endpoint (.request caller endpoint : CacheAct ε) =
      (cell.desk, [.answered caller (.ok session)]) := by
  rw [desk_of_some there]
  rfl

theorem desk_joined (missing : cell.session = none) (caller : Nat) :
    desk { cell with line := cell.line ++ [caller] } =
      (cell.desk.act endpoint (.request caller endpoint : CacheAct ε)).1 := by
  obtain ⟨session, creator, line⟩ := cell
  obtain rfl : session = none := missing
  simp [desk, Desk.act]

theorem owed_joined (missing : cell.session = none) (caller : Nat) :
    owed { cell with line := cell.line ++ [caller] } endpoint =
      cell.owed endpoint ++
        (cell.desk.act endpoint (.request caller endpoint : CacheAct ε)).2 := by
  obtain ⟨session, creator, line⟩ := cell
  obtain rfl : session = none := missing
  cases creator with
  | some creator => simp [owed, desk, Desk.act]
  | none => cases line <;> simp [owed, desk, Desk.act, Desk.begin]

theorem desk_completed {creator : Nat} (creates : cell.creator = some creator)
    (missing : cell.session = none) (outcome : Except ε Nat) :
    desk { cell with session := outcome.toOption.or cell.session, creator := none } =
      (cell.desk.act endpoint (.complete endpoint outcome)).1 := by
  obtain ⟨session, _, line⟩ := cell
  obtain ⟨rfl, rfl⟩ := And.intro missing creates
  cases outcome <;> rfl

theorem owed_completed {creator : Nat} (creates : cell.creator = some creator)
    (missing : cell.session = none) (outcome : Except ε Nat) :
    (cell.desk.act endpoint (.complete endpoint outcome)).2 =
      .answered creator outcome ::
        owed { cell with session := outcome.toOption.or cell.session, creator := none }
          endpoint := by
  obtain ⟨session, _, line⟩ := cell
  obtain ⟨rfl, rfl⟩ := And.intro missing creates
  cases outcome <;> rfl

theorem owed_creating (missing : cell.session = none) (creates : cell.creator ≠ none) :
    (cell.owed endpoint : List (Notice ε)) = [] := by
  obtain ⟨creator, creates⟩ := Option.ne_none_iff_exists'.mp creates
  simp only [owed, missing, creates]

theorem owed_served (waits : caller ∈ cell.line) (there : cell.session = some session) :
    (cell.owed endpoint : List (Notice ε)).Perm (.answered caller (.ok session) ::
      owed { cell with line := cell.line.erase caller } endpoint) := by
  simp only [owed, there]
  exact (List.perm_cons_erase waits).map _

theorem desk_without (cell : SessionCell) (caller : Nat) :
    (cell.without caller).desk = (cell.desk.act endpoint (.abort caller : CacheAct ε)).1 := by
  obtain ⟨session, creator, line⟩ := cell
  cases session with
  | some session => rfl
  | none =>
    cases creator with
    | none => rfl
    | some creator =>
      by_cases gone : creator = caller <;>
        simp [desk, without, Desk.act, Option.filter, gone]

/-- Who gives up is told nothing more, and the next in line may get a permit. -/
theorem owed_without (once : cell.desk.line.Nodup) (caller : Nat) :
    (cell.without caller).owed endpoint =
      (cell.owed endpoint).filter (fun notice : Notice ε => notice.caller ≠ caller) ++
        (cell.desk.act endpoint (.abort caller)).2 := by
  obtain ⟨session, creator, line⟩ := cell
  cases session with
  | some session =>
    have left : (line.filter fun other => other ≠ caller).map
        (fun other => (.answered other (.ok session) : Notice ε)) =
          (line.map fun other => .answered other (.ok session)).filter
            fun notice : Notice ε => notice.caller ≠ caller := by
      rw [List.filter_map]
      rfl
    exact left.trans (List.append_nil _).symm
  | none =>
    cases creator with
    | some creator =>
      have away : creator ∉ line := (List.nodup_cons.mp once).1
      by_cases gone : creator = caller
      · subst gone
        simp [owed, desk, without, Desk.act, Option.filter, Desk.filter_ne_of_notMem away]
      · simp [owed, desk, without, Desk.act, Option.filter, gone]
    | none =>
      cases line with
      | nil => rfl
      | cons first others =>
        have away : first ∉ others := (List.nodup_cons.mp once).1
        by_cases gone : first = caller
        · subst gone
          simp [owed, desk, without, Desk.act, Desk.begin, Notice.caller,
            Desk.filter_ne_of_notMem away]
        · simp [owed, desk, without, Desk.act, Desk.begin, Notice.caller, gone]

/-- A call that is not there can give up without notice. -/
theorem abort_away (away : caller ∉ cell.desk.line) :
    cell.desk.act endpoint (.abort caller : CacheAct ε) = (cell.desk, []) := by
  generalize cell.desk = desk at away
  have first : desk.line.head? ≠ some caller := fun head => away (List.mem_of_head? head)
  have stays : desk.line.filter (fun other => other ≠ caller) = desk.line := by
    simpa using Desk.filter_ne_of_notMem away
  simp only [Desk.act, if_neg first, stays]

theorem without_eq_self (waits : caller ∉ cell.line) (creates : cell.creator ≠ some caller) :
    cell.without caller = cell := by
  obtain ⟨session, creator, line⟩ := cell
  have kept : creator.filter (fun other => other ≠ caller) = creator := by
    cases creator with
    | none => rfl
    | some creator =>
      have other : creator ≠ caller := fun same => creates (congrArg some same)
      simp [Option.filter, other]
  have stays : line.filter (fun other => other ≠ caller) = line := by
    simpa using Desk.filter_ne_of_notMem waits
  simp only [without, kept, stays]

/-- Nobody in line can go on without a creation for the endpoint. -/
def Settled (cell : SessionCell) : Prop :=
  cell.line ≠ [] → cell.session = none ∧ cell.creator ≠ none

theorem Settled.owed_eq_nil (settled : cell.Settled) (endpoint : Int32) :
    (cell.owed endpoint : List (Notice ε)) = [] := by
  obtain ⟨session, creator, line⟩ := cell
  cases line with
  | nil => cases session <;> cases creator <;> rfl
  | cons first others =>
    obtain ⟨missing, creates⟩ := settled (List.cons_ne_nil _ _)
    exact owed_creating missing creates

theorem Settled.without (settled : cell.Settled) (away : caller ∉ cell.desk.line) :
    (cell.without caller).Settled := by
  intro waits
  have some_line : cell.line ≠ [] := fun nobody => waits (by rw [SessionCell.without, nobody]; rfl)
  obtain ⟨missing, creates⟩ := settled some_line
  rw [desk_of_none missing] at away
  have same : cell.without caller = cell := by
    apply without_eq_self fun there => away (List.mem_append_right _ there)
    intro creator
    exact away (by rw [creator]; exact List.mem_cons_self)
  rw [same]
  exact ⟨missing, creates⟩

end SessionCell

namespace SessionCalls

variable {calls : SessionCalls} {endpoint : Int32} {caller : Nat}

section Owed

/-- What some cells give, each with its endpoint. -/
def gather (cells : List (Int32 × SessionCell)) (give : Int32 → SessionCell → List (Notice ε)) :
    Multiset (Notice ε) :=
  (cells.flatMap fun entry => give entry.1 entry.2 : List (Notice ε))

/-- All that the cache has told and the calls have not seen. -/
def owed (calls : SessionCalls) : Multiset (Notice ε) :=
  gather calls.cells fun endpoint cell => cell.owed endpoint

theorem cell_of_mem (keys : (calls.cells.map Prod.fst).Nodup)
    {entry : Int32 × SessionCell} (there : entry ∈ calls.cells) :
    calls.cell entry.1 = entry.2 := by
  rw [SessionCalls.cell, lookup_of_mem keys there]
  rfl

theorem gather_cons (entry : Int32 × SessionCell) (cells : List (Int32 × SessionCell))
    (give : Int32 → SessionCell → List (Notice ε)) :
    gather (entry :: cells) give = give entry.1 entry.2 + gather cells give := rfl

theorem gather_append (cells : List (Int32 × SessionCell))
    (first second : Int32 → SessionCell → List (Notice ε)) :
    gather cells (fun endpoint cell => first endpoint cell ++ second endpoint cell) =
      gather cells first + gather cells second :=
  Multiset.coe_eq_coe.mpr (List.flatMap_append_perm _ _ _).symm

theorem gather_filter (cells : List (Int32 × SessionCell))
    (give : Int32 → SessionCell → List (Notice ε)) (p : Notice ε → Prop) [DecidablePred p] :
    gather cells (fun endpoint cell => (give endpoint cell).filter p) =
      (gather cells give).filter p := by
  rw [gather, gather, Multiset.filter_coe, List.filter_flatMap]

/-- One cell apart from all others. -/
theorem gather_cells (keys : (calls.cells.map Prod.fst).Nodup) (endpoint : Int32)
    {give : Int32 → SessionCell → List (Notice ε)} (fresh : give endpoint SessionCell.fresh = []) :
    gather calls.cells give = give endpoint (calls.cell endpoint) +
      gather (calls.cells.filter fun entry => entry.1 ≠ endpoint) give := by
  rw [SessionCalls.cell]
  generalize calls.cells = cells at keys
  induction cells with
  | nil => simp [fresh, gather]
  | cons entry rest ih =>
    obtain ⟨new, others⟩ := List.nodup_cons.mp keys
    by_cases here : entry.1 = endpoint
    · subst here
      have stays : (rest.filter fun other => other.1 ≠ entry.1) = rest := by
        refine List.filter_eq_self.mpr fun other member => ?_
        simpa using ne_of_mem_of_not_mem (List.mem_map_of_mem member) new
      rw [List.filter_cons_of_neg (by simp), stays, List.lookup_cons, beq_self_eq_true]
      rfl
    · rw [List.filter_cons_of_pos (by simpa using here), List.lookup_cons,
        beq_false_of_ne (Ne.symm here), gather_cons, gather_cons, ih others]
      exact add_left_comm _ _ _

/-- Where the books are right at the one cell that changes, they are right. -/
theorem books_setCell (keys : (calls.cells.map Prod.fst).Nodup) {cell : SessionCell}
    {due seen : List (Notice ε)}
    (here : ((calls.cell endpoint).owed endpoint ++ due).Perm (seen ++ cell.owed endpoint)) :
    calls.owed + (due : Multiset (Notice ε)) =
      (seen : Multiset (Notice ε)) + (calls.setCell endpoint cell).owed := by
  let give : Int32 → SessionCell → List (Notice ε) := fun endpoint cell => cell.owed endpoint
  let others := gather (calls.cells.filter fun entry => entry.1 ≠ endpoint) give
  have before : calls.owed = (give endpoint (calls.cell endpoint) : Multiset (Notice ε)) + others :=
    gather_cells keys endpoint rfl
  have after : (calls.setCell endpoint cell).owed =
      (give endpoint cell : Multiset (Notice ε)) + others := gather_cons (endpoint, cell) _ give
  have same : (give endpoint (calls.cell endpoint) : Multiset (Notice ε)) + due =
      seen + give endpoint cell := Multiset.coe_eq_coe.mpr here
  rw [before, after, add_right_comm, same, add_assoc]

theorem owed_without (keys : (calls.cells.map Prod.fst).Nodup)
    (once : ∀ endpoint, (calls.cell endpoint).desk.line.Nodup) (caller : Nat) :
    (calls.without caller).owed =
      calls.owed.filter (fun notice : Notice ε => notice.caller ≠ caller) +
        gather calls.cells fun endpoint cell => (cell.desk.act endpoint (.abort caller)).2 := by
  rw [owed, owed, ← gather_filter, ← gather_append, gather, gather, without, List.flatMap_map]
  refine congrArg _ (List.flatMap_congr fun entry there => ?_)
  apply SessionCell.owed_without
  rw [← cell_of_mem keys there]
  exact once entry.1

/-- A call that is at one cell is followed there, if at all. -/
theorem gather_abort (keys : (calls.cells.map Prod.fst).Nodup)
    (elsewhere : ∀ other, other ≠ endpoint → caller ∉ (calls.cell other).desk.line) :
    (gather calls.cells fun endpoint cell =>
      (cell.desk.act endpoint (.abort caller : CacheAct ε)).2) =
        ((calls.cell endpoint).desk.act endpoint (.abort caller : CacheAct ε)).2 := by
  have fresh : (SessionCell.fresh.desk.act endpoint (.abort caller : CacheAct ε)).2 = [] := rfl
  rw [gather_cells keys endpoint fresh, add_eq_left]
  refine congrArg _ (List.flatMap_eq_nil_iff.mpr fun entry there => ?_)
  obtain ⟨member, apart⟩ := List.mem_filter.mp there
  have away := elsewhere entry.1 (of_decide_eq_true apart)
  rw [cell_of_mem keys member] at away
  exact congrArg Prod.snd (SessionCell.abort_away away)

theorem Standstill.owed_eq_zero (still : calls.Standstill)
    (keys : (calls.cells.map Prod.fst).Nodup) : (calls.owed : Multiset (Notice ε)) = 0 := by
  refine congrArg _ (List.flatMap_eq_nil_iff.mpr fun entry there => ?_)
  apply SessionCell.Settled.owed_eq_nil
  rw [← cell_of_mem keys there]
  exact still.unserved entry.1

end Owed

end SessionCalls

end ChunkedUpload
