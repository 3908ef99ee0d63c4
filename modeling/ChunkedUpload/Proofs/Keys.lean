import Mathlib.Algebra.GroupWithZero.Nat
import Mathlib.Data.List.Nodup

/-! Lists of entries with keys, in which the first entry of a key counts. -/
namespace ChunkedUpload

variable {κ α β : Type} [BEq κ] [LawfulBEq κ] {entries : List (κ × α)} {key : κ} {value : α}

theorem lookup_filter_ne [DecidableEq κ] (key other : κ) (entries : List (κ × α)) :
    (entries.filter fun entry => entry.1 ≠ key).lookup other =
      if other = key then none else entries.lookup other := by
  induction entries with
  | nil => simp
  | cons entry rest ih =>
    obtain ⟨first, value⟩ := entry
    by_cases here : first = key
    · subst here
      rw [List.filter_cons_of_neg (by simp), ih, List.lookup_cons]
      by_cases same : other = first
      · rw [if_pos same, if_pos same]
      · rw [if_neg same, if_neg same, beq_false_of_ne same]
    · rw [List.filter_cons_of_pos (by simpa using here), List.lookup_cons, List.lookup_cons, ih]
      by_cases same : other = first
      · subst same
        simp only [beq_self_eq_true, if_neg here]
      · rw [beq_false_of_ne same]

theorem lookup_map_value (entries : List (κ × α)) (f : κ → α → β) (key : κ) :
    (entries.map fun entry => (entry.1, f entry.1 entry.2)).lookup key =
      (entries.lookup key).map (f key) := by
  induction entries with
  | nil => rfl
  | cons entry rest ih =>
    rw [List.map_cons, List.lookup_cons, List.lookup_cons]
    cases same : key == entry.1 with
    | true =>
      obtain rfl : key = entry.1 := by simpa using same
      rfl
    | false => exact ih

theorem mem_of_lookup (found : entries.lookup key = some value) : (key, value) ∈ entries := by
  obtain ⟨before, after, rfl, _⟩ := List.lookup_eq_some_iff.mp found
  simp

theorem notMem_keys (missing : entries.lookup key = none) : key ∉ entries.map Prod.fst := by
  intro member
  obtain ⟨entry, there, rfl⟩ := List.mem_map.mp member
  simpa using List.lookup_eq_none_iff.mp missing entry there

theorem lookup_of_mem (once : (entries.map Prod.fst).Nodup) (member : (key, value) ∈ entries) :
    entries.lookup key = some value := by
  cases found : entries.lookup key with
  | none => exact absurd (List.mem_map_of_mem member) (notMem_keys found)
  | some other =>
    have same := List.inj_on_of_nodup_map once (mem_of_lookup found) member rfl
    rw [(Prod.mk.inj same).2]

/-- With one entry for each key, a sum loses the summand of a key that is taken away. -/
theorem sum_filter_ne [DecidableEq κ] (once : (entries.map Prod.fst).Nodup) (weight : α → Nat)
    (key : κ) :
    ((entries.filter fun entry => entry.1 ≠ key).map fun entry => weight entry.2).sum +
      ((entries.lookup key).map weight).getD 0 = (entries.map fun entry => weight entry.2).sum := by
  induction entries with
  | nil => rfl
  | cons entry rest ih =>
    obtain ⟨new, others⟩ := List.nodup_cons.mp once
    rw [List.map_cons, List.sum_cons, List.lookup_cons]
    by_cases here : entry.1 = key
    · subst here
      have stays : (rest.filter fun other => other.1 ≠ entry.1) = rest := by
        refine List.filter_eq_self.mpr fun other member => ?_
        simpa using ne_of_mem_of_not_mem (List.mem_map_of_mem member) new
      rw [List.filter_cons_of_neg (by simp), stays, beq_self_eq_true]
      exact Nat.add_comm _ _
    · rw [List.filter_cons_of_pos (by simpa using here), beq_false_of_ne (Ne.symm here),
        List.map_cons, List.sum_cons, Nat.add_assoc, ih others]

end ChunkedUpload
