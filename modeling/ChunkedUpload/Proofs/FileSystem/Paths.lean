import ChunkedUpload.FileSystem.Path
import Mathlib.Data.List.Basic

/-! The names on a path. One more name in front of its end leaves all others as they are, and the
path to the directory above has no name of its own. -/
namespace ChunkedUpload.Path

/-- What can stand between two slashes. -/
structure IsName (name : FileName) : Prop where
  some_bytes : name ≠ []
  one : slash ∉ name

theorem cut_append (name a b : List UInt8) :
    cut name (a ++ slash :: b) = cut name a ++ cut [] b := by
  induction a generalizing name with
  | nil => simp [cut]
  | cons byte rest ih =>
    rw [List.cons_append, cut, cut]
    split
    · rw [ih, List.cons_append]
    · rw [ih]

theorem cut_of_one {name bytes : List UInt8} (one : slash ∉ bytes) :
    cut name bytes = [name ++ bytes] := by
  induction bytes generalizing name with
  | nil => rw [cut, List.append_nil]
  | cons byte rest ih =>
    have other : byte ≠ slash := fun same => one (by simp [same])
    have later : slash ∉ rest := fun member => one (by simp [member])
    rw [cut, if_neg other, ih later, List.append_assoc, List.singleton_append]

theorem slash_notMem_of_cut {name bytes : List UInt8} (one : slash ∉ name) :
    ∀ piece ∈ cut name bytes, slash ∉ piece := by
  induction bytes generalizing name with
  | nil => simpa [cut] using one
  | cons byte rest ih =>
    rw [cut]
    split
    · intro piece member
      rcases List.mem_cons.mp member with rfl | later
      · exact one
      · exact ih (by simp) piece later
    · rename_i other
      exact ih (by simp [one, Ne.symm other])

theorem isName_of_mem_names {path : Path} {name : FileName} (member : name ∈ path.names) :
    IsName name := by
  obtain ⟨found, some_bytes⟩ := List.mem_filter.mp member
  exact ⟨by simpa using some_bytes, slash_notMem_of_cut (by simp) name found⟩

theorem names_of_isName {name : FileName} (h : IsName name) : names ⟨name⟩ = [name] := by
  simp [names, cut_of_one h.one, h.some_bytes]

theorem names_append (a b : List UInt8) :
    names ⟨a ++ slash :: b⟩ = names ⟨a⟩ ++ names ⟨b⟩ := by
  simp [names, cut_append]

theorem names_of_last {path : Path} {name : FileName} (last : path.names.getLast? = some name) :
    path.names = path.names.dropLast ++ [name] :=
  (List.dropLast_append_getLast? name (by rw [last]; rfl)).symm

section Child

variable {path : Path} {text : String} (named : IsName (ofString text).bytes)

include named

theorem not_isAbsolute_of_isName : (ofString text).isAbsolute = false := by
  rw [isAbsolute]
  cases bytes : (ofString text).bytes with
  | nil => rfl
  | cons byte rest =>
    have other : byte ≠ slash := fun same => named.one (by simp [bytes, same])
    simpa using other

theorem not_endsInSlash_of_isName (bytes : List UInt8) :
    endsInSlash ⟨bytes ++ (ofString text).bytes⟩ = false := by
  rw [endsInSlash, List.getLast?_append_of_ne_nil _ named.some_bytes]
  cases last : (ofString text).bytes.getLast? with
  | none => rfl
  | some byte =>
    have other : byte ≠ slash := by
      rintro rfl
      exact named.one (List.mem_of_getLast? last)
    simpa using other

theorem child_bytes : ∃ front : List UInt8,
    (path.child text).bytes = front ++ (ofString text).bytes ∧
    names ⟨front ++ (ofString text).bytes⟩ = path.names ++ [(ofString text).bytes] ∧
    ((front = [] ∧ path.bytes = []) ∨ front.head? = path.bytes.head? ∧ path.bytes ≠ []) := by
  rw [child, join, not_isAbsolute_of_isName named]
  obtain ⟨bytes⟩ := path
  rcases List.eq_nil_or_concat' bytes with rfl | ⟨front, last, rfl⟩
  · exact ⟨[], rfl, by rw [List.nil_append, names_of_isName named]; rfl, .inl ⟨rfl, rfl⟩⟩
  · by_cases ends : last = slash
    · subst ends
      refine ⟨front ++ [slash], by simp [endsInSlash], ?_, .inr ⟨by simp, by simp⟩⟩
      have nothing : names ⟨[]⟩ = [] := rfl
      rw [List.append_assoc, List.singleton_append, names_append, names_append,
        names_of_isName named, nothing, List.append_nil]
    · refine ⟨(front ++ [last]) ++ [slash], by simp [endsInSlash, ends], ?_, .inr ⟨?_, by simp⟩⟩
      · rw [List.append_assoc, List.singleton_append, names_append, names_of_isName named]
      · cases front <;> rfl

theorem names_child : (path.child text).names = path.names ++ [(ofString text).bytes] := by
  obtain ⟨front, bytes, named, _⟩ := child_bytes named
  rw [← named, ← bytes]

theorem isAbsolute_child : (path.child text).isAbsolute = path.isAbsolute := by
  obtain ⟨front, bytes, _, begins⟩ := @child_bytes path text named
  have relative := not_isAbsolute_of_isName named
  rw [isAbsolute] at relative
  rw [isAbsolute, isAbsolute, bytes]
  rcases begins with ⟨rfl, empty⟩ | ⟨same, some_bytes⟩
  · rw [empty, List.nil_append, relative]
    rfl
  · rw [List.head?_append, same]
    cases head : path.bytes.head? with
    | none => exact absurd (List.head?_eq_none_iff.mp head) some_bytes
    | some byte => rfl

theorem child_append : ∃ rest, (path.child text).bytes = path.bytes ++ rest := by
  rw [child, join, not_isAbsolute_of_isName named]
  simp only [Bool.false_eq_true, if_false]
  split
  · exact ⟨_, rfl⟩
  · exact ⟨_, rfl⟩

theorem not_endsInSlash_child : (path.child text).endsInSlash = false := by
  obtain ⟨front, bytes, _⟩ := @child_bytes path text named
  rw [endsInSlash, bytes]
  exact not_endsInSlash_of_isName named front

end Child

theorem mem_names_of_mem_steps {path : Path} {name : FileName} (member : name ∈ path.steps) :
    name ∈ path.names := by
  unfold steps at member
  split at member
  · contradiction
  · rename_i first rest named
    rw [named]
    dsimp only at member
    split at member
    · exact List.mem_cons_of_mem _ (List.mem_of_mem_filter member)
    · rcases List.mem_cons.mp member with rfl | later
      · exact List.mem_cons_self
      · exact List.mem_cons_of_mem _ (List.mem_of_mem_filter later)

theorem names_flatten {steps : List FileName} (named : ∀ name ∈ steps, IsName name) :
    names ⟨(steps.intersperse [slash]).flatten⟩ = steps := by
  induction steps with
  | nil => rfl
  | cons first rest ih =>
    have front := names_of_isName (named first (by simp))
    cases rest with
    | nil => simpa using front
    | cons second others =>
      rw [List.intersperse_cons_cons, List.flatten_cons, List.flatten_cons, List.singleton_append,
        names_append, front, ih fun name member => named name (by simp [member])]
      rfl

theorem names_ofSteps (absolute : Bool) {steps : List FileName}
    (named : ∀ name ∈ steps, IsName name) : (ofSteps absolute steps).names = steps := by
  cases absolute with
  | false => exact names_flatten named
  | true =>
    have flat := names_append [] (steps.intersperse [slash]).flatten
    rw [List.nil_append, names_flatten named] at flat
    exact flat

theorem isAbsolute_ofSteps (absolute : Bool) {steps : List FileName}
    (named : ∀ name ∈ steps, IsName name) : (ofSteps absolute steps).isAbsolute = absolute := by
  cases absolute with
  | true => rfl
  | false =>
    have some_slash : ∀ rest : List UInt8, slash :: rest ≠ (steps.intersperse [slash]).flatten := by
      intro rest same
      cases steps with
      | nil => contradiction
      | cons first others =>
        obtain ⟨some_bytes, one⟩ := named first List.mem_cons_self
        have front : ∃ later, (List.intersperse [slash] (first :: others)).flatten =
            first ++ later := by
          cases others with
          | nil => exact ⟨[], by simp⟩
          | cons second more =>
            rw [List.intersperse_cons_cons, List.flatten_cons]
            exact ⟨_, rfl⟩
        obtain ⟨later, bytes⟩ := front
        rw [bytes] at same
        cases first with
        | nil => exact some_bytes rfl
        | cons byte _ => exact one ((List.cons.inj same).1 ▸ List.mem_cons_self)
    rw [ofSteps, isAbsolute]
    cases bytes : (steps.intersperse [slash]).flatten with
    | nil => rfl
    | cons byte rest =>
      have other : byte ≠ slash := by
        rintro rfl
        exact some_slash rest bytes.symm
      simpa using other

section Parent

variable {path parent : Path}

theorem isName_of_mem_dropLast {name : FileName} (member : name ∈ path.steps.dropLast) :
    IsName name :=
  isName_of_mem_names (mem_names_of_mem_steps (List.dropLast_subset _ member))

theorem parent_eq (above : path.parent? = some parent) :
    parent = ofSteps path.isAbsolute path.steps.dropLast := by
  unfold parent? at above
  split at above
  · contradiction
  · exact (Option.some.inj above).symm

theorem names_parent (above : path.parent? = some parent) :
    parent.names = path.steps.dropLast := by
  rw [parent_eq above, names_ofSteps _ fun _ => isName_of_mem_dropLast]

theorem isAbsolute_parent (above : path.parent? = some parent) :
    parent.isAbsolute = path.isAbsolute := by
  rw [parent_eq above, isAbsolute_ofSteps _ fun _ => isName_of_mem_dropLast]

theorem mem_names_of_parent {name : FileName} (above : path.parent? = some parent)
    (member : name ∈ parent.names) : name ∈ path.names := by
  rw [names_parent above] at member
  exact mem_names_of_mem_steps (List.dropLast_subset _ member)

end Parent

end ChunkedUpload.Path
