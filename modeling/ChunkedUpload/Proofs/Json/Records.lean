import ChunkedUpload.Json.Value
import ChunkedUpload.Proofs.Json.Tokens

/-! Records are read back from their texts, whether they were written on one line or on several. -/
namespace ChunkedUpload.Json

/-- Where a record has blanks: in front of each of its members, behind the colon of each, and behind
the last one. -/
structure Layout where
  before : List Char
  after : List Char
  last : List Char
  blank_before : ∀ c ∈ before, isBlank c = true
  blank_after : ∀ c ∈ after, isBlank c = true
  blank_last : ∀ c ∈ last, isBlank c = true

namespace Layout

def oneLine : Layout := ⟨[], [], [], by simp, by simp, by simp⟩

def indented : Layout :=
  ⟨['\n', ' ', ' '], [' '], ['\n'], by simp [isBlank], by simp [isBlank], by simp [isBlank]⟩

variable (layout : Layout)

def member (entry : String × Scalar) : List Char :=
  layout.before ++ (quote entry.1 ++ ':' :: (layout.after ++ entry.2.render))

def members (record : Record) : List Char :=
  ((record.map layout.member).intersperse [',']).flatten

def render (record : Record) : String :=
  String.ofList ('{' :: layout.members record ++ (layout.last ++ ['}']))

end Layout

theorem compact_eq (record : Record) : compact record = Layout.oneLine.render record := rfl

theorem pretty_eq (record : Record) : pretty record = Layout.indented.render record := rfl

def entryTokens (entry : String × Scalar) : List Token :=
  [.text entry.1, .colon, entry.2.token]

def memberTokens (record : Record) : List Token :=
  ((record.map entryTokens).intersperse [.comma]).flatten

theorem memberTokens_single (entry : String × Scalar) :
    memberTokens [entry] = entryTokens entry := by
  simp [memberTokens]

theorem memberTokens_cons (entry next : String × Scalar) (later : Record) :
    memberTokens (entry :: next :: later) =
      entryTokens entry ++ .comma :: memberTokens (next :: later) :=
  rfl

section Layout

variable (layout : Layout) {rest : List Char} {tokens : List Token}

theorem Layout.spells_member {entry : String × Scalar} (fits : entry.2.Fits)
    (spells : Spells rest tokens) (ends : Ends rest) :
    Spells (layout.member entry ++ rest) (entryTokens entry ++ tokens) := by
  obtain ⟨c, dark, begins⟩ := head_render entry.2
  have value := spells.next dark begins (readToken_render fits ends)
  have after := value.blanks layout.blank_after
  have colon := after.mark (by decide : isBlank ':' = false) rfl
  have key := colon.next (by decide : isBlank '"' = false) rfl (readToken_quote entry.1 _)
  have whole := key.blanks layout.blank_before
  simpa only [Layout.member, entryTokens, List.append_assoc, List.cons_append, List.nil_append]
    using whole

theorem Layout.spells_members {record : Record} (fits : ∀ entry ∈ record, entry.2.Fits)
    (spells : Spells rest tokens) (ends : Ends rest) :
    Spells (layout.members record ++ rest) (memberTokens record ++ tokens) := by
  induction record with
  | nil => exact spells
  | cons entry record ih =>
    have here := fits entry List.mem_cons_self
    cases record with
    | nil =>
      have single := layout.spells_member here spells ends
      rw [memberTokens_single]
      simpa [Layout.members] using single
    | cons next later =>
      have further := ih fun other member => fits other (List.mem_cons_of_mem entry member)
      have comma := further.mark (by decide : isBlank ',' = false) rfl
      have whole := layout.spells_member here comma (ends_comma _)
      rw [memberTokens_cons]
      simpa only [Layout.members, List.map_cons, List.intersperse_cons_cons, List.flatten_cons,
        List.append_assoc, List.singleton_append, List.cons_append, List.nil_append] using whole

/-- A record is spelled by its tokens in either layout. -/
theorem Layout.tokens?_render {record : Record} (fits : ∀ entry ∈ record, entry.2.Fits) :
    tokens? (layout.render record).toList =
      some (.openBrace :: memberTokens record ++ [.closeBrace]) := by
  have close : Spells ['}'] [.closeBrace] := spells_nil.mark (by decide) rfl
  have last := close.blanks layout.blank_last
  have inner := layout.spells_members fits last (ends_blanks layout.blank_last [])
  have whole := inner.mark (by decide : isBlank '{' = false) rfl
  rw [tokens?, Layout.render, String.toList_ofList, List.cons_append, List.cons_append]
  exact whole _ (Nat.le_refl _)

end Layout

section Values

variable {rest : List Token}

def Scalar.value : Scalar → Json
  | text value => .text value
  | integer value => .integer value

/-- The members of a record as they are read. -/
def valuesOf (record : Record) : List (String × Json) :=
  record.map fun (key, scalar) => (key, scalar.value)

theorem readValue_token (scalar : Scalar) (fuel depth : Nat) :
    readValue (fuel + 1) depth (scalar.token :: rest) = some (scalar.value, rest) := by
  cases scalar <;> rw [Scalar.token, readValue] <;> rfl

theorem readMembers_last (entry : String × Scalar) (fuel depth : Nat) :
    readMembers (fuel + 2) depth (entryTokens entry ++ .closeBrace :: rest) =
      some ([(entry.1, entry.2.value)], rest) := by
  rw [entryTokens, List.cons_append, List.cons_append, List.cons_append, readMembers]
  simp only [readValue_token, List.nil_append, Option.bind_eq_bind, Option.bind_some]
  rfl

theorem readMembers_next (entry : String × Scalar) (fuel depth : Nat) :
    readMembers (fuel + 2) depth (entryTokens entry ++ .comma :: rest) =
      (readMembers (fuel + 1) depth rest).map fun (members, rest) =>
        ((entry.1, entry.2.value) :: members, rest) := by
  rw [entryTokens, List.cons_append, List.cons_append, List.cons_append, readMembers]
  simp only [readValue_token, List.nil_append, Option.bind_eq_bind, Option.bind_some]
  cases readMembers (fuel + 1) depth rest <;> rfl

theorem readMembers_members {record : Record} (some_members : record ≠ []) {fuel : Nat}
    (depth : Nat) (enough : record.length < fuel) :
    readMembers fuel depth (memberTokens record ++ .closeBrace :: rest) =
      some (valuesOf record, rest) := by
  induction record generalizing fuel with
  | nil => exact absurd rfl some_members
  | cons entry record ih =>
    rw [List.length_cons] at enough
    obtain ⟨fuel, rfl⟩ : ∃ left, fuel = left + 2 := ⟨fuel - 2, by omega⟩
    cases record with
    | nil => rw [memberTokens_single, readMembers_last]; rfl
    | cons next later =>
      have further := ih (List.cons_ne_nil _ _) (by omega : _ < fuel + 1)
      rw [memberTokens_cons, List.append_assoc, List.cons_append, readMembers_next, further]
      rfl

theorem length_memberTokens (record : Record) : record.length ≤ (memberTokens record).length := by
  induction record with
  | nil => exact Nat.le_refl 0
  | cons entry record ih =>
    cases record with
    | nil => rw [memberTokens_single]; simp [entryTokens]
    | cons next later =>
      simp only [memberTokens_cons, List.length_append, List.length_cons] at ih ⊢
      omega

/-- The reader takes the braces of an empty record as one, and any other record member by member. -/
theorem readValue_record (record : Record) {fuel depth : Nat} (deep : 1 < depth)
    (enough : record.length < fuel) :
    readValue (fuel + 1) depth (.openBrace :: (memberTokens record ++ .closeBrace :: rest)) =
      some (.object (valuesOf record), rest) := by
  have allowed : ¬ depth ≤ 1 := Nat.not_le_of_lt deep
  cases record with
  | nil =>
    rw [memberTokens, List.map_nil, List.intersperse_nil, List.flatten_nil, List.nil_append,
      readValue, if_neg allowed]
    rfl
  | cons entry record =>
    have read := @readMembers_members rest _ (List.cons_ne_nil entry record) fuel (depth - 1) enough
    have begins : ∃ later, memberTokens (entry :: record) ++ .closeBrace :: rest =
        .text entry.1 :: later := by
      cases record with
      | nil => exact ⟨_, by rw [memberTokens_single]; rfl⟩
      | cons next later => exact ⟨_, by rw [memberTokens_cons]; rfl⟩
    obtain ⟨later, same⟩ := begins
    rw [same] at read ⊢
    rw [readValue, if_neg allowed, read]
    rfl
    all_goals
      rintro _ ⟨⟩

/-- A record is read back from either layout. -/
theorem parse?_render (layout : Layout) {record : Record}
    (fits : ∀ entry ∈ record, entry.2.Fits) :
    parse? (layout.render record) = some (.object (valuesOf record)) := by
  have members := length_memberTokens record
  have enough : record.length <
      2 * (Token.openBrace :: (memberTokens record ++ [.closeBrace])).length := by
    rw [List.length_cons, List.length_append]
    omega
  have read := @readValue_record [] record _ maxDepth (by decide) enough
  rw [parse?, layout.tokens?_render fits]
  simp only [Option.bind_eq_bind, Option.bind_some, List.cons_append] at read ⊢
  rw [read]
  rfl

end Values

end ChunkedUpload.Json
