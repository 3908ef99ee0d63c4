import ChunkedUpload.Proofs.Json.Records
import ChunkedUpload.Reference.Json
import Mathlib.Data.List.Perm.Basic

/-! References are the same after they were written as JSON and read again, in whatever order and
with whatever blanks the members of a reference stand. -/
namespace ChunkedUpload

namespace Json

variable {members others : List (String × Json)}

/-- A key is looked up the same in every order of the members. -/
theorem member?_perm (same : members.Perm others) (key : String) :
    member? members key = member? others key := by
  have kept := same.filter fun entry => entry.1 == key
  rw [member?, member?]
  generalize (members.filter fun entry => entry.1 == key) = found at kept ⊢
  generalize (others.filter fun entry => entry.1 == key) = also at kept ⊢
  rcases also with _ | ⟨entry, _ | ⟨second, rest⟩⟩
  · rw [List.perm_nil.mp kept]
  · rw [List.perm_singleton.mp kept]
  · have several := kept.length_eq
    rcases found with _ | ⟨other, _ | ⟨next, later⟩⟩
    · rfl
    · simp at several
    · rfl

end Json

namespace FileReference

open Json (Layout)

variable {reference : FileReference}

theorem signed64OfInt?_toInt (id : Int64) : Text.signed64OfInt? id.toInt = some id := by
  rw [Text.signed64OfInt?, if_pos ⟨id.le_toInt, id.toInt_le⟩, Int64.ofInt_toInt]

theorem ofMembers?_perm {members others : List (String × Json)} (same : members.Perm others) :
    ofMembers? members = ofMembers? others := by
  simp only [ofMembers?, Json.member?_perm same]

theorem ofMembers?_record (reference : FileReference) :
    ofMembers? (Json.valuesOf reference.record) = some reference := by
  obtain ⟨id, parts, name, checksum⟩ := reference
  cases checksum <;>
    simp [Json.valuesOf, record, kind, isBig, ofMembers?, ofValues?, Json.member?,
      Json.Scalar.value, Json.toText?, Json.toSigned64?, Json.toWord32?, signed64OfInt?_toInt,
      Text.word32OfInt?_toNat]

theorem fits_record (reference : FileReference) : ∀ entry ∈ reference.record, entry.2.Fits := by
  have id := reference.fileId.le_toInt
  have id_most := reference.fileId.toInt_lt
  have parts := reference.parts.toNat_lt_size
  intro entry member
  simp only [record, List.cons_append, List.nil_append, List.mem_cons, List.mem_map] at member
  rcases member with rfl | rfl | rfl | rfl | ⟨sum, -, rfl⟩
  · trivial
  · exact ⟨id, by omega⟩
  · have below : reference.parts.toNat < 2 ^ 32 := parts
    simp only [Json.Scalar.Fits]
    omega
  · trivial
  · trivial

/-- What is written in some order and some layout is read as the reference. -/
theorem ofJson?_render (layout : Layout) {members : Json.Record}
    (same : members.Perm reference.record) :
    ofJson? (layout.render members) = some reference := by
  have fits : ∀ entry ∈ members, entry.2.Fits := fun entry member =>
    fits_record reference entry (same.mem_iff.mp member)
  have values : (Json.valuesOf members).Perm (Json.valuesOf reference.record) := same.map _
  rw [ofJson?, Json.parse?_render layout fits]
  simp only [Option.bind_eq_bind, Option.bind_some]
  rw [ofMembers?_perm values, ofMembers?_record]

/-- The kind that a value of JSON says it is. -/
def tag? : Json → Option String
  | .object members => (Json.member? members "kind").bind Json.toText?
  | .array (item :: _) => item.toText?
  | _ => none

theorem checksum_of_ofValues? {id parts name : Json} {checksum : Option String}
    (found : ofValues? id parts name checksum = some reference) :
    reference.checksum = checksum := by
  simp only [ofValues?, Option.bind_eq_bind, Option.bind_eq_some_iff, Option.pure_def,
    Option.some.injEq] at found
  obtain ⟨_, _, _, _, _, _, rfl⟩ := found
  rfl

theorem kind_of_ofMembers? {members : List (String × Json)}
    (found : ofMembers? members = some reference) :
    (Json.member? members "kind").bind Json.toText? = some reference.kind := by
  simp only [ofMembers?, Option.bind_eq_bind, Option.bind_eq_some_iff] at found
  obtain ⟨value, looked, kind, read, _, -, _, -, _, -, found⟩ := found
  rw [looked, Option.bind_some, read]
  split at found
  · simp only [Option.bind_eq_some_iff] at found
    obtain ⟨_, -, _, -, found⟩ := found
    rw [FileReference.kind, isBig, checksum_of_ofValues? found]
    rfl
  · rw [FileReference.kind, isBig, checksum_of_ofValues? found]
    rfl
  · contradiction

/-- Whatever is read as a reference says itself which kind it is. -/
theorem tag?_of_ofJson? {text : String} (found : ofJson? text = some reference) :
    (Json.parse? text).bind tag? = some reference.kind := by
  simp only [ofJson?, Option.bind_eq_bind, Option.bind_eq_some_iff] at found
  obtain ⟨value, parsed, found⟩ := found
  rw [parsed, Option.bind_some]
  split at found
  · exact kind_of_ofMembers? found
  · rw [ofItems?.eq_def] at found
    split at found
    · rw [FileReference.kind, isBig, checksum_of_ofValues? found]
      rfl
    · rw [FileReference.kind, isBig, checksum_of_ofValues? found]
      rfl
    · contradiction
  · contradiction

/-- A reference is read back from its text on one line and from its indented text, also where the
members stand in another order or have other blanks around them. No text is read as a reference of
a kind that it does not name. -/
theorem survives_json (reference : FileReference) :
    ofJson? reference.toJson = some reference ∧
      ofJson? reference.toPrettyJson = some reference ∧
      (∀ members : Json.Record, members.Perm reference.record →
        ofJson? (Json.compact members) = some reference ∧
          ofJson? (Json.pretty members) = some reference ∧
          ∀ layout : Layout, ofJson? (layout.render members) = some reference) ∧
      ∀ text, ∀ found : FileReference, ofJson? text = some found →
        (Json.parse? text).bind tag? = some found.kind := by
  have compact : ∀ members : Json.Record, members.Perm reference.record →
      ofJson? (Json.compact members) = some reference := fun members same => by
    rw [Json.compact_eq, ofJson?_render Layout.oneLine same]
  have pretty : ∀ members : Json.Record, members.Perm reference.record →
      ofJson? (Json.pretty members) = some reference := fun members same => by
    rw [Json.pretty_eq, ofJson?_render Layout.indented same]
  exact ⟨compact _ (.refl _), pretty _ (.refl _),
    fun members same => ⟨compact members same, pretty members same,
      fun layout => ofJson?_render layout same⟩,
    fun _ _ => tag?_of_ofJson?⟩

/-- A name of a quote, a backslash, a control, and a character of two units, with the kind last. -/
theorem reversed_members_survive :
    ofJson? (Json.compact (record ⟨-1, 2, "\"\\\n\x01😀", some "d4"⟩).reverse) =
        some ⟨-1, 2, "\"\\\n\x01😀", some "d4"⟩ ∧
      Json.compact (record ⟨-1, 2, "\"\\\n\x01😀", some "d4"⟩).reverse =
        "\x7b\"md5_checksum\":\"d4\",\"name\":\"\\\"\\\\\\n\\u0001😀\",\"parts\":2,\"id\":-1," ++
          "\"kind\":\"small\"\x7d" :=
  ⟨((survives_json _).2.2.1 _ (List.reverse_perm _)).1, by decide⟩

end FileReference

end ChunkedUpload
