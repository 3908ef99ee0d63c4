import ChunkedUpload.Proofs.FileSystem.Places
import ChunkedUpload.Proofs.Text.Ascii
import ChunkedUpload.Store
import Mathlib.Data.Nat.Digits.Defs

/-! The names of stored parts. The number of a part is read back from its name, and no other name
that the store makes is taken for one. -/
namespace ChunkedUpload

open Text

namespace Path

theorem isName_ascii {cs : List Char} (ascii : IsAscii cs) (some_chars : cs ≠ [])
    (one : '/' ∉ cs) : IsName (asciiBytes cs) := by
  refine ⟨by simpa [asciiBytes] using some_chars, fun member => ?_⟩
  obtain ⟨c, there, same⟩ := List.mem_map.mp member
  obtain ⟨_, read⟩ := toUInt8_ascii (ascii c there)
  rw [same] at read
  exact one (read ▸ there)

end Path

namespace Store

def partFile (part : UInt32) : FileName := (Path.ofString (partName part)).bytes

def temporaryFile (part : UInt32) : FileName := (Path.ofString (partName part ++ ".tmp")).bytes

/-- The name of the directory with the parts of a file. -/
def idFile (fileId : Int64) : FileName := (Path.ofString (toString fileId.toInt)).bytes

theorem partName_eq (part : UInt32) :
    partName part = String.ofList (Nat.toDigits 10 part.toNat ++ suffix.toList) := by
  rw [partName, Nat.toString_eq_ofList_toDigits, String.ofList_append, String.ofList_toList]

theorem partFile_eq (part : UInt32) :
    partFile part = asciiBytes (Nat.toDigits 10 part.toNat ++ suffix.toList) ∧
    IsAscii (Nat.toDigits 10 part.toNat ++ suffix.toList) := by
  have ascii := isAscii_append (isAscii_digits part.toNat) (by decide : IsAscii suffix.toList)
  rw [partFile, partName_eq, bytes_ofString ascii]
  exact ⟨rfl, ascii⟩

theorem temporaryFile_eq (part : UInt32) :
    temporaryFile part =
      asciiBytes (Nat.toDigits 10 part.toNat ++ (suffix.toList ++ ".tmp".toList)) ∧
    IsAscii (Nat.toDigits 10 part.toNat ++ (suffix.toList ++ ".tmp".toList)) := by
  have ascii := isAscii_append (isAscii_digits part.toNat)
    (by decide : IsAscii (suffix.toList ++ ".tmp".toList))
  have text : partName part ++ ".tmp" =
      String.ofList (Nat.toDigits 10 part.toNat ++ (suffix.toList ++ ".tmp".toList)) := by
    rw [partName_eq, ← List.append_assoc, String.ofList_append, String.ofList_append,
      String.ofList_append, String.ofList_toList, String.ofList_toList]
  rw [temporaryFile, text, bytes_ofString ascii]
  exact ⟨rfl, ascii⟩

theorem notMem_digits {n : Nat} {c : Char} (other : ¬ ('0' ≤ c ∧ c ≤ '9')) :
    c ∉ Nat.toDigits 10 n := fun member => other (digit_of_mem member)

theorem toString_ofNat (n : Nat) : toString (Int.ofNat n) = String.ofList (Nat.toDigits 10 n) :=
  Nat.toString_eq_ofList_toDigits

theorem toString_negSucc (n : Nat) :
    toString (Int.negSucc n) = String.ofList ('-' :: Nat.toDigits 10 (n + 1)) := by
  have front : String.ofList ('-' :: Nat.toDigits 10 (n + 1)) =
      "-" ++ String.ofList (Nat.toDigits 10 (n + 1)) := String.ofList_cons
  rw [front, ← Nat.toString_eq_ofList_toDigits]
  rfl

theorem idFile_eq (fileId : Int64) :
    ∃ cs : List Char,
      idFile fileId = asciiBytes cs ∧ IsAscii cs ∧ cs ≠ [] ∧ '/' ∉ cs ∧ '.' ∉ cs := by
  have numeral : ∀ n : Nat, Nat.toDigits 10 n ≠ [] := fun n => Nat.toDigits_ne_nil
  have slash : ∀ n : Nat, '/' ∉ Nat.toDigits 10 n := fun n => notMem_digits (by decide)
  have dot : ∀ n : Nat, '.' ∉ Nat.toDigits 10 n := fun n => notMem_digits (by decide)
  rw [idFile]
  cases fileId.toInt with
  | ofNat n =>
    rw [toString_ofNat, bytes_ofString (isAscii_digits n)]
    exact ⟨_, rfl, isAscii_digits n, numeral n, slash n, dot n⟩
  | negSucc n =>
    have ascii : IsAscii ('-' :: Nat.toDigits 10 (n + 1)) :=
      isAscii_append (by decide : IsAscii ['-']) (isAscii_digits (n + 1))
    rw [toString_negSucc, bytes_ofString ascii]
    refine ⟨_, rfl, ascii, by simp, ?_, ?_⟩
    · simpa using slash (n + 1)
    · simpa using dot (n + 1)

section Names

variable (part : UInt32) (fileId : Int64)

theorem isName_numbered {n : Nat} {ending : List Char}
    (ascii : IsAscii (Nat.toDigits 10 n ++ ending)) (one : '/' ∉ ending) :
    Path.IsName (asciiBytes (Nat.toDigits 10 n ++ ending)) := by
  refine Path.isName_ascii ascii (by simp) fun member => ?_
  rcases List.mem_append.mp member with digit | later
  · exact notMem_digits (by decide) digit
  · exact one later

theorem isName_partFile : Path.IsName (partFile part) := by
  obtain ⟨bytes, ascii⟩ := partFile_eq part
  exact bytes ▸ isName_numbered ascii (by decide)

theorem isName_temporaryFile : Path.IsName (temporaryFile part) := by
  obtain ⟨bytes, ascii⟩ := temporaryFile_eq part
  exact bytes ▸ isName_numbered ascii (by decide)

theorem isName_idFile : Path.IsName (idFile fileId) := by
  obtain ⟨cs, bytes, ascii, some_chars, one, _⟩ := idFile_eq fileId
  rw [bytes]
  exact Path.isName_ascii ascii some_chars one

theorem ordinary_idFile : FileSystem.Ordinary (idFile fileId) := by
  obtain ⟨cs, bytes, ascii, _, _, no_dot⟩ := idFile_eq fileId
  have plain : Path.dot ∉ idFile fileId := by
    rw [bytes]
    intro member
    obtain ⟨c, there, same⟩ := List.mem_map.mp member
    obtain ⟨_, read⟩ := toUInt8_ascii (ascii c there)
    rw [same] at read
    exact no_dot (read ▸ there)
  exact ⟨fun same => plain (by simp [same]), fun same => plain (by simp [same])⟩

theorem length_asciiBytes (cs : List Char) : (asciiBytes cs).length = cs.length :=
  List.length_map _

theorem length_partFile :
    (partFile part).length = (Nat.toDigits 10 part.toNat).length + 5 := by
  obtain ⟨bytes, _⟩ := partFile_eq part
  rw [bytes, length_asciiBytes, List.length_append]
  rfl

theorem short_partFile : (partFile part).length ≤ FileSystem.maxNameBytes := by
  have digits := Nat.toDigits_length 10 part.toNat 10 (by omega)
    (Nat.lt_trans part.toNat_lt (by decide))
  rw [length_partFile, FileSystem.maxNameBytes]
  omega

theorem ordinary_partFile : FileSystem.Ordinary (partFile part) := by
  have length := length_partFile part
  constructor <;>
    · intro same
      rw [same] at length
      simp at length

theorem short_idFile : (idFile fileId).length ≤ FileSystem.maxNameBytes := by
  have below := fileId.toInt_lt
  have above := fileId.le_toInt
  rw [idFile, FileSystem.maxNameBytes]
  cases value : fileId.toInt with
  | ofNat n =>
    rw [value, Int.ofNat_eq_natCast] at below
    have digits := Nat.toDigits_length 10 n 19 (by omega) (by omega)
    rw [toString_ofNat, bytes_ofString (isAscii_digits n), length_asciiBytes]
    omega
  | negSucc n =>
    have digits := Nat.toDigits_length 10 (n + 1) 19 (by omega) (by omega)
    have ascii : IsAscii ('-' :: Nat.toDigits 10 (n + 1)) :=
      isAscii_append (by decide : IsAscii ['-']) (isAscii_digits (n + 1))
    rw [toString_negSucc, bytes_ofString ascii, length_asciiBytes, List.length_cons]
    omega

end Names

theorem withoutSuffix?_append (text ending : List Char) :
    withoutSuffix? ending (text ++ ending) = some text := by
  rw [withoutSuffix?, if_pos (List.isSuffixOf_iff_suffix.mpr (List.suffix_append text ending)),
    List.length_append, Nat.add_sub_cancel, List.take_left]

theorem withoutSuffix?_eq_none {text ending : List Char} (other : ¬ ending <:+ text) :
    withoutSuffix? ending text = none := by
  rw [withoutSuffix?, if_neg (by rwa [List.isSuffixOf_iff_suffix])]

theorem partOfName?_partFile (part : UInt32) : partOfName? (partFile part) = some part := by
  obtain ⟨bytes, ascii⟩ := partFile_eq part
  rw [partOfName?, bytes, decodeLossy_ascii ascii, withoutSuffix?_append, Option.bind_some,
    word32?_digits]

theorem partOfName?_temporaryFile (part : UInt32) : partOfName? (temporaryFile part) = none := by
  obtain ⟨bytes, ascii⟩ := temporaryFile_eq part
  have other : ¬ suffix.toList <:+
      Nat.toDigits 10 part.toNat ++ (suffix.toList ++ ".tmp".toList) := by
    intro ending
    -- both end it, so the shorter would end the longer
    have tail := List.suffix_of_suffix_length_le ending
      (List.suffix_append (Nat.toDigits 10 part.toNat) (suffix.toList ++ ".tmp".toList)) (by decide)
    exact absurd tail (by decide)
  rw [partOfName?, bytes, decodeLossy_ascii ascii, withoutSuffix?_eq_none other, Option.bind_none]

theorem partOfName?_idFile (fileId : Int64) : partOfName? (idFile fileId) = none := by
  obtain ⟨cs, bytes, ascii, _, _, no_dot⟩ := idFile_eq fileId
  have other : ¬ suffix.toList <:+ cs := fun ending => no_dot (ending.subset (by decide))
  rw [partOfName?, bytes, decodeLossy_ascii ascii, withoutSuffix?_eq_none other, Option.bind_none]

theorem partFile_inj {part other : UInt32} (same : partFile part = partFile other) :
    part = other := by
  have read := partOfName?_partFile part
  rw [same, partOfName?_partFile] at read
  exact (Option.some.inj read).symm

theorem partFile_ne_temporaryFile (part other : UInt32) : partFile part ≠ temporaryFile other := by
  intro same
  have read := partOfName?_partFile part
  rw [same, partOfName?_temporaryFile] at read
  contradiction

theorem temporaryFile_inj {part other : UInt32} (same : temporaryFile part = temporaryFile other) :
    part = other := by
  obtain ⟨bytes, ascii⟩ := temporaryFile_eq part
  obtain ⟨others, also⟩ := temporaryFile_eq other
  rw [bytes, others] at same
  have digits := List.append_cancel_right (asciiBytes_inj ascii also same)
  have read := word32?_digits part
  rw [digits, word32?_digits] at read
  exact (Option.some.inj read).symm

theorem digits_inj {n m : Nat} (same : Nat.toDigits 10 n = Nat.toDigits 10 m) : n = m := by
  have read := @Nat.ofDigitChars_ten_toDigits n
  rw [same, Nat.ofDigitChars_ten_toDigits] at read
  exact read.symm

theorem toString_int_inj {a b : Int} (same : toString a = toString b) : a = b := by
  have unsigned : ∀ n, '-' ∉ Nat.toDigits 10 n := fun n => notMem_digits (by decide)
  cases a with
  | ofNat n =>
    cases b with
    | ofNat m =>
      rw [toString_ofNat, toString_ofNat] at same
      exact congrArg Int.ofNat (digits_inj (String.ofList_injective same))
    | negSucc m =>
      rw [toString_ofNat, toString_negSucc] at same
      have signed := String.ofList_injective same
      exact absurd (signed ▸ List.mem_cons_self) (unsigned _)
  | negSucc n =>
    cases b with
    | ofNat m =>
      rw [toString_ofNat, toString_negSucc] at same
      have signed := String.ofList_injective same
      exact absurd (signed ▸ List.mem_cons_self) (unsigned _)
    | negSucc m =>
      rw [toString_negSucc, toString_negSucc] at same
      have digits := (List.cons.inj (String.ofList_injective same)).2
      exact congrArg Int.negSucc (Nat.succ.inj (digits_inj digits))

theorem idFile_inj {fileId other : Int64} (same : idFile fileId = idFile other) :
    fileId = other := by
  have bytes : ∀ text : String, (Path.ofString text).bytes = text.toByteArray.data.toList :=
    fun text => toList_bytes _
  rw [idFile, idFile, bytes, bytes, Array.toList_inj] at same
  exact Int64.toInt_inj.mp (toString_int_inj (String.toByteArray_inj.mp (ByteArray.ext same)))

/-- Not the name of a part in any other digits than the store would write. -/
def Plain (name : FileName) : Prop := ∀ part, partOfName? name = some part → name = partFile part

theorem plain_partFile (part : UInt32) : Plain (partFile part) := by
  intro other read
  rw [partOfName?_partFile] at read
  rw [Option.some.inj read]

theorem plain_of_unread {name : FileName} (unread : partOfName? name = none) : Plain name := by
  intro other read
  rw [unread] at read
  contradiction

theorem plain_temporaryFile (part : UInt32) : Plain (temporaryFile part) :=
  plain_of_unread (partOfName?_temporaryFile part)

theorem plain_idFile (fileId : Int64) : Plain (idFile fileId) :=
  plain_of_unread (partOfName?_idFile fileId)

end Store

end ChunkedUpload
