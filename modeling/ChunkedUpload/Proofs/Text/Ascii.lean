import ChunkedUpload.FileSystem.Path
import ChunkedUpload.Text.Numeral
import Mathlib.Data.List.Basic

/-! Text of ASCII as bytes and back, and the numerals of natural numbers among it. -/
namespace ChunkedUpload

theorem toList_loop (bytes : ByteArray) (i : Nat) (before : List UInt8) :
    ByteArray.toList.loop bytes i before = before.reverse ++ bytes.data.toList.drop i := by
  induction left : bytes.size - i generalizing i before with
  | zero =>
    have behind : bytes.data.toList.length ≤ i := Nat.le_of_sub_eq_zero left
    rw [ByteArray.toList.loop, if_neg (by omega), List.drop_eq_nil_of_le behind, List.append_nil]
  | succ count ih =>
    have inside : i < bytes.size := by omega
    have here : bytes.get! i = bytes.data.toList[i] := getElem!_pos bytes.data i inside
    rw [ByteArray.toList.loop, if_pos inside, ih _ _ (by omega), List.reverse_cons,
      List.append_assoc, List.singleton_append, here, ← List.drop_eq_getElem_cons]

theorem toList_bytes (bytes : ByteArray) : bytes.toList = bytes.data.toList := by
  rw [ByteArray.toList, toList_loop]
  rfl

namespace Text

def IsAscii (cs : List Char) : Prop := ∀ c ∈ cs, c.val < 128

instance (cs : List Char) : Decidable (IsAscii cs) :=
  List.decidableBAll (fun c : Char => c.val < 128) cs

def asciiBytes (cs : List Char) : List UInt8 := cs.map fun c => c.val.toUInt8

theorem bytes_ofString {cs : List Char} (ascii : IsAscii cs) :
    (Path.ofString (String.ofList cs)).bytes = asciiBytes cs := by
  rw [Path.ofString, String.toUTF8, String.toByteArray_ofList, toList_bytes, List.utf8Encode,
    List.data_toByteArray]
  induction cs with
  | nil => rfl
  | cons c rest ih =>
    have small : c.val < 128 := ascii c (by simp)
    have one : c.utf8Size = 1 := by
      rw [Char.utf8Size, if_pos]
      exact Nat.le_of_lt_succ small
    rw [List.flatMap_cons, String.utf8EncodeChar_eq_singleton one]
    exact congrArg (_ :: ·) (ih fun c member => ascii c (by simp [member]))

theorem toUInt8_ascii {c : Char} (small : c.val < 128) :
    c.val.toUInt8 < 0x80 ∧ Char.ofNat c.val.toUInt8.toNat = c := by
  have below : c.val.toNat < 128 := small
  have same : c.val.toUInt8.toNat = c.val.toNat := by
    rw [UInt32.toNat_toUInt8]
    omega
  constructor
  · rw [UInt8.lt_iff_toNat_lt, same]
    exact below
  · rw [same]
    exact Char.ofNat_toNat c

theorem decodeLossy_ascii {cs : List Char} (ascii : IsAscii cs) :
    decodeLossy (asciiBytes cs) = cs := by
  induction cs with
  | nil => rw [asciiBytes, List.map_nil, decodeLossy]
  | cons c rest ih =>
    obtain ⟨small, same⟩ := toUInt8_ascii (ascii c (by simp))
    have first : firstChar c.val.toUInt8 (asciiBytes rest) = (c, 0) := by
      rw [firstChar, if_pos small, same]
    rw [asciiBytes, List.map_cons, ← asciiBytes, decodeLossy, first]
    dsimp only
    rw [List.drop_zero, ih fun c member => ascii c (by simp [member])]

theorem asciiBytes_inj {cs others : List Char} (ascii : IsAscii cs) (also : IsAscii others)
    (same : asciiBytes cs = asciiBytes others) : cs = others := by
  rw [← decodeLossy_ascii ascii, same, decodeLossy_ascii also]

theorem isAscii_append {cs others : List Char} (ascii : IsAscii cs) (also : IsAscii others) :
    IsAscii (cs ++ others) := by
  intro c member
  rcases List.mem_append.mp member with first | second
  · exact ascii c first
  · exact also c second

theorem digit_of_mem {n : Nat} {c : Char} (member : c ∈ Nat.toDigits 10 n) : '0' ≤ c ∧ c ≤ '9' := by
  have digit := Nat.isDigit_of_mem_toDigits (by decide) (by decide) member
  rw [Char.isDigit, Bool.and_eq_true, decide_eq_true_eq, decide_eq_true_eq] at digit
  exact digit

theorem isAscii_digits (n : Nat) : IsAscii (Nat.toDigits 10 n) := by
  intro c member
  have most : c.val ≤ 57 := (digit_of_mem member).2
  exact UInt32.lt_of_le_of_lt most (by decide)

theorem digitsFrom_eq {cs : List Char} (digits : ∀ c ∈ cs, '0' ≤ c ∧ c ≤ '9') (value : Nat) :
    digitsFrom value cs = some (Nat.ofDigitChars 10 cs value) := by
  induction cs generalizing value with
  | nil => rfl
  | cons c rest ih =>
    rw [digitsFrom, digitValue, if_pos (digits c (by simp)), Option.bind_some,
      ih (fun c member => digits c (by simp [member])), Nat.ofDigitChars_cons]

theorem natural?_digits (n : Nat) : natural? (Nat.toDigits 10 n) = some n := by
  have digits : ∀ c ∈ Nat.toDigits 10 n, '0' ≤ c ∧ c ≤ '9' := fun c => digit_of_mem
  have read := digitsFrom_eq digits 0
  rw [Nat.ofDigitChars_ten_toDigits] at read
  have some_digits := @Nat.toDigits_ne_nil n 10
  cases numeral : Nat.toDigits 10 n with
  | nil => contradiction
  | cons first rest =>
    rw [numeral] at digits read
    have unsigned : first ≠ '+' := by
      rintro rfl
      exact absurd (digits '+' (by simp)) (by decide)
    rw [natural?]
    · exact read
    · rintro others ⟨⟩
      exact unsigned rfl

theorem word32OfInt?_toNat (word : UInt32) : word32OfInt? word.toNat = some word := by
  rw [word32OfInt?, if_pos ⟨Int.natCast_nonneg _, word.toNat_lt_size⟩, Int.toNat_natCast,
    UInt32.ofNat_toNat]

theorem word32?_digits (part : UInt32) : word32? (Nat.toDigits 10 part.toNat) = some part := by
  rw [word32?, natural?_digits, Option.bind_some, word32OfInt?_toNat]

end Text

end ChunkedUpload
