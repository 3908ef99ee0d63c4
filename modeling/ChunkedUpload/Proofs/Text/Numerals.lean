import ChunkedUpload.Proofs.Text.Ascii
import Mathlib.Data.List.Induction
import Mathlib.Data.Nat.Digits.Defs

/-! What is read as a number, and what as ASCII. A number is read from its digits behind any zeros
and one plus sign at most, and from nothing else. Bytes that are not UTF-8 are replaced, but never
by ASCII, so that text of ASCII has been read from its own bytes only. -/
namespace ChunkedUpload.Text

/-- A way to write a number: a plus sign or none, any zeros, and the digits. -/
def Numeral (n : Nat) (cs : List Char) : Prop :=
  ∃ sign zeros, (sign = [] ∨ sign = ['+']) ∧
    cs = sign ++ (List.replicate zeros '0' ++ Nat.toDigits 10 n)

section Digits

theorem digitValue_eq_some {c : Char} {d : Nat} (read : digitValue c = some d) :
    d < 10 ∧ c = Nat.digitChar d := by
  unfold digitValue at read
  split at read
  · rename_i digit
    have low : 48 ≤ c.toNat := digit.1
    have high : c.toNat ≤ 57 := digit.2
    have value : d = c.toNat - 48 := (Option.some.inj read).symm
    have small : d < 10 := by omega
    have same : ∀ d < 10, (Nat.digitChar d).toNat = d + 48 := by decide
    exact ⟨small, Char.toNat_inj.mp (by rw [same d small]; omega)⟩
  · contradiction

theorem digitsFrom_append (value : Nat) (cs others : List Char) :
    digitsFrom value (cs ++ others) = (digitsFrom value cs).bind (digitsFrom · others) := by
  induction cs generalizing value with
  | nil => rfl
  | cons c rest ih => simp only [List.cons_append, digitsFrom, ih, Option.bind_assoc]

theorem digitsFrom_snoc_eq_some {value n : Nat} {cs : List Char} {c : Char}
    (read : digitsFrom value (cs ++ [c]) = some n) :
    ∃ m d, digitsFrom value cs = some m ∧ d < 10 ∧ c = Nat.digitChar d ∧ n = 10 * m + d := by
  rw [digitsFrom_append] at read
  obtain ⟨m, front, last⟩ := Option.bind_eq_some_iff.mp read
  obtain ⟨d, digit, total⟩ := Option.bind_eq_some_iff.mp last
  obtain ⟨small, same⟩ := digitValue_eq_some digit
  exact ⟨m, d, front, small, same, (Option.some.inj total).symm⟩

theorem digitsFrom_zeros (zeros : Nat) (cs : List Char) :
    digitsFrom 0 (List.replicate zeros '0' ++ cs) = digitsFrom 0 cs := by
  induction zeros with
  | zero => rfl
  | succ zeros ih => exact ih

/-- Digits that are read as a number are its own, but for zeros in front of them. -/
theorem eq_digits_of_digitsFrom {n : Nat} {cs : List Char} (read : digitsFrom 0 cs = some n)
    (some_digits : cs ≠ []) : ∃ zeros, cs = List.replicate zeros '0' ++ Nat.toDigits 10 n := by
  induction cs using List.reverseRecOn generalizing n with
  | nil => contradiction
  | append_singleton cs c ih =>
    obtain ⟨m, d, front, small, rfl, rfl⟩ := digitsFrom_snoc_eq_some read
    have split : (10 * m + d) / 10 = m ∧ (10 * m + d) % 10 = d := by omega
    by_cases single : cs = []
    · subst single
      obtain rfl : 0 = m := Option.some.inj front
      refine ⟨0, ?_⟩
      rw [Nat.mul_zero, Nat.zero_add, Nat.toDigits_of_lt_base small]
      rfl
    · obtain ⟨zeros, rfl⟩ := ih front single
      by_cases none_yet : m = 0
      -- the digits so far are zeros, and the zero itself is one of them
      · subst none_yet
        refine ⟨zeros + 1, ?_⟩
        rw [Nat.toDigits_zero, Nat.mul_zero, Nat.zero_add, Nat.toDigits_of_lt_base small,
          List.replicate_succ']
      · refine ⟨zeros, ?_⟩
        rw [Nat.toDigits_of_base_le (by decide) (by omega : 10 ≤ 10 * m + d), split.1, split.2,
          List.append_assoc]

end Digits

section Signs

variable {n : Nat} {cs : List Char}

theorem digits?_eq_some_iff :
    digits? cs = some n ↔ ∃ zeros, cs = List.replicate zeros '0' ++ Nat.toDigits 10 n := by
  have nonempty : cs ≠ [] → digits? cs = digitsFrom 0 cs := by
    intro some_digits
    cases cs with
    | nil => contradiction
    | cons c rest => rfl
  constructor
  · intro read
    have some_digits : cs ≠ [] := by
      rintro rfl
      contradiction
    exact eq_digits_of_digitsFrom (nonempty some_digits ▸ read) some_digits
  · rintro ⟨zeros, rfl⟩
    have digits : ∀ c ∈ Nat.toDigits 10 n, '0' ≤ c ∧ c ≤ '9' := fun c => digit_of_mem
    rw [nonempty (by simp), digitsFrom_zeros, digitsFrom_eq digits, Nat.ofDigitChars_ten_toDigits]

theorem natural?_of_unsigned (unsigned : '+' ∉ cs) : natural? cs = digits? cs := by
  rw [natural?]
  rintro rest rfl
  exact unsigned List.mem_cons_self

theorem natural?_eq_some_iff : natural? cs = some n ↔ Numeral n cs := by
  constructor
  · intro read
    by_cases signed : ∃ rest, cs = '+' :: rest
    · obtain ⟨rest, rfl⟩ := signed
      obtain ⟨zeros, rfl⟩ := digits?_eq_some_iff.mp read
      exact ⟨['+'], zeros, .inr rfl, rfl⟩
    · rw [natural?] at read
      · obtain ⟨zeros, rfl⟩ := digits?_eq_some_iff.mp read
        exact ⟨[], zeros, .inl rfl, rfl⟩
      · exact fun rest same => signed ⟨rest, same⟩
  · rintro ⟨sign, zeros, rfl | rfl, rfl⟩
    · have unsigned : '+' ∉ List.replicate zeros '0' ++ Nat.toDigits 10 n := by
        rw [List.mem_append, not_or]
        exact ⟨fun zero => absurd (List.eq_of_mem_replicate zero) (by decide),
          fun digit => absurd (digit_of_mem digit) (by decide)⟩
      rw [List.nil_append, natural?_of_unsigned unsigned, digits?_eq_some_iff]
      exact ⟨zeros, rfl⟩
    · exact digits?_eq_some_iff.mpr ⟨zeros, rfl⟩

theorem word32?_eq_some_iff {word : UInt32} : word32? cs = some word ↔ Numeral word.toNat cs := by
  rw [word32?, Option.bind_eq_some_iff, ← natural?_eq_some_iff]
  constructor
  · rintro ⟨n, read, fits⟩
    unfold word32OfInt? at fits
    split at fits
    · rename_i small
      have same : word = UInt32.ofNat n := (Option.some.inj fits).symm
      have below : n < UInt32.size := small.2
      rwa [same, UInt32.toNat_ofNat_of_lt' below]
    · contradiction
  · intro read
    exact ⟨_, read, word32OfInt?_toNat word⟩

theorem Numeral.isAscii (numeral : Numeral n cs) : IsAscii cs ∧ '\x00' ∉ cs := by
  obtain ⟨sign, zeros, signed, rfl⟩ := numeral
  have plus : IsAscii sign ∧ '\x00' ∉ sign := by
    rcases signed with rfl | rfl <;> decide
  have zero : IsAscii (List.replicate zeros '0') := by
    intro c member
    rw [List.eq_of_mem_replicate member]
    decide
  refine ⟨isAscii_append plus.1 (isAscii_append zero (isAscii_digits n)), ?_⟩
  rw [List.mem_append, List.mem_append, not_or, not_or]
  exact ⟨plus.2, fun member => absurd (List.eq_of_mem_replicate member) (by decide),
    fun digit => absurd (digit_of_mem digit) (by decide)⟩

end Signs

section Bytes

variable {lead low high : UInt8} {rest : List UInt8} {need : Nat}

theorem followers_succ (whole : followers (need + 1) low high rest = need + 1) :
    ∃ b later, rest = b :: later ∧ low.toNat ≤ b.toNat ∧ b.toNat ≤ high.toNat ∧
      followers need 0x80 0xBF later = need := by
  cases rest with
  | nil => simp [followers] at whole
  | cons b later =>
    rw [followers] at whole
    split at whole
    · rename_i inside
      exact ⟨b, later, rfl, UInt8.le_iff_toNat_le.mp inside.1, UInt8.le_iff_toNat_le.mp inside.2,
        by omega⟩
    · contradiction

/-- Either the first byte of a sequence or the second has bits above those of ASCII. -/
theorem shape_cases (shape : sequenceShape lead = some (need, low, high)) :
    high.toNat ≤ 0xBF ∧
      ((need = 1 ∧ 2 ≤ lead.toNat % 32) ∨
        (need = 2 ∧ (1 ≤ lead.toNat % 16 ∨ low.toNat = 0xA0)) ∨
        (need = 3 ∧ (1 ≤ lead.toNat % 8 ∨ low.toNat = 0x90))) := by
  unfold sequenceShape at shape
  simp only [UInt8.le_iff_toNat_le] at shape
  repeat' split at shape
  all_goals cases shape
  all_goals simp_all
  all_goals omega

/-- A sequence of several bytes stands for no character of ASCII. -/
theorem codePoint_high (shape : sequenceShape lead = some (need, low, high))
    (whole : followers need low high rest = need) : 128 ≤ codePoint lead (rest.take need) := by
  obtain ⟨most, ⟨rfl, bits⟩ | ⟨rfl, bits⟩ | ⟨rfl, bits⟩⟩ := shape_cases shape
  · obtain ⟨b, later, rfl, _⟩ := followers_succ whole
    have value : codePoint lead ((b :: later).take 1) =
        lead.toNat % 32 * 64 + b.toNat % 64 := rfl
    omega
  · obtain ⟨b, later, rfl, above, below, whole⟩ := followers_succ whole
    obtain ⟨c, last, rfl, _⟩ := followers_succ whole
    have value : codePoint lead ((b :: c :: last).take 2) =
        (lead.toNat % 16 * 64 + b.toNat % 64) * 64 + c.toNat % 64 := rfl
    omega
  · obtain ⟨b, later, rfl, above, below, whole⟩ := followers_succ whole
    obtain ⟨c, later, rfl, _, _, whole⟩ := followers_succ whole
    obtain ⟨d, last, rfl, _⟩ := followers_succ whole
    have value : codePoint lead ((b :: c :: d :: last).take 3) =
        ((lead.toNat % 8 * 64 + b.toNat % 64) * 64 + c.toNat % 64) * 64 + d.toNat % 64 := rfl
    omega

theorem ofNat_high {n : Nat} (high : 128 ≤ n) :
    Char.ofNat n = '\x00' ∨ ¬ (Char.ofNat n).val < 128 := by
  unfold Char.ofNat
  by_cases valid : n.isValidChar
  · rw [dif_pos valid]
    refine .inr fun small => ?_
    have below : n < 128 := small
    omega
  · rw [dif_neg valid]
    exact .inl rfl

theorem toUInt8_ofNat (single : lead < 0x80) : (Char.ofNat lead.toNat).val.toUInt8 = lead := by
  have small : lead.toNat < 128 := UInt8.lt_iff_toNat_lt.mp single
  have valid : lead.toNat.isValidChar := .inl (by omega)
  have value : (Char.ofNat lead.toNat).val.toNat = lead.toNat := by
    unfold Char.ofNat
    rw [dif_pos valid]
    rfl
  rw [← UInt8.toNat_inj, UInt32.toNat_toUInt8, value]
  omega

/-- What stands first is ASCII only if it is a byte of its own. -/
theorem firstChar_ascii (small : (firstChar lead rest).1.val < 128)
    (no_nul : (firstChar lead rest).1 ≠ '\x00') :
    firstChar lead rest = (Char.ofNat lead.toNat, 0) ∧ lead < 0x80 := by
  have replaced : ¬ replacement.val < 128 := by decide
  unfold firstChar at small no_nul ⊢
  split at small
  · rename_i single
    exact ⟨if_pos single, single⟩
  · rename_i several
    rw [if_neg several] at no_nul
    split at small
    · exact absurd small replaced
    · rename_i need low high shape
      rw [shape] at no_nul
      dsimp only at small no_nul
      split at small
      · rename_i whole
        rw [if_pos whole] at no_nul
        rcases ofNat_high (codePoint_high shape whole) with invalid | high
        · exact absurd invalid no_nul
        · exact absurd small high
      · exact absurd small replaced

theorem bytes_of_decodeLossy {bytes : List UInt8} {cs : List Char} (ascii : IsAscii cs)
    (no_nul : '\x00' ∉ cs) (read : decodeLossy bytes = cs) : bytes = asciiBytes cs := by
  induction bytes generalizing cs with
  | nil =>
    rw [decodeLossy] at read
    rw [← read]
    rfl
  | cons lead rest ih =>
    rw [decodeLossy] at read
    subst read
    have small := ascii _ List.mem_cons_self
    have some_char : (firstChar lead rest).1 ≠ '\x00' := fun same =>
      no_nul (List.mem_cons.mpr (.inl same.symm))
    obtain ⟨first, single⟩ := firstChar_ascii small some_char
    rw [first] at ascii no_nul ⊢
    simp only [List.drop_zero] at ascii no_nul ⊢
    have later := ih (fun c member => ascii c (List.mem_cons_of_mem _ member))
      (fun member => no_nul (List.mem_cons_of_mem _ member)) rfl
    rw [asciiBytes, List.map_cons, toUInt8_ofNat single, ← asciiBytes, ← later]

end Bytes

end ChunkedUpload.Text
