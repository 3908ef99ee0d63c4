import ChunkedUpload.Json.Record
import ChunkedUpload.Json.Token
import ChunkedUpload.Proofs.Text.Ascii
import Mathlib.Algebra.Group.Int.Defs
import Mathlib.Algebra.Group.Nat.Defs

/-! Scalars are read as they were written. A text comes back from its quotes whatever its characters
are, a number ends where its member does, and the blanks between two tokens are passed over. -/
namespace ChunkedUpload.Json

section Text

theorem hexUnit_low : ∀ n < 0x20,
    hexUnit '0' '0' (Text.hexDigit (n / 16)) (Text.hexDigit (n % 16)) = some n := by
  decide

/-- The text goes on with a character. -/
def goOn (c : Char) (read : Option (List Char × List Char)) : Option (List Char × List Char) :=
  read.bind fun (cs, rest) => some (c :: cs, rest)

theorem readText_plain {c : Char} (quote : c ≠ '"') (backslash : c ≠ '\\')
    (printable : ¬ c.toNat < 0x20) (rest : List Char) :
    readText (c :: rest) = goOn c (readText rest) := by
  rw [readText.eq_def]
  split
  · contradiction
  · rename_i same
    exact absurd (List.cons.inj same).1 quote
  · rename_i same
    exact absurd (List.cons.inj same).1 backslash
  · rename_i same
    exact absurd (List.cons.inj same).1 backslash
  · rename_i same
    obtain ⟨rfl, rfl⟩ := List.cons.inj same
    rw [if_neg (not_or.mpr ⟨printable, backslash⟩)]
    rfl

/-- A character is read back from what stands for it inside quotes. -/
theorem readText_escapeChar (c : Char) (rest : List Char) :
    readText (escapeChar c ++ rest) = goOn c (readText rest) := by
  unfold escapeChar
  split
  case h_8 quote backslash _ _ _ _ _ =>
    split
    · rename_i control
      have unit := hexUnit_low c.toNat control
      have whole : isTrailing c.toNat = false ∧ isLeading c.toNat = false := by
        simp only [isTrailing, isLeading, Bool.and_eq_false_iff, decide_eq_false_iff_not]
        omega
      simp only [List.cons_append, List.nil_append, readText, unit, Option.bind_eq_bind,
        Option.bind_some, whole, Bool.false_eq_true, if_false, Char.ofNat_toNat]
      rfl
    · rename_i printable
      exact readText_plain quote backslash printable rest
  all_goals rfl

theorem readText_quoted (cs rest : List Char) :
    readText (cs.flatMap escapeChar ++ '"' :: rest) = some (cs, rest) := by
  induction cs with
  | nil => rfl
  | cons c cs ih => rw [List.flatMap_cons, List.append_assoc, readText_escapeChar, ih]; rfl

end Text

/-- What may stand behind a value: something that no number goes on with. -/
def Ends (rest : List Char) : Prop :=
  ∃ c later, rest = c :: later ∧ c.isDigit = false ∧ c ∉ ['.', 'e', 'E']

theorem ends_comma (rest : List Char) : Ends (',' :: rest) := ⟨',', rest, rfl, by decide⟩

theorem ends_blanks {blanks : List Char} (all : ∀ c ∈ blanks, isBlank c = true)
    (rest : List Char) : Ends (blanks ++ '}' :: rest) := by
  cases blanks with
  | nil => exact ⟨'}', rest, rfl, by decide⟩
  | cons c later =>
    refine ⟨c, later ++ '}' :: rest, rfl, ?_⟩
    have blank := all c List.mem_cons_self
    simp only [isBlank, Bool.or_eq_true, beq_iff_eq] at blank
    rcases blank with ((rfl | rfl) | rfl) | rfl <;> decide

section Numbers

variable {n : Nat} {rest : List Char}

theorem isDigit_of_mem {c : Char} (member : c ∈ Nat.toDigits 10 n) : c.isDigit = true :=
  Nat.isDigit_of_mem_toDigits (by decide) (by decide) member

theorem spanDigits_digits (ends : Ends rest) :
    spanDigits (Nat.toDigits 10 n ++ rest) = (Nat.toDigits 10 n, rest) := by
  obtain ⟨c, later, rfl, other, -⟩ := ends
  rw [← Bool.not_eq_true] at other
  have digits : ∀ d ∈ Nat.toDigits 10 n, d.isDigit = true := fun _ => isDigit_of_mem
  rw [spanDigits, List.takeWhile_append_of_pos digits, List.dropWhile_append_of_pos digits,
    List.takeWhile_cons_of_neg other, List.dropWhile_cons_of_neg other, List.append_nil]

/-- Only zero begins with a zero. -/
theorem head_digits : (Nat.toDigits 10 n).head? = some '0' → (Nat.toDigits 10 n).length = 1 := by
  induction n using Nat.strongRecOn with
  | ind n ih =>
    have small : ∀ d < 10, Nat.digitChar d = '0' → d = 0 := by decide
    rcases Nat.lt_or_ge n 10 with single | several
    · rw [Nat.toDigits_of_lt_base single]
      exact fun _ => rfl
    · have some_digits := @Nat.toDigits_ne_nil (n / 10) 10
      rw [Nat.toDigits_of_base_le (by decide) several, List.head?_append_of_ne_nil _ some_digits]
      intro zero
      -- the digits in front are those of a number that is not zero
      have one := ih (n / 10) (by omega) zero
      have below := (Nat.length_toDigits_le_iff (by decide) Nat.one_pos).mp (Nat.le_of_eq one)
      rw [Nat.pow_one] at below
      rw [Nat.toDigits_of_lt_base below] at zero
      have := small _ below (Option.some.inj zero)
      omega

theorem not_overflows (word : n < 2 ^ 64) : Text.overflows n 0 = false := by
  unfold Text.overflows
  split
  · rfl
  · have few : (Nat.toDigits 10 n).length ≤ 20 :=
      (Nat.length_toDigits_le_iff (by decide) (by decide)).mpr (Nat.lt_trans word (by decide))
    rw [if_neg (by omega), if_pos (by omega)]

theorem readFraction_ends (ends : Ends rest) : readFraction rest = some (none, rest) := by
  obtain ⟨c, later, rfl, -, other⟩ := ends
  rw [readFraction.eq_def]
  split
  · simp_all
  · rfl

theorem readExponent_ends (ends : Ends rest) : readExponent rest = some (none, rest) := by
  obtain ⟨c, later, rfl, -, other⟩ := ends
  have neither : ¬ (c = 'e' ∨ c = 'E') := by simp_all
  rw [readExponent.eq_def]
  exact if_neg neither

theorem digitsValue_digits (n : Nat) : digitsValue (Nat.toDigits 10 n) = n := by
  have digits : ∀ c ∈ Nat.toDigits 10 n, '0' ≤ c ∧ c ≤ '9' := fun _ => Text.digit_of_mem
  rw [digitsValue, Text.digitsFrom_eq digits, Nat.ofDigitChars_ten_toDigits, Option.getD_some]

/-- The digits of a word are read as the word, or as the integer below zero that they make. -/
theorem readNumber_digits (negative : Bool) (word : n < 2 ^ 64) (ends : Ends rest)
    (below : negative = true → 0 < n ∧ n ≤ 2 ^ 63) :
    readNumber negative (Nat.toDigits 10 n ++ rest) =
      some (.integer (if negative then -(n : Int) else n), rest) := by
  have some_digits : (Nat.toDigits 10 n).isEmpty = false :=
    List.isEmpty_eq_false_iff.mpr Nat.toDigits_ne_nil
  have leading : ((Nat.toDigits 10 n).head? == some '0' &&
      decide ((Nat.toDigits 10 n).length ≠ 1)) = false := by
    rw [Bool.and_eq_false_iff, beq_eq_false_iff_ne, decide_eq_false_iff_not, not_ne_iff]
    exact (Classical.em _).symm.imp_right head_digits
  simp only [readNumber, spanDigits_digits ends, some_digits, leading, readFraction_ends ends,
    readExponent_ends ends, Option.bind_eq_bind, Option.bind_some, Option.getD_none,
    List.append_nil, digitsValue_digits, Bool.or_self, Bool.false_eq_true, if_false,
    List.length_nil, Int.sub_zero, Int.natCast_zero, not_overflows word, Option.isSome_none]
  cases negative with
  | false =>
    have fits : ¬ UInt64.size ≤ n := Nat.not_le_of_lt word
    simp [fits]
  | true =>
    obtain ⟨positive, most⟩ := below rfl
    have fits : ¬ (n = 0 ∨ 0x8000000000000000 < n) := by omega
    simp [fits]

end Numbers

def Scalar.token : Scalar → Token
  | text value => .text value
  | integer value => .integer value

/-- An integer that a word of 64 bits can hold, with or without a sign. -/
def Scalar.Fits : Scalar → Prop
  | text _ => True
  | integer value => -2 ^ 63 ≤ value ∧ value < 2 ^ 64

theorem readToken_quote (value : String) (rest : List Char) :
    readToken (quote value ++ rest) = some (.text value, rest) := by
  have inner : readToken (quote value ++ rest) =
      (readText (value.toList.flatMap escapeChar ++ '"' :: rest)).map
        fun (cs, rest) => (.text (String.ofList cs), rest) := by
    rw [quote, List.cons_append, List.cons_append, List.append_assoc]
    rfl
  rw [inner, readText_quoted, Option.map_some]
  dsimp only
  rw [String.ofList_toList]

theorem readToken_digit {c : Char} (digit : c.isDigit = true) (rest : List Char) :
    readToken (c :: rest) = readNumber false (c :: rest) := by
  rw [readToken]
  all_goals
    rintro _ ⟨⟩
    exact absurd digit (by decide)

theorem toList_ofNat (n : Nat) : (toString (Int.ofNat n)).toList = Nat.toDigits 10 n :=
  Nat.toList_repr

theorem toList_negSucc (n : Nat) :
    (toString (Int.negSucc n)).toList = '-' :: Nat.toDigits 10 (n + 1) := by
  have split : toString (Int.negSucc n) = "-" ++ Nat.repr (n + 1) := rfl
  rw [split, String.toList_append, Nat.toList_repr]
  rfl

theorem readToken_integer {value : Int} (fits : (Scalar.integer value).Fits) {rest : List Char}
    (ends : Ends rest) :
    readToken ((toString value).toList ++ rest) = some (.integer value, rest) := by
  obtain ⟨least, most⟩ := fits
  cases value with
  | ofNat n =>
    have word : n < 2 ^ 64 := Int.ofNat_lt.mp most
    have read := readNumber_digits false word ends (by simp)
    cases digits : Nat.toDigits 10 n with
    | nil => exact absurd digits Nat.toDigits_ne_nil
    | cons c later =>
      have digit := isDigit_of_mem (digits ▸ List.mem_cons_self : c ∈ Nat.toDigits 10 n)
      rw [toList_ofNat, digits, List.cons_append, readToken_digit digit, ← List.cons_append,
        ← digits, read]
      rfl
  | negSucc n =>
    have size : n + 1 ≤ 2 ^ 63 := by omega
    have read := readNumber_digits true (by omega : n + 1 < 2 ^ 64) ends
      fun _ => ⟨Nat.succ_pos n, size⟩
    rw [toList_negSucc]
    exact read

theorem readToken_render {scalar : Scalar} (fits : scalar.Fits) {rest : List Char}
    (ends : Ends rest) : readToken (scalar.render ++ rest) = some (scalar.token, rest) := by
  cases scalar with
  | text value => exact readToken_quote value rest
  | integer value => exact readToken_integer fits ends

/-- The text is made of these tokens, with blanks between them. -/
def Spells (cs : List Char) (tokens : List Token) : Prop :=
  ∀ fuel, cs.length ≤ fuel → readTokens fuel cs = some tokens

theorem spells_nil : Spells [] [] := by
  intro fuel _
  cases fuel <;> rfl

section Spells

variable {piece rest : List Char} {token : Token} {tokens : List Token}

theorem Spells.blanks {blanks : List Char} (spells : Spells rest tokens)
    (all : ∀ c ∈ blanks, isBlank c = true) : Spells (blanks ++ rest) tokens := by
  induction blanks with
  | nil => exact spells
  | cons c later ih =>
    intro fuel enough
    cases fuel with
    | zero => exact absurd enough (by simp)
    | succ fuel =>
      have further := ih fun d member => all d (List.mem_cons_of_mem c member)
      rw [List.cons_append, readTokens, if_pos (all c List.mem_cons_self)]
      exact further fuel (by simpa using enough)

theorem Spells.next (spells : Spells rest tokens) {c : Char} (dark : isBlank c = false)
    (begins : piece.head? = some c) (read : readToken (piece ++ rest) = some (token, rest)) :
    Spells (piece ++ rest) (token :: tokens) := by
  obtain ⟨later, rfl⟩ := List.head?_eq_some_iff.mp begins
  intro fuel enough
  cases fuel with
  | zero => exact absurd enough (by simp)
  | succ fuel =>
    have fewer : rest.length ≤ fuel := by
      simp only [List.cons_append, List.length_cons, List.length_append] at enough
      omega
    rw [List.cons_append] at read ⊢
    rw [readTokens, dark, read]
    simp only [Bool.false_eq_true, if_false, Option.bind_eq_bind, Option.bind_some,
      spells fuel fewer]
    rfl

/-- A character that is a token by itself. -/
theorem Spells.mark (spells : Spells rest tokens) {c : Char} (dark : isBlank c = false)
    (read : readToken (c :: rest) = some (token, rest)) : Spells (c :: rest) (token :: tokens) := by
  have single : readToken ([c] ++ rest) = some (token, rest) := read
  exact spells.next dark rfl single

theorem head_render (scalar : Scalar) : ∃ c, isBlank c = false ∧ scalar.render.head? = some c := by
  cases scalar with
  | text value => exact ⟨'"', rfl, rfl⟩
  | integer value =>
    cases value with
    | ofNat n =>
      rw [Scalar.render, toList_ofNat]
      cases digits : Nat.toDigits 10 n with
      | nil => exact absurd digits Nat.toDigits_ne_nil
      | cons c later =>
        have digit := isDigit_of_mem (digits ▸ List.mem_cons_self : c ∈ Nat.toDigits 10 n)
        refine ⟨c, ?_, rfl⟩
        by_contra blank
        simp only [isBlank, Bool.not_eq_false, Bool.or_eq_true, beq_iff_eq] at blank
        rcases blank with ((rfl | rfl) | rfl) | rfl <;> exact absurd digit (by decide)
    | negSucc n =>
      rw [Scalar.render, toList_negSucc]
      exact ⟨'-', rfl, rfl⟩

end Spells

end ChunkedUpload.Json
