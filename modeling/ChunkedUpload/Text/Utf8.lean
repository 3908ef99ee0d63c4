/-! Reading bytes as text. A file name may hold any bytes; to show it, what is not UTF-8 is
replaced. -/
namespace ChunkedUpload.Text

/-- Shown in place of bytes that are not UTF-8. -/
def replacement : Char := '\uFFFD'

/-- For the first byte of a sequence of several: how many bytes follow it, and between which bounds
the first of them has to lie. All later ones lie between `0x80` and `0xBF`. -/
def sequenceShape (lead : UInt8) : Option (Nat × UInt8 × UInt8) :=
  if 0xC2 ≤ lead ∧ lead ≤ 0xDF then some (1, 0x80, 0xBF)
  else if lead = 0xE0 then some (2, 0xA0, 0xBF)
  else if lead = 0xED then some (2, 0x80, 0x9F)
  else if 0xE1 ≤ lead ∧ lead ≤ 0xEF then some (2, 0x80, 0xBF)
  else if lead = 0xF0 then some (3, 0x90, 0xBF)
  else if 0xF1 ≤ lead ∧ lead ≤ 0xF3 then some (3, 0x80, 0xBF)
  else if lead = 0xF4 then some (3, 0x80, 0x8F)
  else none

/-- How many of the following bytes belong to a sequence that still needs `need` of them. -/
def followers (need : Nat) (low high : UInt8) : List UInt8 → Nat
  | [] => 0
  | b :: rest =>
    match need with
    | 0 => 0
    | need + 1 => if low ≤ b ∧ b ≤ high then 1 + followers need 0x80 0xBF rest else 0

/-- The code point of a sequence, from its first byte and the bytes that follow it. -/
def codePoint (lead : UInt8) (rest : List UInt8) : Nat :=
  let head :=
    match rest.length with
    | 1 => lead.toNat % 32
    | 2 => lead.toNat % 16
    | _ => lead.toNat % 8
  rest.foldl (fun n b => n * 64 + b.toNat % 64) head

/-- The first character of a text and the number of bytes, after the first, that it takes. The
longest beginning of a sequence that is cut short is replaced as a whole. -/
def firstChar (lead : UInt8) (rest : List UInt8) : Char × Nat :=
  if lead < 0x80 then (Char.ofNat lead.toNat, 0)
  else
    match sequenceShape lead with
    | none => (replacement, 0)
    | some (need, low, high) =>
      let found := followers need low high rest
      if found = need then (Char.ofNat (codePoint lead (rest.take need)), found)
      else (replacement, found)

/-- Reads bytes as UTF-8 and replaces what is not. -/
def decodeLossy : List UInt8 → List Char
  | [] => []
  | lead :: rest =>
    let (c, extra) := firstChar lead rest
    c :: decodeLossy (rest.drop extra)
termination_by bytes => bytes.length
decreasing_by simp only [List.length_drop, List.length_cons]; omega

def lossy (bytes : List UInt8) : String := String.ofList (decodeLossy bytes)

end ChunkedUpload.Text
