/-! Numbers with a fixed count of decimal places. -/
namespace ChunkedUpload.Text

/-- The quotient rounded to the nearest integer; of two that are equally near, the even one. -/
def roundHalfEven (numerator denominator : Nat) : Nat :=
  let quotient := numerator / denominator
  let twice := 2 * (numerator % denominator)
  if denominator < twice ∨ (twice = denominator ∧ quotient % 2 = 1) then quotient + 1
  else quotient

/-- The leading bit of a significand, which is not stored unless the float is very small. -/
def implicitBit : Nat := 0x10000000000000

/-- The exact value of a float that is neither negative nor infinite, as a fraction. -/
def exactValue (x : Float) : Nat × Nat :=
  let bits := x.toBits.toNat
  let field := bits / implicitBit % 0x800
  let significand := if field = 0 then bits % implicitBit else bits % implicitBit + implicitBit
  let shift := max field 1
  if 1075 ≤ shift then (significand <<< (shift - 1075), 1)
  else (significand, 1 <<< (1075 - shift))

/-- The nearest number with one decimal place, ties to even, of a float that is neither negative
nor infinite. -/
def oneDecimal (x : Float) : String :=
  let (numerator, denominator) := exactValue x
  let tenths := roundHalfEven (10 * numerator) denominator
  s!"{tenths / 10}.{tenths % 10}"

def padLeft (width : Nat) (text : String) : String :=
  String.ofList (List.replicate (width - text.length) ' ') ++ text

end ChunkedUpload.Text
