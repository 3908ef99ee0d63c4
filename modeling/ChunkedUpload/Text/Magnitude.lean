/-! Decimal numerals against the range of floats of 64 bits. -/
namespace ChunkedUpload.Text

/-- The least number that is rounded to infinity: half a unit above the largest float. -/
def overflowBound : Nat := (1 <<< 1024) - (1 <<< 970)

/-- Whether `digits * 10 ^ exponent` is rounded to infinity. A numeral far outside the range is
judged by its number of digits, so that no huge power is formed. -/
def overflows (digits : Nat) (exponent : Int) : Bool :=
  if digits = 0 then false
  else
    let scale : Int := exponent + (Nat.toDigits 10 digits).length
    if 400 < scale then true
    else if scale < 300 then false
    else if 0 ≤ exponent then decide (overflowBound ≤ digits * Nat.pow 10 exponent.toNat)
    else decide (overflowBound * Nat.pow 10 (-exponent).toNat ≤ digits)

end ChunkedUpload.Text
