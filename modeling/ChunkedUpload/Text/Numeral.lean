/-! Decimal numerals: digits of ASCII, at least one, with an optional sign in front. Leading zeros
are allowed. -/
namespace ChunkedUpload.Text

def digitValue (c : Char) : Option Nat :=
  if '0' ≤ c ∧ c ≤ '9' then some (c.toNat - '0'.toNat) else none

/-- The value of a row of digits that continues a number. -/
def digitsFrom (value : Nat) : List Char → Option Nat
  | [] => some value
  | c :: rest => (digitValue c).bind fun d => digitsFrom (10 * value + d) rest

def digits? : List Char → Option Nat
  | [] => none
  | cs => digitsFrom 0 cs

/-- A natural number, which may have a plus sign. -/
def natural? : List Char → Option Nat
  | '+' :: cs => digits? cs
  | cs => digits? cs

/-- An integer with an optional sign. -/
def integer? : List Char → Option Int
  | '-' :: cs => (digits? cs).map fun n => -(n : Int)
  | '+' :: cs => (digits? cs).map fun n => (n : Int)
  | cs => (digits? cs).map fun n => (n : Int)

/-- The signed word of 64 bits that an integer is, if it fits. -/
def signed64OfInt? (n : Int) : Option Int64 :=
  if Int64.minValue.toInt ≤ n ∧ n ≤ Int64.maxValue.toInt then some (Int64.ofInt n) else none

/-- The word of 32 bits that an integer is, if it fits. -/
def word32OfInt? (n : Int) : Option UInt32 :=
  if 0 ≤ n ∧ n.toNat < UInt32.size then some (UInt32.ofNat n.toNat) else none

def word32? (cs : List Char) : Option UInt32 :=
  (natural? cs).bind fun n => word32OfInt? n

def signed64? (cs : List Char) : Option Int64 :=
  (integer? cs).bind signed64OfInt?

end ChunkedUpload.Text
