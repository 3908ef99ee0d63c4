import ChunkedUpload.Text.Hex
import ChunkedUpload.Text.Magnitude
import ChunkedUpload.Text.Numeral
import ChunkedUpload.Text.Split
import ChunkedUpload.Toml.Basic

/-! Unquoted values of TOML: numbers, truth values, dates and times. Each is one word, of which
every character counts. -/
namespace ChunkedUpload.Toml

/-- Digits, between any two of which one underscore may stand. -/
def digitRow (digit : Char → Option Nat) : List Char → Option (List Nat)
  | [] => none
  | [c] => (digit c).map fun d => [d]
  | c :: '_' :: rest => do return (← digit c) :: (← digitRow digit rest)
  | c :: rest => do return (← digit c) :: (← digitRow digit rest)

/-- The number that a row of digits stands for. -/
def ofDigits (base : Nat) (digits : List Nat) : Nat :=
  digits.foldl (fun n d => base * n + d) 0

/-- A digit below a base of ten at most. -/
def digitBelow (base : Nat) (c : Char) : Option Nat :=
  (Text.digitValue c).bind fun d => if d < base then some d else none

/-- A number without leading zeros. -/
def plainDigits (cs : List Char) : Option (List Nat) :=
  (digitRow Text.digitValue cs).bind fun digits =>
    match cs with
    | '0' :: _ :: _ => none
    | _ => some digits

/-- A sign in front, if there is one: whether it is a minus, and the rest. -/
def splitSign : List Char → Bool × List Char
  | '-' :: rest => (true, rest)
  | '+' :: rest => (false, rest)
  | cs => (false, cs)

def inRange (n : Int) : Option Value := (Text.signed64OfInt? n).map .integer

/-- An integer of 64 bits. Bases other than ten take no sign. -/
def integer? (cs : List Char) : Option Value :=
  match cs with
  | '0' :: 'x' :: rest => (digitRow Text.hexValue rest).bind fun ds => inRange (ofDigits 16 ds)
  | '0' :: 'o' :: rest => (digitRow (digitBelow 8) rest).bind fun ds => inRange (ofDigits 8 ds)
  | '0' :: 'b' :: rest => (digitRow (digitBelow 2) rest).bind fun ds => inRange (ofDigits 2 ds)
  | _ =>
    let (negative, body) := splitSign cs
    (plainDigits body).bind fun ds =>
      let n : Int := ofDigits 10 ds
      inRange (if negative then -n else n)

/-- The exponent behind a number. Here leading zeros are allowed. -/
def exponent? (cs : List Char) : Option Int :=
  let (negative, body) := splitSign cs
  (digitRow Text.digitValue body).map fun ds =>
    let n : Int := ofDigits 10 ds
    if negative then -n else n

/-- A number with a fraction or an exponent. One that is so large as to be infinite is refused;
below zero it is not. -/
def decimal? (cs : List Char) : Option Value := do
  let (negative, body) := splitSign cs
  if body = "inf".toList ∨ body = "nan".toList then return .decimal
  let (mantissa, power) := Text.splitAt (fun c => c == 'e' || c == 'E') body
  let (whole, fraction) := Text.splitAt (· == '.') mantissa
  if power.isNone && fraction.isNone then none
  let whole ← plainDigits whole
  let fraction ← match fraction with
    | some cs => digitRow Text.digitValue cs
    | none => some []
  let power ← match power with
    | some cs => exponent? cs
    | none => some 0
  let digits := ofDigits 10 (whole ++ fraction)
  if !negative && Text.overflows digits (power - fraction.length) then none
  else return .decimal

/-- So many digits in front, as a number, and the rest. -/
def takeDigits (count : Nat) (cs : List Char) : Option (Nat × List Char) :=
  let digits := cs.take count
  if digits.length = count then (Text.digits? digits).map fun n => (n, cs.drop count) else none

/-- Two digits that stand for a number between two bounds. -/
def twoDigits (low high : Nat) (cs : List Char) : Option (Nat × List Char) :=
  (takeDigits 2 cs).bind fun (n, rest) => if low ≤ n ∧ n ≤ high then some (n, rest) else none

def skip (c : Char) : List Char → Option (List Char)
  | d :: rest => if c = d then some rest else none
  | [] => none

def isLeapYear (year : Nat) : Bool := year % 4 == 0 && (year % 100 != 0 || year % 400 == 0)

def daysOfMonth (year month : Nat) : Nat :=
  if month = 2 then if isLeapYear year then 29 else 28
  else if month ∈ [4, 6, 9, 11] then 30
  else 31

def date (cs : List Char) : Option (List Char) := do
  let (year, cs) ← takeDigits 4 cs
  let cs ← skip '-' cs
  let (month, cs) ← twoDigits 1 12 cs
  let cs ← skip '-' cs
  let (_, cs) ← twoDigits 1 (daysOfMonth year month) cs
  return cs

/-- What follows a time of day. A minute may have a leap second. -/
def time (cs : List Char) : Option (List Char) := do
  let (_, cs) ← twoDigits 0 23 cs
  let cs ← skip ':' cs
  let (_, cs) ← twoDigits 0 59 cs
  let cs ← skip ':' cs
  let (_, cs) ← twoDigits 0 60 cs
  match cs with
  | '.' :: rest =>
    match rest.takeWhile Char.isDigit with
    | [] => return cs
    | digits => return rest.drop digits.length
  | _ => return cs

/-- Whether this is nothing or a distance from universal time. -/
def isOffset (cs : List Char) : Bool :=
  match cs with
  | [] => true
  | ['Z'] | ['z'] => true
  | sign :: rest =>
    let distance := do
      let (_, cs) ← twoDigits 0 23 rest
      let cs ← skip ':' cs
      let (_, cs) ← twoDigits 0 59 cs
      return cs
    (sign == '+' || sign == '-') && distance == some []

/-- Whether this is a time of day, with or without its distance from universal time. -/
def isTimeOfMoment (cs : List Char) : Bool := (time cs).any isOffset

/-- A date, a date and a time, or a time. -/
def moment? (cs : List Char) : Option Value :=
  let valid :=
    match date cs with
    | some [] => true
    | some (delimiter :: rest) => (delimiter == 'T' || delimiter == 't') && isTimeOfMoment rest
    | none => time cs == some []
  if valid then some .moment else none

def scalar? (word : List Char) : Option Value :=
  if word = "true".toList then some (.boolean true)
  else if word = "false".toList then some (.boolean false)
  else (integer? word).orElse fun _ => (decimal? word).orElse fun _ => moment? word

def isWordChar (c : Char) : Bool := c.isAlphanum || "_+-.:".toList.contains c

/-- A blank and the time of day behind a date, if they are here, and what follows them. Two digits
and a colon make it one. -/
def timeBehind? : List Char → Option (List Char × List Char)
  | ' ' :: a :: b :: ':' :: rest =>
    if a.isDigit && b.isDigit then
      some (a :: b :: ':' :: rest.takeWhile isWordChar, rest.dropWhile isWordChar)
    else none
  | _ => none

/-- Reads an unquoted value. A date and its time may be parted by a blank. -/
def readScalar (cs : List Char) : Option (Value × List Char) :=
  let word := cs.takeWhile isWordChar
  let rest := cs.dropWhile isWordChar
  match timeBehind? rest with
  | some (time, after) =>
    if date word = some [] then
      if isTimeOfMoment time then some (.moment, after) else none
    else (scalar? word).map fun value => (value, rest)
  | none => (scalar? word).map fun value => (value, rest)

end ChunkedUpload.Toml
