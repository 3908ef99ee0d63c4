import ChunkedUpload.Text.Hex
import ChunkedUpload.Text.Magnitude
import ChunkedUpload.Text.Numeral

/-! The tokens of JSON. Blanks part tokens and mean nothing else, so that a text and its indented
form have the same tokens. -/
namespace ChunkedUpload.Json

inductive Token
  | openBrace
  | closeBrace
  | openBracket
  | closeBracket
  | colon
  | comma
  | text (value : String)
  | integer (value : Int)
  /-- A number with a point, an exponent, more than 64 bits, or a negative zero. -/
  | decimal
  | boolean (value : Bool)
  | null
deriving DecidableEq, Repr

def isBlank (c : Char) : Bool := c == ' ' || c == '\n' || c == '\t' || c == '\r'

/-- Four hexadecimal digits as a number. -/
def hexUnit (a b c d : Char) : Option Nat := Text.ofHex? [a, b, c, d]

def shortEscape (c : Char) : Option Char :=
  match c with
  | '"' => some '"'
  | '\\' => some '\\'
  | '/' => some '/'
  | 'b' => some '\x08'
  | 'f' => some '\x0c'
  | 'n' => some '\n'
  | 'r' => some '\r'
  | 't' => some '\t'
  | _ => none

def isLeading (unit : Nat) : Bool := decide (0xD800 ≤ unit) && decide (unit < 0xDC00)

def isTrailing (unit : Nat) : Bool := decide (0xDC00 ≤ unit) && decide (unit < 0xE000)

/-- The character of two units that belong together. -/
def joinUnits (leading trailing : Nat) : Char :=
  Char.ofNat (0x10000 + (leading - 0xD800) * 0x400 + (trailing - 0xDC00))

/-- Reads a text up to its closing quote. Controls have to be escaped, and a unit that is half of a
character is nothing by itself. -/
def readText : List Char → Option (List Char × List Char)
  | [] => none
  | '"' :: rest => some ([], rest)
  | '\\' :: 'u' :: a :: b :: c :: d :: rest => do
    let unit ← hexUnit a b c d
    if isTrailing unit then none
    else if isLeading unit then
      match rest with
      | '\\' :: 'u' :: e :: f :: g :: h :: rest =>
        let second ← hexUnit e f g h
        if isTrailing second then
          let (text, rest) ← readText rest
          return (joinUnits unit second :: text, rest)
        else none
      | _ => none
    else
      let (text, rest) ← readText rest
      return (Char.ofNat unit :: text, rest)
  | '\\' :: c :: rest => do
    let meant ← shortEscape c
    let (text, rest) ← readText rest
    return (meant :: text, rest)
  | c :: rest =>
    if c.toNat < 0x20 ∨ c = '\\' then none
    else do
      let (text, rest) ← readText rest
      return (c :: text, rest)

def spanDigits (cs : List Char) : List Char × List Char :=
  (cs.takeWhile Char.isDigit, cs.dropWhile Char.isDigit)

def digitsValue (cs : List Char) : Nat := (Text.digitsFrom 0 cs).getD 0

/-- The exponent of a number, if it has one. -/
def readExponent (cs : List Char) : Option (Option Int × List Char) :=
  match cs with
  | e :: rest =>
    if e = 'e' ∨ e = 'E' then
      let (negative, rest) := match rest with
        | '-' :: rest => (true, rest)
        | '+' :: rest => (false, rest)
        | rest => (false, rest)
      let (digits, rest) := spanDigits rest
      if digits.isEmpty then none
      else
        let value : Int := digitsValue digits
        some (some (if negative then -value else value), rest)
    else some (none, cs)
  | [] => some (none, [])

/-- The digits behind the point of a number, if it has one. -/
def readFraction (cs : List Char) : Option (Option (List Char) × List Char) :=
  match cs with
  | '.' :: rest =>
    let (digits, rest) := spanDigits rest
    if digits.isEmpty then none else some (some digits, rest)
  | cs => some (none, cs)

/-- Reads a number without its sign. A number beyond the range of floats is refused. -/
def readNumber (negative : Bool) (cs : List Char) : Option (Token × List Char) := do
  let (whole, rest) := spanDigits cs
  if whole.isEmpty || (whole.head? == some '0' && whole.length ≠ 1) then none
  else
    let (fraction, rest) ← readFraction rest
    let (exponent, rest) ← readExponent rest
    let digits := whole ++ fraction.getD []
    let value := digitsValue digits
    if Text.overflows value (exponent.getD 0 - (fraction.getD []).length) then none
    else if fraction.isSome || exponent.isSome then return (.decimal, rest)
    else if negative then
      if value = 0 ∨ 0x8000000000000000 < value then return (.decimal, rest)
      else return (.integer (-(value : Int)), rest)
    else if UInt64.size ≤ value then return (.decimal, rest)
    else return (.integer value, rest)

/-- The token at the front, and what follows it. -/
def readToken : List Char → Option (Token × List Char)
  | '{' :: rest => some (.openBrace, rest)
  | '}' :: rest => some (.closeBrace, rest)
  | '[' :: rest => some (.openBracket, rest)
  | ']' :: rest => some (.closeBracket, rest)
  | ':' :: rest => some (.colon, rest)
  | ',' :: rest => some (.comma, rest)
  | '"' :: rest => (readText rest).map fun (text, rest) => (.text (String.ofList text), rest)
  | '-' :: rest => readNumber true rest
  | 't' :: 'r' :: 'u' :: 'e' :: rest => some (.boolean true, rest)
  | 'f' :: 'a' :: 'l' :: 's' :: 'e' :: rest => some (.boolean false, rest)
  | 'n' :: 'u' :: 'l' :: 'l' :: rest => some (.null, rest)
  | cs => readNumber false cs

/-- Reads at most so many tokens and blanks. -/
def readTokens : Nat → List Char → Option (List Token)
  | _, [] => some []
  | 0, _ => none
  | fuel + 1, c :: rest =>
    if isBlank c then readTokens fuel rest
    else do
      let (token, rest) ← readToken (c :: rest)
      return token :: (← readTokens fuel rest)

/-- The tokens of a text. Every token takes at least one character. -/
def tokens? (cs : List Char) : Option (List Token) := readTokens cs.length cs

end ChunkedUpload.Json
