import ChunkedUpload.Json.Token

/-! JSON values, read from tokens. -/
namespace ChunkedUpload

inductive Json
  | null
  | boolean (value : Bool)
  | integer (value : Int)
  /-- A number that is no integer of 64 bits. -/
  | decimal
  | text (value : String)
  | array (items : List Json)
  | object (members : List (String × Json))

namespace Json

/-- Arrays and objects may be nested less deep than this. -/
def maxDepth : Nat := 128

mutual

/-- Reads a value. `depth` is how many levels are left. -/
def readValue : Nat → Nat → List Token → Option (Json × List Token)
  | 0, _, _ => none
  | fuel + 1, depth, tokens =>
    match tokens with
    | .text value :: rest => some (.text value, rest)
    | .integer value :: rest => some (.integer value, rest)
    | .decimal :: rest => some (.decimal, rest)
    | .boolean value :: rest => some (.boolean value, rest)
    | .null :: rest => some (.null, rest)
    | .openBracket :: .closeBracket :: rest => if depth ≤ 1 then none else some (.array [], rest)
    | .openBracket :: rest =>
      if depth ≤ 1 then none
      else (readItems fuel (depth - 1) rest).map fun (items, rest) => (.array items, rest)
    | .openBrace :: .closeBrace :: rest => if depth ≤ 1 then none else some (.object [], rest)
    | .openBrace :: rest =>
      if depth ≤ 1 then none
      else (readMembers fuel (depth - 1) rest).map fun (members, rest) => (.object members, rest)
    | _ => none

def readItems : Nat → Nat → List Token → Option (List Json × List Token)
  | 0, _, _ => none
  | fuel + 1, depth, tokens => do
    let (item, rest) ← readValue fuel depth tokens
    match rest with
    | .closeBracket :: rest => return ([item], rest)
    | .comma :: rest =>
      let (items, rest) ← readItems fuel depth rest
      return (item :: items, rest)
    | _ => none

def readMembers : Nat → Nat → List Token → Option (List (String × Json) × List Token)
  | 0, _, _ => none
  | fuel + 1, depth, tokens =>
    match tokens with
    | .text key :: .colon :: rest => do
      let (value, rest) ← readValue fuel depth rest
      match rest with
      | .closeBrace :: rest => return ([(key, value)], rest)
      | .comma :: rest =>
        let (members, rest) ← readMembers fuel depth rest
        return ((key, value) :: members, rest)
      | _ => none
    | _ => none

end

/-- Reads a whole text. Of any two calls of the reader that follow each other at least one takes a
token. -/
def parse? (text : String) : Option Json := do
  let tokens ← tokens? text.toList
  match ← readValue (2 * tokens.length + 1) maxDepth tokens with
  | (value, []) => return value
  | _ => none

/-- The value of a key that stands exactly once. -/
def member? (members : List (String × Json)) (key : String) : Option Json :=
  match members.filter fun entry => entry.1 == key with
  | [(_, value)] => some value
  | _ => none

def toText? : Json → Option String
  | text value => some value
  | _ => none

def toSigned64? : Json → Option Int64
  | integer n => Text.signed64OfInt? n
  | _ => none

def toWord32? : Json → Option UInt32
  | integer n => Text.word32OfInt? n
  | _ => none

end Json

end ChunkedUpload
