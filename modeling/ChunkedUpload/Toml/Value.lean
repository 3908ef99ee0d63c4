import ChunkedUpload.Toml.Key
import ChunkedUpload.Toml.Scalar

/-! Reading the values of TOML. An array may go over several lines and hold comments; a table in
braces may not. -/
namespace ChunkedUpload.Toml

/-- Arrays and tables in braces are nested at most this deep. -/
def maxDepth : Nat := 79

/-- What follows blanks, line ends and comments. The flag tells whether this is inside a comment. -/
def skipTrivia : Bool → List Char → List Char
  | _, [] => []
  | commented, c :: rest =>
    if c = '\n' then skipTrivia false rest
    else if c = '\r' ∧ rest.head? = some '\n' then skipTrivia commented rest
    else if commented then if isPlain c then skipTrivia true rest else c :: rest
    else if c = '#' then skipTrivia true rest
    else if isBlank c then skipTrivia false rest
    else c :: rest

mutual

/-- Reads a value. `depth` is how many levels of nesting are left. -/
def readValue : Nat → Nat → List Char → Option (Value × List Char)
  | 0, _, _ => none
  | fuel + 1, depth, cs =>
    match cs with
    | '"' :: '"' :: '"' :: rest => readText ⟨'"', true⟩ rest
    | '"' :: rest => readText ⟨'"', false⟩ rest
    | '\'' :: '\'' :: '\'' :: rest => readText ⟨'\'', true⟩ rest
    | '\'' :: rest => readText ⟨'\'', false⟩ rest
    | '[' :: rest =>
      match depth with
      | 0 => none
      | depth + 1 => (readItems fuel depth rest).map fun (items, rest) => (.array items, rest)
    | '{' :: rest =>
      match depth with
      | 0 => none
      | depth + 1 =>
        match rest.dropWhile isBlank with
        | '}' :: rest => some (.table .inline [], rest)
        | rest => do
          let (settings, rest) ← readSettings fuel depth rest
          let entries ← Entries.assignAll [] settings
          return (.table .inline entries, rest)
    | cs => readScalar cs
where
  readText (quotes : Quotes) (cs : List Char) : Option (Value × List Char) :=
    (readQuoted quotes cs).map fun (text, rest) => (.text text, rest)

/-- Reads the items of an array up to its end. A comma may stand behind the last one. -/
def readItems : Nat → Nat → List Char → Option (List Value × List Char)
  | 0, _, _ => none
  | fuel + 1, depth, cs =>
    match skipTrivia false cs with
    | ']' :: rest => some ([], rest)
    | cs => do
      let (item, rest) ← readValue fuel depth cs
      match skipTrivia false rest with
      | ']' :: rest => return ([item], rest)
      | ',' :: rest =>
        let (items, rest) ← readItems fuel depth rest
        return (item :: items, rest)
      | _ => none

/-- Reads the settings in braces, of which there is at least one, up to their end. -/
def readSettings : Nat → Nat → List Char → Option (List (List String × Value) × List Char)
  | 0, _, _ => none
  | fuel + 1, depth, cs => do
    let (key, rest) ← readKey cs
    let (value, rest) ← readValue fuel depth ((← skip '=' rest).dropWhile isBlank)
    match rest.dropWhile isBlank with
    | '}' :: rest => return ([(key, value)], rest)
    | ',' :: rest =>
      let (settings, rest) ← readSettings fuel depth rest
      return ((key, value) :: settings, rest)
    | _ => none

end

/-- Reads a value. Of any two calls of the reader that follow each other at least one takes a
character. -/
def Value.read (cs : List Char) : Option (Value × List Char) :=
  readValue (2 * cs.length + 2) maxDepth cs

end ChunkedUpload.Toml
