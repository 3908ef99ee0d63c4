import ChunkedUpload.Toml.Quoted

/-! Keys of TOML: names with dots between them, around which blanks are allowed. -/
namespace ChunkedUpload.Toml

/-- A key has at most this many names. -/
def maxNames : Nat := 79

def isNameChar (c : Char) : Bool := c.isAlphanum || c == '_' || c == '-'

/-- One name, bare or quoted. -/
def readName : List Char → Option (String × List Char)
  | '"' :: rest => readQuoted ⟨'"', false⟩ rest
  | '\'' :: rest => readQuoted ⟨'\'', false⟩ rest
  | cs =>
    match cs.takeWhile isNameChar with
    | [] => none
    | name => some (String.ofList name, cs.drop name.length)

/-- Reads a key of at most so many names, and the blanks behind it. -/
def readNames : Nat → List Char → Option (List String × List Char)
  | 0, _ => none
  | count + 1, cs => do
    let (name, rest) ← readName (cs.dropWhile isBlank)
    match rest.dropWhile isBlank with
    | '.' :: rest =>
      let (names, rest) ← readNames count rest
      return (name :: names, rest)
    | rest => return ([name], rest)

def readKey (cs : List Char) : Option (List String × List Char) := readNames maxNames cs

end ChunkedUpload.Toml
