import ChunkedUpload.Text.Hex

/-! Flat JSON objects as text, on one line or with a line for each member. -/
namespace ChunkedUpload.Json

inductive Scalar
  | text (value : String)
  | integer (value : Int)
deriving DecidableEq, Repr

/-- A flat object: its members in the order in which they are written. -/
abbrev Record := List (String × Scalar)

/-- A character inside quotes. Quotes, backslashes and controls are escaped, and nothing else. -/
def escapeChar (c : Char) : List Char :=
  match c with
  | '"' => ['\\', '"']
  | '\\' => ['\\', '\\']
  | '\x08' => ['\\', 'b']
  | '\x0c' => ['\\', 'f']
  | '\n' => ['\\', 'n']
  | '\r' => ['\\', 'r']
  | '\t' => ['\\', 't']
  | _ =>
    if c.toNat < 0x20 then
      ['\\', 'u', '0', '0', Text.hexDigit (c.toNat / 16), Text.hexDigit (c.toNat % 16)]
    else [c]

def quote (value : String) : List Char := '"' :: value.toList.flatMap escapeChar ++ ['"']

def Scalar.render : Scalar → List Char
  | text value => quote value
  | integer value => (toString value).toList

/-- The record on one line, without blanks. -/
def compact (record : Record) : String :=
  let members := record.map fun (key, value) => quote key ++ ':' :: value.render
  String.ofList ('{' :: (members.intersperse [',']).flatten ++ ['}'])

/-- The record with one line for each member, indented by two blanks. -/
def pretty (record : Record) : String :=
  let members := record.map fun (key, value) =>
    '\n' :: ' ' :: ' ' :: quote key ++ ':' :: ' ' :: value.render
  String.ofList ('{' :: (members.intersperse [',']).flatten ++ ['\n', '}'])

end ChunkedUpload.Json
