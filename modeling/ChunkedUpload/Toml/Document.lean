import ChunkedUpload.Toml.Value

/-! Whole TOML documents. Each line sets a key or opens a table, to which the settings below it
belong. -/
namespace ChunkedUpload.Toml

inductive Line
  | setting (key : List String) (value : Value)
  | table (path : List String)
  /-- A header in double brackets. -/
  | element (path : List String)

/-- What follows the end of a line, in front of which there may be blanks and a comment. -/
def endLine (cs : List Char) : Option (List Char) :=
  let rest :=
    match cs.dropWhile isBlank with
    | '#' :: comment => comment.dropWhile isPlain
    | rest => rest
  if rest.isEmpty then some [] else lineEnd? rest

/-- Reads a header behind its opening brackets. -/
def readHeader (closing : List Char) (cs : List Char) : Option (List String × List Char) := do
  let (path, rest) ← readKey cs
  if closing.isPrefixOf rest then return (path, ← endLine (rest.drop closing.length)) else none

def readLine : List Char → Option (Line × List Char)
  | '[' :: '[' :: rest =>
    (readHeader [']', ']'] rest).map fun (path, rest) => (.element path, rest)
  | '[' :: rest => (readHeader [']'] rest).map fun (path, rest) => (.table path, rest)
  | cs => do
    let (key, rest) ← readKey cs
    let (value, rest) ← Value.read ((← skip '=' rest).dropWhile isBlank)
    return (.setting key value, ← endLine rest)

def readLines : Nat → List Char → Option (List Line)
  | 0, cs => if cs.isEmpty then some [] else none
  | count + 1, cs =>
    match cs.dropWhile isBlank with
    | [] => some []
    | c :: rest =>
      if c = '#' ∨ c = '\n' ∨ c = '\r' then (endLine (c :: rest)).bind (readLines count)
      else do
        let (line, rest) ← readLine (c :: rest)
        return line :: (← readLines count rest)

/-- The settings in front, and what follows them. -/
def spanSettings : List Line → List (List String × Value) × List Line
  | .setting key value :: rest =>
    let (settings, rest) := spanSettings rest
    ((key, value) :: settings, rest)
  | lines => ([], lines)

theorem length_spanSettings_le (lines : List Line) :
    (spanSettings lines).2.length ≤ lines.length := by
  fun_induction spanSettings lines with
  | case1 key value rest settings after same ih =>
    simp only [same, List.length_cons] at ih ⊢
    omega
  | case2 => simp

/-- Adds the tables that some lines open. -/
def Entries.addLines (entries : Entries) : List Line → Option Entries
  | [] => some entries
  | .setting key value :: rest =>
    (entries.assign key value).bind fun entries => addLines entries rest
  | .table path :: rest =>
    (entries.openTable path (spanSettings rest).1).bind fun entries =>
      addLines entries (spanSettings rest).2
  | .element path :: rest =>
    (entries.addElement path (spanSettings rest).1).bind fun entries =>
      addLines entries (spanSettings rest).2
termination_by lines => lines.length
decreasing_by
  all_goals
    have := length_spanSettings_le rest
    simp only [List.length_cons]
    omega

/-- Reads a whole document. Every line takes at least one character. -/
def parse? (text : String) : Option Entries := do
  let cs := match text.toList with
    | '\uFEFF' :: rest => rest
    | cs => cs
  Entries.addLines [] (← readLines cs.length cs)

end ChunkedUpload.Toml
