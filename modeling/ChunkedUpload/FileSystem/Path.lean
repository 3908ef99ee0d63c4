import ChunkedUpload.Text.Utf8

/-! Paths as they are written: rows of bytes in which slashes part the names. A path need not be
readable text. -/
namespace ChunkedUpload

abbrev FileName := List UInt8

structure Path where
  bytes : List UInt8
deriving DecidableEq, Inhabited, Repr

namespace Path

def slash : UInt8 := 47
def dot : UInt8 := 46

def ofString (text : String) : Path := ⟨text.toUTF8.toList⟩

/-- The path as text, for messages. -/
def display (path : Path) : String := Text.lossy path.bytes

def isAbsolute (path : Path) : Bool := path.bytes.head? == some slash

/-- Whether the path, by its last slash, insists on a directory. -/
def endsInSlash (path : Path) : Bool := path.bytes.getLast? == some slash

/-- Cuts a row of bytes at its slashes; `name` is what stands before the rest. -/
def cut (name : FileName) : List UInt8 → List FileName
  | [] => [name]
  | b :: rest => if b = slash then name :: cut [] rest else cut (name ++ [b]) rest

/-- The names on the way, in order, with `.` and `..` among them. -/
def names (path : Path) : List FileName :=
  (cut [] path.bytes).filter fun name => !name.isEmpty

/-- What one more step from a path leads to: an absolute path stands for itself, and any other is
set behind a slash. -/
def join (path next : Path) : Path :=
  if next.isAbsolute then next
  else if path.bytes.isEmpty || path.endsInSlash then ⟨path.bytes ++ next.bytes⟩
  else ⟨path.bytes ++ slash :: next.bytes⟩

def child (path : Path) (name : String) : Path := path.join (ofString name)

/-- The names that count: a single dot leads nowhere, except in front of all others. -/
def steps (path : Path) : List FileName :=
  match path.names with
  | [] => []
  | first :: rest =>
    let kept := rest.filter fun name => name ≠ [dot]
    if first = [dot] && path.isAbsolute then kept else first :: kept

/-- The last name, unless the path ends in a step to itself or upwards. -/
def fileName? (path : Path) : Option FileName :=
  path.steps.getLast?.bind fun name =>
    if name = [dot] ∨ name = [dot, dot] then none else some name

def ofSteps (absolute : Bool) (steps : List FileName) : Path :=
  let body := (steps.intersperse [slash]).flatten
  ⟨if absolute then slash :: body else body⟩

/-- The path without its last step, if it has one. -/
def parent? (path : Path) : Option Path :=
  match path.steps with
  | [] => none
  | steps => some (ofSteps path.isAbsolute steps.dropLast)

end Path

end ChunkedUpload
