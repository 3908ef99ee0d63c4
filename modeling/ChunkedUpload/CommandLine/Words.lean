import ChunkedUpload.Text.Numeral
import ChunkedUpload.Text.Split

/-! The words of a command line. A command takes some operands, some options with a value and some
flags, in any order. Words are judged from the left, and a call for help ends the reading. -/
namespace ChunkedUpload.CommandLine

inductive Word
  /-- Ends the options: everything behind it is an operand. -/
  | separator
  | help
  /-- A name behind two dashes, and a value if one is attached by an equals sign. -/
  | option (name : String) (attached : Option String)
  /-- Letters behind one dash. There are none of these, apart from the one for help. -/
  | letters
  | plain
deriving DecidableEq, Repr

def Word.of (text : String) : Word :=
  match text.toList with
  | ['-'] => .plain
  | ['-', '-'] => .separator
  | '-' :: '-' :: rest =>
    let (name, attached) := Text.splitAt (· == '=') rest
    if name = "help".toList ∧ attached = none then .help
    else .option (String.ofList name) (attached.map String.ofList)
  | '-' :: 'h' :: _ => .help
  | '-' :: _ => .letters
  | _ => .plain

/-- A natural number of 32 bits. It may be written with a sign, so that zero may have a minus. -/
def count? (text : String) : Option UInt32 :=
  (Text.integer? text.toList).bind Text.word32OfInt?

inductive ValueKind
  | path
  /-- A number that may be negative. -/
  | identifier
  | count
deriving DecidableEq, Repr

namespace ValueKind

def accepts (kind : ValueKind) (text : String) : Bool :=
  match kind with
  | path => !text.isEmpty
  | identifier => (Text.signed64? text.toList).isSome
  | count => (count? text).isSome

/-- Whether a word that follows an option can be its value. Only where negative numbers are expected
may it begin with a dash. -/
def takes (kind : ValueKind) (text : String) : Bool :=
  kind == identifier || Word.of text == .plain

end ValueKind

/-- What a command takes. Its operands are paths. -/
structure Grammar where
  operands : Nat
  options : List (String × ValueKind)
  flags : List String
deriving Repr

structure Given where
  operands : List String
  values : List (String × String)
  flags : List String
deriving DecidableEq, Repr

namespace Given

def empty : Given := ⟨[], [], []⟩

/-- Takes an operand, as long as one is expected. -/
def addOperand (given : Given) (grammar : Grammar) (text : String) : Option Given :=
  if given.operands.length < grammar.operands ∧ ValueKind.path.accepts text then
    some { given with operands := given.operands ++ [text] }
  else none

/-- Takes the value of an option, which may be given once. -/
def addValue (given : Given) (name : String) (kind : ValueKind) (text : String) : Option Given :=
  if (given.values.lookup name).isNone ∧ kind.accepts text then
    some { given with values := given.values ++ [(name, text)] }
  else none

/-- Takes a flag, which may be given once. -/
def addFlag (given : Given) (name : String) : Option Given :=
  if given.flags.contains name then none
  else some { given with flags := given.flags ++ [name] }

end Given

/-- What a command line asks for. -/
inductive Reading (α : Type)
  | help
  | run (what : α)
deriving DecidableEq, Repr

namespace Grammar

def readOperands (grammar : Grammar) (given : Given) : List String → Option (Reading Given)
  | [] => some (.run given)
  | word :: rest =>
    (given.addOperand grammar word).bind fun given => readOperands grammar given rest

/-- Reads words, or finds that they are not what the command takes. -/
def read (grammar : Grammar) (given : Given) : List String → Option (Reading Given)
  | [] => some (.run given)
  | word :: rest =>
    match Word.of word with
    | .separator => grammar.readOperands given rest
    | .help => some .help
    | .letters => none
    | .plain => (given.addOperand grammar word).bind fun given => read grammar given rest
    | .option name attached =>
      if grammar.flags.contains name then
        if attached.isSome then none
        else (given.addFlag name).bind fun given => read grammar given rest
      else
        match grammar.options.lookup name, attached, rest with
        | none, _, _ => none
        | some kind, some value, rest =>
          (given.addValue name kind value).bind fun given => read grammar given rest
        | some kind, none, value :: rest =>
          if kind.takes value then
            (given.addValue name kind value).bind fun given => read grammar given rest
          else none
        | some _, none, [] => none

end Grammar

end ChunkedUpload.CommandLine
