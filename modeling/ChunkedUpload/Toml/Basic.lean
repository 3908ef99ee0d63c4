/-! TOML documents as values: nested tables, and the rules by which keys and headers add to them. A
key is set once, and a table is opened once. -/
namespace ChunkedUpload.Toml

inductive Form
  /-- By a header of its own, or as the document itself. -/
  | header
  /-- On the way to the table of a header. -/
  | implied
  /-- On the way of a dotted key. -/
  | dotted
  /-- Written in braces, once and for all. -/
  | inline
deriving DecidableEq, Repr

inductive Value
  | text (value : String)
  | integer (value : Int64)
  /-- A number with a fraction or an exponent, an infinity, or no number at all. -/
  | decimal
  | boolean (value : Bool)
  /-- A date, a time of day, or both. -/
  | moment
  | array (items : List Value)
  | table (form : Form) (entries : List (String × Value))
  /-- Tables under one name that was given to each of them in double brackets. -/
  | tables (elements : List (List (String × Value)))

abbrev Entries := List (String × Value)

namespace Entries

/-- Sets a key, in place of the value it had. -/
def put (entries : Entries) (key : String) (value : Value) : Entries :=
  (entries.filter fun entry => entry.1 ≠ key) ++ [(key, value)]

/-- Sets a key that is not set yet. -/
def define (entries : Entries) (key : String) (value : Value) : Option Entries :=
  if (entries.lookup key).isSome then none else some (entries.put key value)

/-- Changes the last of some tables. -/
def changeLast (change : Entries → Option Entries) : List Entries → Option (List Entries)
  | [] => none
  | [last] => (change last).map fun entries => [entries]
  | first :: rest => (changeLast change rest).map fun rest => first :: rest

/-- Sets a dotted key. Tables on the way are made if they are missing; the last of them has to be
one that such a key has made, and the others may also stand on the way to a header. -/
def assign (entries : Entries) : List String → Value → Option Entries
  | [], _ => none
  | [key], value => entries.define key value
  | key :: next :: path, value =>
    match entries.lookup key with
    | none =>
      (assign [] (next :: path) value).map fun inner => entries.put key (.table .dotted inner)
    | some (.table form inner) =>
      if form = .dotted ∨ (form = .implied ∧ path ≠ []) then
        (assign inner (next :: path) value).map fun inner => entries.put key (.table form inner)
      else none
    | some (.tables elements) =>
      if path = [] then none
      else
        (changeLast (fun inner => assign inner (next :: path) value) elements).map fun elements =>
          entries.put key (.tables elements)
    | some _ => none

/-- Changes the table in which the last name of a header stands. Tables on the way are made if they
are missing, and of tables under one name the last is meant. -/
def descend (change : Entries → String → Option Entries) (entries : Entries) :
    List String → Option Entries
  | [] => none
  | [key] => change entries key
  | key :: next :: path =>
    match entries.lookup key with
    | none =>
      (descend change [] (next :: path)).map fun inner => entries.put key (.table .implied inner)
    | some (.table .inline _) => none
    | some (.table form inner) =>
      (descend change inner (next :: path)).map fun inner => entries.put key (.table form inner)
    | some (.tables elements) =>
      (changeLast (fun inner => descend change inner (next :: path)) elements).map fun elements =>
        entries.put key (.tables elements)
    | some _ => none

def assignAll (entries : Entries) (settings : List (List String × Value)) : Option Entries :=
  settings.foldlM (fun entries setting => entries.assign setting.1 setting.2) entries

/-- Opens the table of a header and fills it. It must be new, or have stood on the way to others. -/
def openTable (entries : Entries) (path : List String) (settings : List (List String × Value)) :
    Option Entries :=
  descend (fun entries key =>
    match entries.lookup key with
    | none => (assignAll [] settings).map fun filled => entries.put key (.table .header filled)
    | some (.table .implied inner) =>
      (assignAll inner settings).map fun filled => entries.put key (.table .header filled)
    | some _ => none) entries path

/-- Adds one table to those under a name and fills it. -/
def addElement (entries : Entries) (path : List String) (settings : List (List String × Value)) :
    Option Entries :=
  descend (fun entries key =>
    match entries.lookup key with
    | none => (assignAll [] settings).map fun filled => entries.put key (.tables [filled])
    | some (.tables elements) =>
      (assignAll [] settings).map fun filled => entries.put key (.tables (elements ++ [filled]))
    | some _ => none) entries path

end Entries

end ChunkedUpload.Toml
