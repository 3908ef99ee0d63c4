import ChunkedUpload.Text.Hex

/-! Quoted texts of TOML. Double quotes allow escapes and single quotes do not; a text in three
quotes on either side may go over several lines. -/
namespace ChunkedUpload.Toml

def isBlank (c : Char) : Bool := c == ' ' || c == '\t'

/-- Whether a character may stand in a text or a comment as it is: controls may not, tabs apart. -/
def isPlain (c : Char) : Bool :=
  c == '\t' || (decide (0x20 ≤ c.toNat) && c.toNat != 0x7F)

/-- What follows a line end, if one is here. -/
def lineEnd? : List Char → Option (List Char)
  | '\n' :: rest => some rest
  | '\r' :: '\n' :: rest => some rest
  | _ => none

/-- The character of a code in hexadecimal digits. Halves of surrogate pairs have none. -/
def codeChar? (digits : List Char) : Option Char := do
  let code ← Text.ofHex? digits
  if code < 0xD800 ∨ (0xDFFF < code ∧ code < 0x110000) then some (Char.ofNat code) else none

/-- The character that an escape stands for, and how long the escape is behind its backslash. -/
def escape? : List Char → Option (Char × Nat)
  | 'b' :: _ => some ('\x08', 1)
  | 't' :: _ => some ('\t', 1)
  | 'n' :: _ => some ('\n', 1)
  | 'f' :: _ => some ('\x0c', 1)
  | 'r' :: _ => some ('\r', 1)
  | '"' :: _ => some ('"', 1)
  | '\\' :: _ => some ('\\', 1)
  | 'u' :: rest => if rest.length < 4 then none else (codeChar? (rest.take 4)).map fun c => (c, 5)
  | 'U' :: rest => if rest.length < 8 then none else (codeChar? (rest.take 8)).map fun c => (c, 9)
  | _ => none

/-- What follows blanks and line ends. -/
def skipLines : List Char → List Char
  | [] => []
  | '\r' :: '\n' :: rest => skipLines rest
  | c :: rest => if isBlank c || c == '\n' then skipLines rest else c :: rest

theorem length_skipLines_le (cs : List Char) : (skipLines cs).length ≤ cs.length := by
  fun_induction skipLines cs with
  | case1 => simp
  | case2 rest ih => simp only [List.length_cons]; omega
  | case3 c rest _ _ ih => simp only [List.length_cons]; omega
  | case4 c rest _ _ => simp

/-- Which quotes a text stands in. -/
structure Quotes where
  mark : Char
  /-- Whether there are three of them on either side. -/
  long : Bool
deriving DecidableEq, Repr

/-- Reads a text up to its closing quotes. Of a run of quotes that closes a long text, those before
the last three belong to the text, which are two at most. A backslash at the end of a line takes
away the blanks and line ends behind it. A line end is kept as a line feed. -/
def readBody (quotes : Quotes) : List Char → Option (List Char × List Char)
  | [] => none
  | c :: rest =>
    if c = quotes.mark then
      if quotes.long then
        let run := min 4 (rest.takeWhile (· = quotes.mark)).length
        if run < 2 then (readBody quotes rest).map fun (text, rest) => (c :: text, rest)
        else some (List.replicate (run - 2) c, rest.drop run)
      else some ([], rest)
    else if c = '\\' ∧ quotes.mark = '"' then
      if quotes.long ∧ (lineEnd? (rest.dropWhile isBlank)).isSome then
        readBody quotes (skipLines rest)
      else do
        let (meant, taken) ← escape? rest
        let (text, rest) ← readBody quotes (rest.drop taken)
        return (meant :: text, rest)
    else if quotes.long ∧ c = '\r' ∧ rest.head? = some '\n' then readBody quotes rest
    else if isPlain c ∨ (quotes.long ∧ c = '\n') then
      (readBody quotes rest).map fun (text, rest) => (c :: text, rest)
    else none
termination_by cs => cs.length
decreasing_by
  all_goals
    have := length_skipLines_le rest
    simp only [List.length_cons, List.length_drop]
    omega

/-- Reads a text behind its opening quotes. A line end directly behind long ones is no part of it.
-/
def readQuoted (quotes : Quotes) (cs : List Char) : Option (String × List Char) :=
  let body := if quotes.long then (lineEnd? cs).getD cs else cs
  (readBody quotes body).map fun (text, rest) => (String.ofList text, rest)

end ChunkedUpload.Toml
