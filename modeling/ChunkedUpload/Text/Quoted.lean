import ChunkedUpload.Text.Hidden
import ChunkedUpload.Text.Hex

/-! Texts in quotes, for reports that must stay on one line. -/
namespace ChunkedUpload.Text

/-- A character inside quotes. Quotes and backslashes are marked, line ends, tabs and NUL have
short forms, and a character that would not show is written as its number. -/
def quoteChar (c : Char) : String :=
  match c with
  | '"' => "\\\""
  | '\\' => "\\\\"
  | '\n' => "\\n"
  | '\r' => "\\r"
  | '\t' => "\\t"
  | '\x00' => "\\0"
  | _ =>
    if isHidden c then "\\u\x7b" ++ hexNumber c.toNat ++ "\x7d"
    else String.singleton c

def quote (text : String) : String :=
  "\"" ++ String.join (text.toList.map quoteChar) ++ "\""

end ChunkedUpload.Text
