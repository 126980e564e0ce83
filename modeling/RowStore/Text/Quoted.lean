import RowStore.Text.Concealed

namespace RowStore.Text

/-- A code point in hexadecimal between braces. -/
def codePointEscape (char : Char) : String :=
  "\\u\x7b" ++ String.ofList (Nat.toDigits 16 char.toNat) ++ "\x7d"

/-- How a character is written between quotation marks; an apostrophe stands for itself. -/
def quotedChar (char : Char) : String :=
  match char with
  | '\x00' => "\\0"
  | '\t' => "\\t"
  | '\r' => "\\r"
  | '\n' => "\\n"
  | '\\' => "\\\\"
  | '"' => "\\\""
  | _ => if isConcealed char then codePointEscape char else String.singleton char

def quoted (text : String) : String :=
  "\"" ++ String.join (text.toList.map quotedChar) ++ "\""

end RowStore.Text
