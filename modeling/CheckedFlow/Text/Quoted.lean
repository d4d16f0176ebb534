import CheckedFlow.Text.Printing

/-!
# Quoted text

How messages write a text so that its ends, and every character in it, can be read: between double
quotes, with a backslash before quotes and backslashes, short names for the common controls and the
code point in hexadecimal for any other character that is not `isPrinting`.
-/

namespace CheckedFlow.Text

/-- The hexadecimal digits of `n`, in lower case. -/
def hex (n : Nat) : String := String.ofList (Nat.toDigits 16 n)

/-- The written form of one character between double quotes. -/
def quotedChar (c : Char) : String :=
  match c with
  | '"' => "\\\""
  | '\\' => "\\\\"
  | '\n' => "\\n"
  | '\r' => "\\r"
  | '\t' => "\\t"
  | _ =>
    if c.toNat = 0 then "\\0"
    else if isPrinting c then c.toString
    else "\\u\x7b" ++ hex c.toNat ++ "\x7d"

/-- `s` between double quotes, every character in its written form. -/
def quoted (s : String) : String := "\"" ++ String.join (s.toList.map quotedChar) ++ "\""

/-- The texts of `items`, separated by commas. -/
def commas (items : List String) : String := String.intercalate ", " items

/-- The texts of `items` as a list in square brackets. -/
def bracketed (items : List String) : String := "[" ++ commas items ++ "]"

/-- The texts of `items` as a set or mapping in braces. -/
def braced (items : List String) : String := "\x7b" ++ commas items ++ "\x7d"

/-- A record in message form: its name, then each field's name and text in braces. -/
def record (name : String) (fields : List (String × String)) : String :=
  name ++ " \x7b " ++ commas (fields.map fun f => f.1 ++ ": " ++ f.2) ++ " \x7d"

end CheckedFlow.Text
