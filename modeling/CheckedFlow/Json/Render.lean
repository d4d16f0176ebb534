import CheckedFlow.Json.Basic

/-!
# Writing JSON

`Json.render` writes a value without blanks: the fields of an object in their order, characters
outside ASCII as they are, quotes, backslashes and controls escaped. A float that is not finite has
no JSON form and is written `null`.
-/

namespace CheckedFlow.Json

/-- A hexadecimal digit, in lower case. -/
def hexDigit (n : Nat) : Char := (Nat.digitChar n)

/-- The form of one character inside a JSON string. -/
def renderChar (c : Char) : List Char :=
  match c with
  | '"' => ['\\', '"']
  | '\\' => ['\\', '\\']
  | '\n' => ['\\', 'n']
  | '\r' => ['\\', 'r']
  | '\t' => ['\\', 't']
  | '\x08' => ['\\', 'b']
  | '\x0c' => ['\\', 'f']
  | _ =>
    if c.toNat < 0x20 then
      ['\\', 'u', '0', '0', hexDigit (c.toNat / 16), hexDigit (c.toNat % 16)]
    else [c]

/-- A text as a JSON string. -/
def renderText (s : String) : List Char := '"' :: s.toList.flatMap renderChar ++ ['"']

mutual

/-- The characters of a value's written form. -/
def renderChars : Json → List Char
  | null => "null".toList
  | boolean true => "true".toList
  | boolean false => "false".toList
  | integer n => (Text.signed n).toList
  | float x => if x.isFinite then (Decimal.Layout.json.write x).toList else "null".toList
  | text s => renderText s
  | array items => '[' :: renderItems items ++ [']']
  | object fields => '\x7b' :: renderFields fields ++ ['\x7d']

/-- The items of an array, separated by commas. -/
def renderItems : List Json → List Char
  | [] => []
  | [x] => renderChars x
  | x :: xs => renderChars x ++ ',' :: renderItems xs

/-- The fields of an object, separated by commas. -/
def renderFields : List (String × Json) → List Char
  | [] => []
  | [(k, x)] => renderText k ++ ':' :: renderChars x
  | (k, x) :: fs => renderText k ++ ':' :: renderChars x ++ ',' :: renderFields fs

end

/-- The written form of a value. -/
def render (j : Json) : String := String.ofList j.renderChars

end CheckedFlow.Json
