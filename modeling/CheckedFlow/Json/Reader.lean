import CheckedFlow.Json.Basic
import CheckedFlow.Json.Number

/-!
# Reading JSON documents

A `Reader` takes a value off the front of a byte string. A reader for a known type stops at the
first thing that is not what the type wants, so a fault of the type that stands before a fault of
the document is the one that is told.

* Blanks, literals, numbers and strings: `skipBlanks`, `literal`, `number`, `string`.
* Containers: `nextItem` and `nextKey` step through an array or an object; `items` and `foldFields`
  run to its end.
* `found` and `wrong`: what stands at the front where something else is wanted.
* `skipValue`: over a value that nobody wants. Its strings may hold any bytes and its numbers may
  have any size.
* `value`: any JSON value within a number of levels of nesting. `Json.read` reads a whole document.
-/

namespace CheckedFlow.Json

open Decoding

/-- Takes a value off the front of a byte string. -/
abbrev Reader := StateT Bytes (Except Fault)

/-- The containers that may nest in a document. -/
def maxLevels : Nat := 127

namespace Reader

/-- The document is malformed here. -/
def malformed {α : Type} : Reader α := throw .malformed

/-- The blanks between the tokens of a document. -/
def isBlank (b : UInt8) : Bool := b = 0x20 || b = 0x0A || b = 0x09 || b = 0x0D

/-- Passes over blanks. -/
def skipBlanks : Reader Unit := modify (·.dropWhile isBlank)

/-- The byte at the front after blanks, as a character of ASCII or Latin-1. -/
def peek : Reader (Option Char) := do
  skipBlanks
  return (← get).head?.map Char.ofUInt8

/-- Passes over one byte. -/
def skip : Reader Unit := modify List.tail

/-- Passes over the characters of `word`. -/
def literal (word : List Char) : Reader Unit := do
  let bs ← get
  let w := word.map fun c => UInt8.ofNat c.toNat
  if w.isPrefixOf bs then set (bs.drop w.length) else malformed

/-- The number at the front. -/
def number : Reader Number := do
  let (n, rest) ← readNumeral (← get)
  match n.value? with
  | some x => set rest; return x
  | none => malformed

/-! ## Strings -/

/-- The number that four hexadecimal digits write, and the rest. -/
def hexQuad : Bytes → Except Fault (Nat × Bytes)
  | a :: b :: c :: d :: rest =>
    let digit (x : UInt8) := Bytes.hexDigit? (Char.ofUInt8 x)
    match digit a, digit b, digit c, digit d with
    | some a, some b, some c, some d => .ok (4096 * a + 256 * b + 16 * c + d, rest)
    | _, _, _, _ => .error .malformed
  | _ => .error .malformed

/-- The UTF-8 form of the character with code point `n`. -/
def codePoint (n : Nat) : Bytes := String.utf8EncodeChar (Char.ofNat n)

/-- The character of an escape in hexadecimal digits. A code point above four digits is written as
two halves, and neither half stands alone. -/
def unicodeEscape (bs : Bytes) : Except Fault (Bytes × Bytes) := do
  let (high, rest) ← hexQuad bs
  if 0xDC00 ≤ high ∧ high ≤ 0xDFFF then throw .malformed
  else if 0xD800 ≤ high ∧ high ≤ 0xDBFF then
    match rest with
    | 0x5C :: 0x75 :: rest =>
      let (low, rest) ← hexQuad rest
      if 0xDC00 ≤ low ∧ low ≤ 0xDFFF then
        return (codePoint (0x10000 + 1024 * (high - 0xD800) + (low - 0xDC00)), rest)
      else throw .malformed
    | _ => throw .malformed
  else return (codePoint high, rest)

/-- The byte that a letter after a backslash stands for. -/
def shortEscape? (c : Char) : Option UInt8 :=
  match c with
  | '"' => some 0x22
  | '\\' => some 0x5C
  | '/' => some 0x2F
  | 'b' => some 0x08
  | 'f' => some 0x0C
  | 'n' => some 0x0A
  | 'r' => some 0x0D
  | 't' => some 0x09
  | _ => none

/-- The bytes that an escape stands for, after its backslash. -/
def escape : Bytes → Except Fault (Bytes × Bytes)
  | [] => .error .malformed
  | b :: rest =>
    if b = 0x75 then unicodeEscape rest
    else
      match shortEscape? (Char.ofUInt8 b) with
      | some x => .ok ([x], rest)
      | none => .error .malformed

/-- The content of a string up to its closing quote, and the rest. The first argument has at least
as many bytes as the second and bounds the number of rounds. -/
def stringBytes : Bytes → Bytes → Except Fault (Bytes × Bytes)
  | _ :: rounds, b :: bs =>
    if b = 0x22 then .ok ([], bs)
    else if b = 0x5C then do
      let (c, bs) ← escape bs
      let (content, rest) ← stringBytes rounds bs
      return (c ++ content, rest)
    else if b < 0x20 then .error .malformed
    else do
      let (content, rest) ← stringBytes rounds bs
      return (b :: content, rest)
  | _, _ => .error .malformed

/-- The string at the front, after its opening quote. -/
def string : Reader String := do
  let bs ← get
  let (content, rest) ← stringBytes bs bs
  match Bytes.toText? content with
  | some s => set rest; return s
  | none => malformed

/-- Passes over the rest of a string, whatever bytes and code points it holds. -/
def skipStringBytes : Bytes → Bytes → Except Fault Bytes
  | _ :: rounds, b :: bs =>
    if b = 0x22 then .ok bs
    else if b = 0x5C then
      match bs with
      | 0x75 :: bs => do
        let (_, bs) ← hexQuad bs
        skipStringBytes rounds bs
      | c :: bs =>
        if (shortEscape? (Char.ofUInt8 c)).isSome then skipStringBytes rounds bs
        else .error .malformed
      | [] => .error .malformed
    else if b < 0x20 then .error .malformed
    else skipStringBytes rounds bs
  | _, _ => .error .malformed

/-- Passes over a string, after its opening quote. -/
def skipString : Reader Unit := do
  let bs ← get
  set (← skipStringBytes bs bs)

/-! ## What stands at the front -/

/-- What stands at the front; a scalar is read to its end, a container is only named. -/
def found : Reader Found := do
  match ← peek with
  | some 'n' => literal ['n', 'u', 'l', 'l']; return .nothing
  | some 't' => literal ['t', 'r', 'u', 'e']; return .boolean true
  | some 'f' => literal ['f', 'a', 'l', 's', 'e']; return .boolean false
  | some '"' => skip; return .text (← string)
  | some '[' => return .sequence
  | some '\x7b' => return .mapping
  | some c => if c = '-' ∨ c.isDigit then return (← number).found else malformed
  | none => malformed

/-- What stands at the front is not what is wanted. -/
def wrong {α : Type} (wanted : String) : Reader α := do
  throw (.wrongKind (← found) wanted)

/-! ## Containers -/

/-- Whether another item follows in an array; at its end the closing bracket stays. -/
def nextItem (first : Bool) : Reader Bool := do
  match ← peek with
  | some ']' => return false
  | some ',' =>
    if first then return true
    skip
    match ← peek with
    | some ']' | none => malformed
    | some _ => return true
  | some _ => if first then return true else malformed
  | none => malformed

/-- Passes over the end of an array. -/
def endArray : Reader Unit := do
  if (← peek) = some ']' then skip else malformed

/-- The items of an array up to its closing bracket, in at most as many rounds as there are bytes. -/
def itemsFrom {α : Type} (item : Reader α) : Bytes → Bool → Reader (List α)
  | [], _ => malformed
  | _ :: rounds, first => do
    if ← nextItem first then
      let x ← item
      let xs ← itemsFrom item rounds false
      return x :: xs
    else return []

/-- The items of an array, after its opening bracket. -/
def items {α : Type} (item : Reader α) : Reader (List α) := do
  let xs ← itemsFrom item (← get) true
  endArray
  return xs

/-- The key of the next field of an object, with its colon; none before the closing brace, which
stays. -/
def nextKey (first : Bool) : Reader (Option String) := do
  let key : Reader (Option String) := do
    if (← peek) = some '"' then
      skip
      return some (← string)
    else if (← get).isEmpty then malformed
    else throw .keyNotText
  match ← peek with
  | some '\x7d' => return none
  | some ',' =>
    if first then key
    else
      skip
      if (← peek) = some '\x7d' then malformed else key
  | some _ => if first then key else malformed
  | none => malformed

/-- Passes over a colon. -/
def colon : Reader Unit := do
  if (← peek) = some ':' then skip else malformed

/-- Passes over the end of an object. -/
def endObject : Reader Unit := do
  if (← peek) = some '\x7d' then skip else malformed

/-- Runs `step` on the key of every field of an object; it reads the colon and the value. -/
def foldFieldsFrom {σ : Type} (step : σ → String → Reader σ) : Bytes → Bool → σ → Reader σ
  | [], _, _ => malformed
  | _ :: rounds, first, s => do
    match ← nextKey first with
    | some key => foldFieldsFrom step rounds false (← step s key)
    | none => return s

/-- Runs `step` over the fields of an object, after its opening brace and up to the closing one. -/
def foldFields {σ : Type} (step : σ → String → Reader σ) (s : σ) : Reader σ := do
  foldFieldsFrom step (← get) true s

/-! ## Values that nobody wants -/

/-- Passes over the fields of an unwanted object, with `skipValue` for their values. -/
def skipFields (skipValue : Reader Unit) : Bytes → Bool → Reader Unit
  | [], _ => malformed
  | _ :: rounds, first => do
    let field : Reader Unit := do
      match ← peek with
      | some '"' => skip; skipString; colon; skipValue; skipFields skipValue rounds false
      | some _ => throw .keyNotText
      | none => malformed
    match ← peek with
    | some '\x7d' => skip
    | some ',' => if first then throw .keyNotText else skip; field
    | some _ => if first then field else malformed
    | none => malformed

/-- Passes over a value; the argument bounds the nesting. -/
def skipValueWithin : Bytes → Reader Unit
  | [] => malformed
  | _ :: levels => do
    match ← peek with
    | some 'n' => literal ['n', 'u', 'l', 'l']
    | some 't' => literal ['t', 'r', 'u', 'e']
    | some 'f' => literal ['f', 'a', 'l', 's', 'e']
    | some '"' => skip; skipString
    | some '[' =>
      skip
      let _ ← items (skipValueWithin levels)
    | some '\x7b' => skip; skipFields (skipValueWithin levels) (← get) true
    | some c =>
      if c = '-' ∨ c.isDigit then
        let (_, rest) ← readNumeral (← get)
        set rest
      else malformed
    | none => malformed

/-- Passes over a value of any nesting. -/
def skipValue : Reader Unit := do skipValueWithin (← get)

/-! ## Any value -/

/-- A value, with `inner` for the values inside containers; without it none may be entered. -/
def valueWith (inner : Option (Reader Json)) : Reader Json := do
  match ← peek with
  | some 'n' => literal ['n', 'u', 'l', 'l']; return .null
  | some 't' => literal ['t', 'r', 'u', 'e']; return .boolean true
  | some 'f' => literal ['f', 'a', 'l', 's', 'e']; return .boolean false
  | some '"' => skip; return .text (← string)
  | some '[' =>
    match inner with
    | none => malformed
    | some inner => skip; return .array (← items inner)
  | some '\x7b' =>
    match inner with
    | none => malformed
    | some inner =>
      skip
      let fields ← foldFields
        (fun fields key => do colon; return insertField key (← inner) fields) []
      endObject
      return .object fields
  | some c =>
    if c = '-' ∨ c.isDigit then
      match ← number with
      | .whole n => return .integer n
      | .float x => return .float x
    else malformed
  | none => malformed

/-- A value in which at most `levels` containers nest. -/
def value : (levels : Nat) → Reader Json
  | 0 => valueWith none
  | levels + 1 => valueWith (some (value levels))

/-- What `reader` finds in a whole document: nothing but blanks follows. -/
def document {α : Type} (reader : Reader α) (bs : Bytes) : Except Fault α := do
  let (x, rest) ← reader.run bs
  if (rest.dropWhile isBlank).isEmpty then return x else throw .malformed

end Reader

/-- The value of a document. -/
def read (bs : Bytes) : Except Fault Json := Reader.document (Reader.value maxLevels) bs

end CheckedFlow.Json
