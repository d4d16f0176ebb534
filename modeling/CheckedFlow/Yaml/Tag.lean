import CheckedFlow.Bytes
import CheckedFlow.Yaml.Scalar

/-!
# Tags

A tag tells what a node is meant to be. It is written in a few characters of ASCII, and other bytes as
a percent sign with two hexadecimal digits. The bytes of a character stand together, but they need not
be the UTF-8 form of one; a zero byte ends a tag.

* `Tag.ofWritten?`: the tag that characters write.
* `Tag.standard`: the tags of the standard; `Tag.localName?`: the name in a tag that is a document's
  own.
-/

namespace CheckedFlow.Yaml

/-- The bytes of a tag, written out. -/
structure Tag where
  bytes : Bytes
deriving DecidableEq, Repr

namespace Tag

/-- The characters of a written tag; some only between angle brackets. -/
def isCharacter (bracketed : Bool) (c : Char) : Bool :=
  isWord c || ";/?:@&=+$.%!~*'()".toList.contains c || (bracketed && ",[]".toList.contains c)

/-- The bytes of a character, as the high bits of the first one tell. -/
def width? (first : Nat) : Option Nat :=
  if first < 0x80 then some 1
  else if first < 0xC0 then none
  else if first < 0xE0 then some 2
  else if first < 0xF0 then some 3
  else if first < 0xF8 then some 4
  else none

/-- The next `count` bytes of a character, each with a percent sign, and what follows them. -/
def continuation? : (count : Nat) → List Char → Option (Bytes × List Char)
  | 0, cs => some ([], cs)
  | count + 1, '%' :: cs => do
    let n ← hexNumber 2 cs
    if n < 0x80 ∨ 0xC0 ≤ n then none
    else
      let (bytes, rest) ← continuation? count (cs.drop 2)
      return (UInt8.ofNat n :: bytes, rest)
  | _, _ => none

/-- The bytes that characters write. The first argument bounds the number of rounds. -/
def writtenBytes? : List Char → List Char → Option Bytes
  | _ :: rounds, '%' :: cs => do
    let n ← hexNumber 2 cs
    let (bytes, rest) ← continuation? ((← width? n) - 1) (cs.drop 2)
    return UInt8.ofNat n :: bytes ++ (← writtenBytes? rounds rest)
  | _ :: rounds, c :: cs => do return Bytes.ofText c.toString ++ (← writtenBytes? rounds cs)
  | _, _ => some []

/-- The tag that characters write. -/
def ofWritten? (cs : List Char) : Option Tag :=
  (writtenBytes? cs cs).map fun bytes => ⟨bytes.takeWhile (· ≠ 0)⟩

/-- The tag with the bytes of a text. -/
def ofText (s : String) : Tag := ⟨Bytes.ofText s⟩

/-- One tag behind another. -/
def append (a b : Tag) : Tag := ⟨a.bytes ++ b.bytes⟩

/-- The tag of a single exclamation mark. -/
def bare : Tag := ofText "!"

/-- What all tags of the standard start with. -/
def standardStart : Tag := ofText "tag:yaml.org,2002:"

/-- A tag of the standard. -/
def standard (name : String) : Tag := standardStart.append (ofText name)

/-- The tag is a document's own: it starts with an exclamation mark. -/
def isLocal (t : Tag) : Bool := t.bytes.head? == some '!'.toUInt8

/-- The name in a document's own tag. The name in the bare tag is the exclamation mark. -/
def localName? (t : Tag) : Option String :=
  if t.isLocal then Bytes.toText? (if t = bare then t.bytes else t.bytes.drop 1) else none

end Tag

end CheckedFlow.Yaml
