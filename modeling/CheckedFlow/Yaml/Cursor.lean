/-!
# Walking through YAML text

A `Cursor` stands in a text and knows its line and column. YAML breaks lines at carriage returns,
line feeds, next lines and the two Unicode separators; a carriage return with a line feed is one
break.

* `Cursor.advance`, `Cursor.passBreak`: over some characters, and over one line break.
* `isAllowed`: the characters that a YAML text may hold at all.
* `unreadableFrom`: where a text stops being readable. Characters are looked at in blocks, so that all
  of a block is unreadable that holds a character that is not allowed.
-/

namespace CheckedFlow.Yaml

/-- The characters that YAML text may hold. -/
def isAllowed (c : Char) : Bool :=
  let n := c.toNat
  n == 0x09 || n == 0x0A || n == 0x0D || (0x20 ≤ n && n ≤ 0x7E) || n == 0x85 ||
    (0xA0 ≤ n && n ≤ 0xD7FF) || (0xE000 ≤ n && n ≤ 0xFFFD) || 0x10000 ≤ n

/-- The bytes of a block. -/
def blockSize : Nat := 0x4000

/-- Where the first block starts that holds a character that is not allowed, in bytes. A block is the
longest run of whole characters that is not larger than `blockSize`; the one that goes on in the text
starts at `start` and has `used` bytes so far. -/
def unreadableFrom (start used : Nat) : List Char → Option Nat
  | [] => none
  | c :: cs =>
    if used + c.utf8Size ≤ blockSize then
      if isAllowed c then unreadableFrom start (used + c.utf8Size) cs else some start
    else if isAllowed c then unreadableFrom (start + used) c.utf8Size cs
    else some (start + used)

/-- The mark of the order of bytes, which may stand at the start of a line. -/
def isOrderMark (c : Char) : Bool := c.toNat == 0xFEFF

/-- A line break, or a part of one. -/
def isBreak (c : Char) : Bool :=
  c == '\r' || c == '\n' || c.toNat == 0x85 || c.toNat == 0x2028 || c.toNat == 0x2029

/-- A space or a tab. -/
def isBlank (c : Char) : Bool := c == ' ' || c == '\t'

/-- A letter, digit, hyphen or underscore of ASCII. -/
def isWord (c : Char) : Bool := c.isAlphanum || c == '_' || c == '-'

/-- A place in a text: what follows, and how much came before. -/
structure Cursor where
  rest : List Char
  /-- The bytes before the place. -/
  index : Nat := 0
  line : Nat := 0
  column : Nat := 0

namespace Cursor

/-- The character `n` places ahead. -/
def ahead (c : Cursor) (n : Nat) : Option Char := c.rest[n]?

/-- The text ends, or a character in `p` follows `n` places ahead. -/
def endsOr (c : Cursor) (p : Char → Bool) (n : Nat) : Bool :=
  match c.ahead n with
  | none => true
  | some x => p x

/-- A blank, a line break or the end of the text is `n` places ahead. -/
def gapAt (c : Cursor) (n : Nat) : Bool := c.endsOr (fun x => isBlank x || isBreak x) n

/-- A character in `p` is `n` places ahead. -/
def sees (c : Cursor) (p : Char → Bool) (n : Nat) : Bool :=
  match c.ahead n with
  | none => false
  | some x => p x

/-- The character `x` is `n` places ahead. -/
def seesChar (c : Cursor) (x : Char) (n : Nat) : Bool := c.ahead n == some x

/-- The text ends here. -/
def atEnd (c : Cursor) : Bool := c.rest.isEmpty

/-- Over `n` characters that break no line. -/
def advance (c : Cursor) : Nat → Cursor
  | 0 => c
  | n + 1 =>
    match c.rest with
    | [] => c
    | x :: rest => advance ⟨rest, c.index + x.utf8Size, c.line, c.column + 1⟩ n

/-- Over the characters in `p`, which breaks no line. -/
def skipWhile (c : Cursor) (p : Char → Bool) : Cursor := c.advance (c.rest.takeWhile p).length

/-- Over one line break, and the characters that it stands for. -/
def passBreak (c : Cursor) : List Char × Cursor :=
  match c.rest with
  | '\r' :: '\n' :: rest => (['\n'], ⟨rest, c.index + 2, c.line + 1, 0⟩)
  | x :: rest =>
    let kept := if x.toNat = 0x2028 ∨ x.toNat = 0x2029 then x else '\n'
    ([kept], ⟨rest, c.index + x.utf8Size, c.line + 1, 0⟩)
  | [] => ([], c)

/-- A marker of a document's start or end stands here, three times `x` at the start of a line. -/
def seesMarker (c : Cursor) (x : Char) : Bool :=
  c.column == 0 && c.seesChar x 0 && c.seesChar x 1 && c.seesChar x 2 && c.gapAt 3

/-- A marker of either kind stands here. -/
def seesDocumentMarker (c : Cursor) : Bool := c.seesMarker '-' || c.seesMarker '.'

end Cursor

end CheckedFlow.Yaml
