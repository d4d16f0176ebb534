/-!
# Blank characters

* `isBlank`: the characters of the Unicode property `White_Space`.
* `trim`: a text without the blanks at its two ends.
* `isBlankText`: whether nothing but blanks is in a text, so that `trim` empties it.
-/

namespace CheckedFlow.Text

/-- The property `White_Space`: the controls from tab to carriage return, the space, next line,
the no-break spaces, the typographic spaces, and the line and paragraph separators. -/
def isBlank (c : Char) : Bool :=
  let n := c.toNat
  (9 ≤ n && n ≤ 13) || n == 0x20 || n == 0x85 || n == 0xA0 || n == 0x1680 ||
    (0x2000 ≤ n && n ≤ 0x200A) || n == 0x2028 || n == 0x2029 || n == 0x202F || n == 0x205F ||
    n == 0x3000

/-- `s` without the blanks at its start and its end. -/
def trim (s : String) : String :=
  String.ofList ((s.toList.dropWhile isBlank).reverse.dropWhile isBlank).reverse

/-- Every character of `s` is a blank. -/
def isBlankText (s : String) : Bool := s.toList.all isBlank

/-- `s` with the letters `A` to `Z` in lower case; no other character changes. -/
def lowerAscii (s : String) : String := s.map Char.toLower

/-- `s` with the letters `a` to `z` in upper case; no other character changes. -/
def upperAscii (s : String) : String := s.map Char.toUpper

end CheckedFlow.Text
