import CheckedFlow.Bytes
import CheckedFlow.Yaml.Cursor

/-!
# The text of scalars

A scalar is written plain, in single or double quotes, or as a block. Lines are joined: a single
break is read as a space, and of several the first is dropped; literal blocks keep them.

* `scanQuoted`, `scanPlain`, `scanBlock`: the text of a scalar and the place behind it; none if the
  scalar is malformed.
-/

namespace CheckedFlow.Yaml

/-- How a scalar is written. -/
inductive Style where
  | plain
  | quoted
  | literal
  | folded
deriving DecidableEq, Repr

/-- The line breaks between two pieces of a scalar that is read across lines. -/
structure Breaks where
  /-- Blanks on the line of the last piece. -/
  blanks : List Char := []
  /-- The first break, if a line was left. -/
  leading : List Char := []
  trailing : List Char := []
  /-- A line was left. -/
  left : Bool := false

namespace Breaks

/-- What the breaks are read as. -/
def folded (b : Breaks) : List Char :=
  if b.left then
    if b.leading = ['\n'] then (if b.trailing.isEmpty then [' '] else b.trailing)
    else b.leading ++ b.trailing
  else b.blanks

/-- The breaks after one more, which stands for `cs`. -/
def add (b : Breaks) (cs : List Char) : Breaks :=
  if b.left then { b with trailing := b.trailing ++ cs }
  else { b with blanks := [], leading := cs, left := true }

end Breaks

/-- The blanks and breaks at the cursor. A tab that stands before column `indent` after a break is
malformed. The first argument bounds the number of rounds. -/
def scanBreaks (indent : Nat) : List Char → Cursor → Breaks → Option (Breaks × Cursor)
  | [], c, b => some (b, c)
  | _ :: rounds, c, b =>
    match c.rest with
    | [] => some (b, c)
    | x :: _ =>
      if isBlank x then
        if b.left then
          if c.column < indent ∧ x = '\t' then none
          else scanBreaks indent rounds (c.advance 1) b
        else scanBreaks indent rounds (c.advance 1) { b with blanks := b.blanks ++ [x] }
      else if isBreak x then
        let (cs, c) := c.passBreak
        scanBreaks indent rounds c (b.add cs)
      else some (b, c)

/-! ## Quoted scalars -/

/-- The number that `count` hexadecimal digits write. -/
def hexNumber (count : Nat) (cs : List Char) : Option Nat :=
  let ds := cs.take count
  if ds.length = count then
    ds.foldl (fun n d => do return 16 * (← n) + (← Bytes.hexDigit? d)) (some 0)
  else none

/-- The character of a short escape. -/
def shortEscape? (c : Char) : Option Char :=
  match c with
  | '0' => some (Char.ofNat 0)
  | 'a' => some (Char.ofNat 7)
  | 'b' => some (Char.ofNat 8)
  | 't' | '\t' => some '\t'
  | 'n' => some '\n'
  | 'v' => some (Char.ofNat 11)
  | 'f' => some (Char.ofNat 12)
  | 'r' => some '\r'
  | 'e' => some (Char.ofNat 27)
  | ' ' => some ' '
  | '"' => some '"'
  | '/' => some '/'
  | '\\' => some '\\'
  | 'N' => some (Char.ofNat 0x85)
  | '_' => some (Char.ofNat 0xA0)
  | 'L' => some (Char.ofNat 0x2028)
  | 'P' => some (Char.ofNat 0x2029)
  | _ => none

/-- The number of hexadecimal digits after the letter of an escape. -/
def escapeDigits? (c : Char) : Option Nat :=
  match c with
  | 'x' => some 2
  | 'u' => some 4
  | 'U' => some 8
  | _ => none

/-- The character of the escape at the cursor, which stands on its backslash. -/
def scanEscape (c : Cursor) : Option (Char × Cursor) := do
  let letter ← c.ahead 1
  match shortEscape? letter with
  | some x => return (x, c.advance 2)
  | none =>
    let count ← escapeDigits? letter
    let n ← hexNumber count (c.rest.drop 2)
    if h : n.isValidChar then return (Char.ofNatAux n h, c.advance (2 + count)) else none

/-- The text of a quoted scalar up to its closing quote. The cursor stands behind the opening one;
`b` holds the breaks since the last character. -/
def scanQuotedFrom (single : Bool) : List Char → Cursor → Breaks → Option (List Char × Cursor)
  | [], _, _ => none
  | _ :: rounds, c, b =>
    let quote := if single then '\'' else '"'
    if c.seesDocumentMarker then none
    else
      match c.rest with
      | [] => none
      | x :: _ =>
        if isBlank x ∨ isBreak x then do
          let (b, c) ← scanBreaks 0 c.rest c b
          scanQuotedFrom single rounds c b
        else if single ∧ x = quote ∧ c.seesChar quote 1 then do
          let (text, c) ← scanQuotedFrom single rounds (c.advance 2) {}
          return (b.folded ++ quote :: text, c)
        else if x = quote then some (b.folded, c.advance 1)
        else if ¬ single ∧ x = '\\' ∧ c.sees isBreak 1 then do
          let (_, c) := (c.advance 1).passBreak
          let (text, c) ← scanQuotedFrom single rounds c { left := true }
          return (b.folded ++ text, c)
        else if ¬ single ∧ x = '\\' then do
          let (y, c) ← scanEscape c
          let (text, c) ← scanQuotedFrom single rounds c {}
          return (b.folded ++ y :: text, c)
        else do
          let (text, c) ← scanQuotedFrom single rounds (c.advance 1) {}
          return (b.folded ++ x :: text, c)

/-- The quoted scalar at the cursor, which stands on its opening quote. -/
def scanQuoted (single : Bool) (c : Cursor) : Option (List Char × Cursor) :=
  scanQuotedFrom single c.rest (c.advance 1) {}

/-! ## Plain scalars -/

/-- A bracket or comma of a flow collection. -/
def isFlowIndicator (c : Char) : Bool :=
  c == ',' || c == '[' || c == ']' || c == '\x7b' || c == '\x7d'

/-- A colon inside a flow collection that can be neither in a plain scalar nor behind it. -/
def colonIsLost (flow : Bool) (c : Cursor) : Bool :=
  flow && c.seesChar ':' 0 && c.sees (fun x => isFlowIndicator x || x == '?') 1

/-- A plain scalar ends before the character at the cursor. -/
def plainEnds (flow : Bool) (c : Cursor) : Bool :=
  (c.seesChar ':' 0 && c.gapAt 1) || (flow && c.sees isFlowIndicator 0)

/-- The text of a plain scalar, with the place where its last line is left. `b` holds the breaks
since the last character. -/
def scanPlainFrom (flow : Bool) (indent : Nat) :
    List Char → Cursor → Breaks → Option (List Char × Cursor × Bool)
  | [], c, b => some ([], c, b.left)
  | _ :: rounds, c, b =>
    match c.rest with
    | [] => some ([], c, b.left)
    | x :: _ =>
      if isBlank x ∨ isBreak x then do
        let (b, c) ← scanBreaks indent c.rest c b
        if ¬ flow ∧ c.column < indent then return ([], c, b.left)
        else if c.seesDocumentMarker ∨ c.seesChar '#' 0 then return ([], c, b.left)
        else scanPlainFrom flow indent rounds c b
      else if colonIsLost flow c then none
      else if plainEnds flow c then some ([], c, b.left)
      else do
        let (text, c, left) ← scanPlainFrom flow indent rounds (c.advance 1) {}
        return (b.folded ++ x :: text, c, left)

/-- The plain scalar at the cursor, whether a line was left behind its end, and the place there. -/
def scanPlain (flow : Bool) (indent : Nat) (c : Cursor) : Option (List Char × Cursor × Bool) :=
  scanPlainFrom flow indent (' ' :: c.rest) c {}

/-! ## Block scalars -/

/-- What becomes of the line breaks at the end of a block. -/
inductive Chomping where
  | strip
  | clip
  | keep
deriving DecidableEq, Repr

/-- A sign that tells the chomping. -/
def chomping? (c : Char) : Option Chomping :=
  if c = '+' then some .keep else if c = '-' then some .strip else none

/-- The increment that a digit tells; zero is none. -/
def increment? (c : Char) : Option Nat :=
  if c.isDigit ∧ c ≠ '0' then some (c.toNat - '0'.toNat) else none

/-- The chomping and the increment behind the indicator of a block, in either order. -/
def blockHeader (c : Cursor) : Option (Chomping × Option Nat × Cursor) :=
  match c.ahead 0 with
  | none => some (.clip, none, c)
  | some x =>
    match chomping? x with
    | some chomp =>
      match c.ahead 1 with
      | some y =>
        if y.isDigit then (increment? y).map fun n => (chomp, some n, c.advance 2)
        else some (chomp, none, c.advance 1)
      | none => some (chomp, none, c.advance 1)
    | none =>
      if x.isDigit then
        (increment? x).map fun n =>
          match (c.ahead 1).bind chomping? with
          | some chomp => (chomp, some n, c.advance 2)
          | none => (.clip, some n, c.advance 1)
      else some (.clip, none, c)

/-- The empty lines at the cursor: their breaks, the indentation, and the place behind them. The
indentation is found from the lines if `indent` is zero; `widest` is the widest line so far. -/
def blockBreaks (indent least : Nat) :
    List Char → Nat → Cursor → Option (List Char × Nat × Cursor)
  | [], _, _ => none
  | _ :: rounds, widest, c =>
    let spaces := (c.rest.takeWhile (· == ' ')).length
    let c := c.advance (if indent = 0 then spaces else min spaces (indent - c.column))
    let widest := max widest c.column
    if (indent = 0 ∨ c.column < indent) ∧ c.seesChar '\t' 0 then none
    else if c.sees isBreak 0 then do
      let (cs, c) := c.passBreak
      let (breaks, found, c) ← blockBreaks indent least rounds widest c
      return (cs ++ breaks, found, c)
    else some ([], if indent = 0 then max widest least else indent, c)

/-- The lines of a block from the cursor on, with the breaks before it: `leading` after the last
line, `trailing` after that. `blank` tells whether the last line starts with a blank. -/
def blockLines (literal : Bool) (chomp : Chomping) (indent : Nat) :
    List Char → Cursor → (leading trailing : List Char) → (blank : Bool) →
    Option (List Char × Cursor)
  | [], _, _, _, _ => none
  | _ :: rounds, c, leading, trailing, blank =>
    if c.column = indent ∧ ¬ c.atEnd then do
      let startsBlank := c.sees isBlank 0
      let joint :=
        if ¬ literal ∧ leading = ['\n'] ∧ ¬ blank ∧ ¬ startsBlank then
          if trailing.isEmpty then [' '] else trailing
        else leading ++ trailing
      let line := c.rest.takeWhile fun x => ! isBreak x
      let (leading, c) := (c.advance line.length).passBreak
      let (trailing, _, c) ← blockBreaks indent indent (' ' :: c.rest) 0 c
      let (text, c) ← blockLines literal chomp indent rounds c leading trailing startsBlank
      return (joint ++ line ++ text, c)
    else
      let kept :=
        match chomp with
        | .strip => []
        | .clip => leading
        | .keep => leading ++ trailing
      some (kept, c)

/-- The block at the cursor, which stands on its indicator; `parent` is the indentation around it,
if there is one. -/
def scanBlock (literal : Bool) (parent : Option Nat) (c : Cursor) :
    Option (List Char × Cursor) := do
  let (chomp, increment, c) ← blockHeader (c.advance 1)
  let c := c.skipWhile isBlank
  let c := if c.seesChar '#' 0 then c.skipWhile fun x => ! isBreak x else c
  if ¬ c.endsOr isBreak 0 then none
  else
    let (_, c) := c.passBreak
    let indent :=
      match increment with
      | none => 0
      | some n => parent.getD 0 + n
    let least := max (match parent with | none => 0 | some p => p + 1) 1
    let (trailing, indent, c) ← blockBreaks indent least (' ' :: c.rest) 0 c
    blockLines literal chomp indent (' ' :: c.rest) c [] trailing false

end CheckedFlow.Yaml
