import CheckedFlow.Yaml.Tag

/-!
# The tokens of YAML text

Tokens are the indicators and scalars of a text, together with marks for the starts and ends of block
collections, which are found from indentation. Whether a scalar is a key is known only when the colon
behind it is met; the mark of a key is then put in front of tokens that were found before.

* `Tokens.ofText`: the tokens of a text. When the text is malformed, the tokens that are certain
  before the malformed place are kept.
-/

namespace CheckedFlow.Yaml

/-- A token. -/
inductive Token where
  | streamEnd
  /-- A directive for the version of the format. -/
  | versionDirective (major minor : Nat)
  /-- A directive that gives a handle of tags its meaning. -/
  | tagDirective (handle : String) (meaning : Tag)
  | documentStart
  | documentEnd
  | blockSequenceStart
  | blockMappingStart
  | blockEnd
  | flowSequenceStart
  | flowSequenceEnd
  | flowMappingStart
  | flowMappingEnd
  | blockEntry
  | flowEntry
  | key
  | value
  | reference (name : String)
  | anchor (name : String)
  | tag (handle : String) (suffix : Tag)
  | scalar (text : String) (style : Style)
deriving DecidableEq, Repr

/-- A place where a key may have started. -/
structure KeyStart where
  /-- The number of the token that would be the key. -/
  token : Nat
  /-- Nothing but a key can start here. -/
  required : Bool
  index : Nat
  line : Nat
  column : Nat

/-- How far the tokens of a text are found. -/
structure Lexing where
  cursor : Cursor
  tokens : Array Token := #[]
  /-- The columns of the open block collections, the innermost first. -/
  indents : List Nat := []
  /-- For the block context and every open flow collection, the innermost first, the place where a
  key may have started. -/
  keyStarts : List (Option KeyStart) := [none]
  /-- A key may start at the cursor. -/
  keyAllowed : Bool := true
  /-- The tokens that do not depend on what follows the cursor. -/
  certain : Nat := 0
  /-- The place from which on the text cannot be read, if there is one. -/
  unreadable : Option Nat := none

/-- A step that finds tokens, or finds the text malformed. -/
abbrev Lexer := ExceptT Unit (StateM Lexing)

namespace Lexer

/-- The text is malformed. -/
def malformed {α : Type} : Lexer α := throw ()

/-- The result of a scan, which fails if the scan does. -/
def ofOption {α : Type} : Option α → Lexer α
  | some x => return x
  | none => malformed

/-- The cursor. -/
def cursor : Lexer Cursor := return (← get).cursor

/-- Moves the cursor. -/
def setCursor (c : Cursor) : Lexer Unit := modify fun s => { s with cursor := c }

/-- Moves the cursor over `n` characters. -/
def advance (n : Nat) : Lexer Unit := do setCursor ((← cursor).advance n)

/-- Adds a token. -/
def emit (t : Token) : Lexer Unit := modify fun s => { s with tokens := s.tokens.push t }

/-- Puts a token in front of the token `n`. -/
def insertAt (n : Nat) (t : Token) : Lexer Unit :=
  modify fun s => { s with tokens := s.tokens.insertIdxIfInBounds n t }

/-- Tells whether a key may start at the cursor. -/
def allowKey (allowed : Bool) : Lexer Unit := modify fun s => { s with keyAllowed := allowed }

/-- The cursor is inside a flow collection. -/
def inFlow : Lexer Bool := return (← get).keyStarts.length != 1

/-- The column of the innermost block collection. -/
def indent : Lexer (Option Nat) := return (← get).indents.head?

/-- The column `n` is right of the innermost block collection. -/
def isDeeper (n : Nat) : Lexer Bool :=
  return match (← indent) with
    | none => true
    | some i => i < n

/-! ## Keys -/

/-- Forgets where a key may have started; one that had to be a key is malformed. -/
def dropKeyStart : Lexer Unit := do
  let s ← get
  match s.keyStarts with
  | some k :: outer =>
    if k.required then malformed
    set { s with keyStarts := none :: outer }
  | _ => return ()

/-- Remembers that a key may start at the cursor, if one is allowed. -/
def saveKeyStart : Lexer Unit := do
  let s ← get
  if s.keyAllowed then
    dropKeyStart
    let c := s.cursor
    let required := s.keyStarts.length == 1 && s.indents.head? == some c.column
    let k : KeyStart := ⟨s.tokens.size, required, c.index, c.line, c.column⟩
    modify fun s => { s with keyStarts := some k :: s.keyStarts.drop 1 }

/-- Forgets the places that are on another line, or too far back, to be keys. -/
def dropStaleKeyStarts : Lexer Unit := do
  let s ← get
  let c := s.cursor
  let isStale (k : KeyStart) : Bool := k.line < c.line || k.index + 1024 < c.index
  let stale := s.keyStarts.filterMap (Option.filter isStale)
  if stale.any KeyStart.required then malformed
  set { s with keyStarts := s.keyStarts.map (Option.filter fun k => ! isStale k) }

/-! ## Indentation -/

/-- Opens a block collection at `column`, unless one is open there, with the mark `start` in front
of the token `n`. -/
def openBlock (column n : Nat) (start : Token) : Lexer Unit := do
  if ¬ (← inFlow) ∧ (← isDeeper column) then
    modify fun s => { s with indents := column :: s.indents }
    insertAt n start

/-- Opens a block collection at the cursor. -/
def openBlockHere (start : Token) : Lexer Unit := do
  let s ← get
  openBlock s.cursor.column s.tokens.size start

/-- Closes the block collections in `indents` right of `column`, all of them without one. -/
def closeBlocksFrom (column : Option Nat) : List Nat → Lexer Unit
  | [] => return ()
  | i :: outer => do
    let deeper :=
      match column with
      | none => true
      | some n => n < i
    if deeper then
      emit .blockEnd
      modify fun s => { s with indents := outer }
      closeBlocksFrom column outer

/-- Closes the block collections right of `column`. -/
def closeBlocks (column : Option Nat) : Lexer Unit := do
  if ¬ (← inFlow) then closeBlocksFrom column (← get).indents

/-! ## Blanks -/

/-- Moves the cursor to the next token, over blanks, comments and line breaks. -/
def skipBlanksFrom : List Char → Lexer Unit
  | [] => return ()
  | _ :: rounds => do
    let flow ← inFlow
    let tabs := flow || ! (← get).keyAllowed
    let c ← cursor
    let c := if c.column = 0 ∧ c.sees isOrderMark 0 then c.advance 1 else c
    let c := c.skipWhile fun x => x == ' ' || (tabs && x == '\t')
    let c := if c.seesChar '#' 0 then c.skipWhile fun x => ! isBreak x else c
    if c.sees isBreak 0 then
      setCursor c.passBreak.2
      if ¬ flow then allowKey true
      skipBlanksFrom rounds
    else setCursor c

/-- Moves the cursor to the next token. -/
def skipBlanks : Lexer Unit := do skipBlanksFrom (' ' :: (← cursor).rest)

/-! ## Directives -/

/-- The number at the cursor, of at most nine digits. -/
def directiveNumber : Lexer Nat := do
  let c ← cursor
  let ds := c.rest.takeWhile Char.isDigit
  if ds.isEmpty ∨ 9 < ds.length then malformed
  setCursor (c.advance ds.length)
  return ds.foldl (fun n d => 10 * n + (d.toNat - '0'.toNat)) 0

/-- The tag written at the cursor; an empty one is malformed if some of it is `required`. -/
def tagText (bracketed required : Bool) : Lexer Tag := do
  let c ← cursor
  let cs := c.rest.takeWhile (Tag.isCharacter bracketed)
  if required ∧ cs.isEmpty then malformed
  setCursor (c.advance cs.length)
  ofOption (Tag.ofWritten? cs)

/-- The handle of a tag at the cursor: an exclamation mark, or a word between two of them. -/
def tagHandle (directive : Bool) : Lexer String := do
  let c ← cursor
  if ¬ c.seesChar '!' 0 then malformed
  let word := (c.rest.drop 1).takeWhile isWord
  let c := c.advance (1 + word.length)
  if c.seesChar '!' 0 then
    setCursor (c.advance 1)
    return String.ofList ('!' :: word ++ ['!'])
  else if directive ∧ ¬ word.isEmpty then malformed
  else
    setCursor c
    return String.ofList ('!' :: word)

/-- Moves the cursor over blanks. -/
def skipSpaces : Lexer Unit := do setCursor ((← cursor).skipWhile isBlank)

/-- The directive at the cursor, to the end of its line. -/
def directive : Lexer Unit := do
  advance 1
  let c ← cursor
  let name := c.rest.takeWhile isWord
  setCursor (c.advance name.length)
  if name.isEmpty ∨ ¬ (← cursor).gapAt 0 then malformed
  skipSpaces
  if name = "YAML".toList then
    let major ← directiveNumber
    if ¬ (← cursor).seesChar '.' 0 then malformed
    advance 1
    emit (.versionDirective major (← directiveNumber))
  else if name = "TAG".toList then
    let handle ← tagHandle true
    if ¬ (← cursor).sees isBlank 0 then malformed
    skipSpaces
    let meaning ← tagText true true
    if ¬ (← cursor).gapAt 0 then malformed
    emit (.tagDirective handle meaning)
  else malformed
  skipSpaces
  let c ← cursor
  let c := if c.seesChar '#' 0 then c.skipWhile fun x => ! isBreak x else c
  if ¬ c.endsOr isBreak 0 then malformed
  setCursor (if c.atEnd then c else c.passBreak.2)

/-! ## Tokens -/

/-- A token of `n` characters, before which nothing is a key. -/
def separator (t : Token) (n : Nat) (keyAllowed : Bool) : Lexer Unit := do
  dropKeyStart
  allowKey keyAllowed
  advance n
  emit t

/-- A token that may be a key; `scan` moves the cursor over it. -/
def candidate (scan : Lexer Token) : Lexer Unit := do
  saveKeyStart
  allowKey false
  emit (← scan)

/-- The start of a flow collection. -/
def openFlow (t : Token) : Lexer Unit := do
  saveKeyStart
  modify fun s => { s with keyStarts := none :: s.keyStarts }
  allowKey true
  advance 1
  emit t

/-- The end of a flow collection. -/
def closeFlow (t : Token) : Lexer Unit := do
  dropKeyStart
  if ← inFlow then modify fun s => { s with keyStarts := s.keyStarts.drop 1 }
  allowKey false
  advance 1
  emit t

/-- The mark of an item of a block sequence. -/
def blockEntry : Lexer Unit := do
  if ¬ (← inFlow) then
    if ¬ (← get).keyAllowed then malformed
    openBlockHere .blockSequenceStart
  separator .blockEntry 1 true

/-- The mark of a key. -/
def keyMark : Lexer Unit := do
  let flow ← inFlow
  if ¬ flow then
    if ¬ (← get).keyAllowed then malformed
    openBlockHere .blockMappingStart
  separator .key 1 (! flow)

/-- The mark of a value, which tells where its key started. -/
def valueMark : Lexer Unit := do
  let flow ← inFlow
  match (← get).keyStarts with
  | some k :: outer =>
    insertAt k.token .key
    openBlock k.column k.token .blockMappingStart
    modify fun s => { s with keyStarts := none :: outer }
    allowKey false
  | _ =>
    if ¬ flow then
      if ¬ (← get).keyAllowed then malformed
      openBlockHere .blockMappingStart
    allowKey (! flow)
  advance 1
  emit .value

/-- The name of an anchor or an alias, behind its indicator. -/
def anchorName : Lexer String := do
  let c := (← cursor).advance 1
  let name := c.rest.takeWhile isWord
  let c := c.advance name.length
  if name.isEmpty ∨ ¬ (c.gapAt 0 ∨ c.sees ("?:,]\x7d%@\x60".toList.contains ·) 0) then malformed
  setCursor c
  return String.ofList name

/-- A tag: in angle brackets, with a handle, or a local one. -/
def tag : Lexer Token := do
  let c ← cursor
  let (handle, suffix) ← (do
    if c.seesChar '<' 1 then
      advance 2
      let written ← tagText true true
      if ¬ (← cursor).seesChar '>' 0 then malformed
      advance 1
      return ("", written)
    else
      let handle ← tagHandle false
      if 1 < handle.length ∧ handle.toList.getLast? = some '!' then
        return (handle, ← tagText false true)
      else
        let suffix := (Tag.ofText (String.ofList (handle.toList.drop 1))).append
          (← tagText false false)
        return if suffix.bytes.isEmpty then ("", Tag.bare) else ("!", suffix) :
      Lexer (String × Tag))
  let c ← cursor
  if ¬ c.gapAt 0 ∧ ¬ ((← inFlow) ∧ c.seesChar ',' 0) then malformed
  return .tag handle suffix

/-- A quoted scalar. -/
def quoted (single : Bool) : Lexer Token := do
  let (text, c) ← ofOption (scanQuoted single (← cursor))
  setCursor c
  return .scalar (String.ofList text) .quoted

/-- A plain scalar. -/
def plain : Lexer Unit := do
  saveKeyStart
  allowKey false
  let least := match (← indent) with | none => 0 | some i => i + 1
  let (text, c, left) ← ofOption (scanPlain (← inFlow) least (← cursor))
  setCursor c
  if left then allowKey true
  emit (.scalar (String.ofList text) .plain)

/-- A block scalar. -/
def block (literal : Bool) : Lexer Unit := do
  dropKeyStart
  allowKey true
  let (text, c) ← ofOption (scanBlock literal (← indent) (← cursor))
  setCursor c
  emit (.scalar (String.ofList text) (if literal then .literal else .folded))

/-- The end of the text. -/
def streamEnd : Lexer Unit := do
  closeBlocks none
  dropKeyStart
  allowKey false
  emit .streamEnd

/-- A plain scalar can start at the cursor. -/
def startsPlain (flow : Bool) (c : Cursor) : Bool :=
  let indicators := "-?:,[]\x7b\x7d#&*!|>'\"%@\x60".toList
  (! c.gapAt 0 && ! c.sees (indicators.contains ·) 0) ||
    (c.seesChar '-' 0 && ! c.sees isBlank 1) ||
    (! flow && (c.seesChar '?' 0 || c.seesChar ':' 0) && ! c.gapAt 1)

/-- Counts the tokens in front of the first place where a key may have started. -/
def markCertain : Lexer Unit :=
  modify fun s =>
    let starts := s.keyStarts.filterMap fun k => k.map KeyStart.token
    { s with certain := starts.foldl min s.tokens.size }

/-- The next `n` characters can be read. -/
def requireReadable (n : Nat) : Lexer Unit := do
  let s ← get
  if s.unreadable.any (· < s.cursor.index + n) then malformed

/-- Finds the token at the cursor. -/
def tokenHere : Lexer Unit := do
  let c ← cursor
  closeBlocks (some c.column)
  let flow ← inFlow
  match c.ahead 0 with
  | none => streamEnd
  | some x =>
    if c.column = 0 ∧ x = '%' then
      closeBlocks none
      dropKeyStart
      allowKey false
      directive
    else if c.seesMarker '-' then
      closeBlocks none
      separator .documentStart 3 false
    else if c.seesMarker '.' then
      closeBlocks none
      separator .documentEnd 3 false
    else if x = '[' then openFlow .flowSequenceStart
    else if x = '\x7b' then openFlow .flowMappingStart
    else if x = ']' then closeFlow .flowSequenceEnd
    else if x = '\x7d' then closeFlow .flowMappingEnd
    else if x = ',' then separator .flowEntry 1 true
    else if x = '-' ∧ c.gapAt 1 then blockEntry
    else if x = '?' ∧ (flow ∨ c.gapAt 1) then keyMark
    else if x = ':' ∧ (flow ∨ c.gapAt 1) then valueMark
    else if x = '*' then candidate do return .reference (← anchorName)
    else if x = '&' then candidate do return .anchor (← anchorName)
    else if x = '!' then candidate tag
    else if x = '|' ∧ ¬ flow then block true
    else if x = '>' ∧ ¬ flow then block false
    else if x = '\'' then candidate (quoted true)
    else if x = '"' then candidate (quoted false)
    else if startsPlain flow c then plain
    else malformed

/-- Finds the next token. A token is told from the four characters that it starts with, and its end
from one more character. -/
def next : Lexer Unit := do
  dropStaleKeyStarts
  markCertain
  skipBlanks
  dropStaleKeyStarts
  requireReadable 4
  tokenHere
  requireReadable 1

/-- Finds all tokens; there are no more of them than rounds. -/
def all : List Char → Lexer Unit
  | [] => next
  | _ :: rounds => do
    next
    if (← get).tokens.back? ≠ some .streamEnd then all rounds

end Lexer

/-- The tokens of a text. -/
structure Tokens where
  tokens : List Token
  /-- The text is malformed behind these tokens. -/
  broken : Bool

namespace Tokens

/-- The tokens of a text. -/
def ofText (text : String) : Tokens :=
  let cs := text.toList
  let start : Lexing := { cursor := { rest := cs }, unreadable := unreadableFrom 0 0 cs }
  match (Lexer.all (' ' :: ' ' :: cs)).run start with
  | (.ok (), s) => ⟨s.tokens.toList, false⟩
  | (.error (), s) => ⟨s.tokens.toList.take s.certain, true⟩

end Tokens

end CheckedFlow.Yaml
