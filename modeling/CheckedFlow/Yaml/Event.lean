import CheckedFlow.Yaml.Token

/-!
# The events of a YAML document

Events are the nodes of a document in the order in which they stand: scalars, aliases, and the starts
and ends of collections. Tags are spelled out. What is left out in a text, as the value of a key, is
an empty plain scalar.

An anchor gets the number of names that anchors had before it. When a name is used again, a later
anchor can get a number that was given before; every alias with the number then stands for the last
node that got it, also where the alias comes first.

* `Document.ofText`: the events of the first document of a text. When the text is malformed, the
  events before the malformed place are kept, because a fault in what they say comes first.
-/

namespace CheckedFlow.Yaml

/-- A node of a document, or an end of one. -/
inductive Event where
  | scalar (text : String) (style : Style) (tag : Option Tag)
  | sequenceStart (tag : Option Tag)
  | sequenceEnd
  | mappingStart (tag : Option Tag)
  | mappingEnd
  /-- A node that stands elsewhere; for a collection its start. -/
  | reference (target : Event)
deriving DecidableEq, Repr

/-- An event in which an alias has the number of its anchor. -/
inductive NumberedEvent where
  | plain (event : Event)
  | numbered (anchor : Nat)

/-- How far the events of a text are found. -/
structure Parsing where
  tokens : List Token
  events : Array NumberedEvent := #[]
  /-- The number of the last anchor with a name; every name stands once. -/
  anchors : List (String × Nat) := []
  /-- The nodes behind the numbers of anchors, the last one first. -/
  targets : List (Nat × Event) := []
  /-- What the handles of tags mean. -/
  handles : List (String × Tag) := []

/-- A step that finds events, or finds the text malformed. -/
abbrev Parser := ExceptT Unit (StateM Parsing)

namespace Parser

/-- The text is malformed. -/
def malformed {α : Type} : Parser α := throw ()

/-- The next token. -/
def peek : Parser Token := do
  match (← get).tokens with
  | t :: _ => return t
  | [] => malformed

/-- Passes over a token. -/
def skip : Parser Unit := modify fun s => { s with tokens := s.tokens.drop 1 }

/-- Adds an event. -/
def emit (e : Event) : Parser Unit := modify fun s => { s with events := s.events.push (.plain e) }

/-- Gives a number to an anchor of the node `e`. -/
def numberAnchor (name : String) (e : Event) : Parser Unit :=
  modify fun s =>
    let n := s.anchors.length
    { s with
      anchors := (name, n) :: s.anchors.filter (·.1 ≠ name)
      targets := (n, e) :: s.targets }

/-- Adds the event of a node that may have an anchor. -/
def emitNode (anchor : Option String) (e : Event) : Parser Unit := do
  if let some name := anchor then numberAnchor name e
  emit e

/-- A node that is left out. -/
def emptyNode : Parser Unit := emit (.scalar "" .plain none)

/-- Adds an alias of the anchor `name`. -/
def emitReference (name : String) : Parser Unit := do
  match (← get).anchors.lookup name with
  | some n => modify fun s => { s with events := s.events.push (.numbered n) }
  | none => malformed

/-- The tag with a handle and a suffix. -/
def resolveTag (handle : String) (suffix : Tag) : Parser Tag := do
  if handle.isEmpty then return suffix
  match (← get).handles.lookup handle with
  | some meaning => return meaning.append suffix
  | none => malformed

/-- The anchor and the tag in front of a node, in either order. -/
def properties : Parser (Option String × Option Tag) := do
  match ← peek with
  | .anchor name =>
    skip
    match ← peek with
    | .tag handle suffix => skip; return (some name, some (← resolveTag handle suffix))
    | _ => return (some name, none)
  | .tag handle suffix =>
    skip
    match ← peek with
    | .anchor name => skip; return (some name, some (← resolveTag handle suffix))
    | _ => return (none, some (← resolveTag handle suffix))
  | _ => return (none, none)

mutual

/-- A node. Block collections are nodes only where `block` holds; a sequence without an indentation
of its own only where `indentless` holds. The first argument bounds the number of rounds. -/
def node : (rounds : Nat) → (block indentless : Bool) → Parser Unit
  | 0, _, _ => malformed
  | rounds + 1, block, indentless => do
    if let .reference name ← peek then
      skip
      emitReference name
      return
    let (anchor, tag) ← properties
    match ← peek with
    | .blockEntry =>
      if indentless then
        emitNode anchor (.sequenceStart tag)
        indentlessItems rounds
      else absent anchor tag
    | .scalar text style =>
      skip
      emitNode anchor (.scalar text style tag)
    | .flowSequenceStart =>
      skip
      emitNode anchor (.sequenceStart tag)
      flowItems rounds true
    | .flowMappingStart =>
      skip
      emitNode anchor (.mappingStart tag)
      flowFields rounds true
    | .blockSequenceStart =>
      if block then
        skip
        emitNode anchor (.sequenceStart tag)
        blockItems rounds
      else absent anchor tag
    | .blockMappingStart =>
      if block then
        skip
        emitNode anchor (.mappingStart tag)
        blockFields rounds
      else absent anchor tag
    | _ => absent anchor tag

/-- A node of which only the properties stand; without any there is no node. -/
def absent (anchor : Option String) (tag : Option Tag) : Parser Unit := do
  if anchor.isNone ∧ tag.isNone then malformed
  emitNode anchor (.scalar "" .plain tag)

/-- The items of a block sequence and its end. -/
def blockItems : (rounds : Nat) → Parser Unit
  | 0 => malformed
  | rounds + 1 => do
    match ← peek with
    | .blockEntry =>
      skip
      match ← peek with
      | .blockEntry | .blockEnd => emptyNode
      | _ => node rounds true false
      blockItems rounds
    | .blockEnd => skip; emit .sequenceEnd
    | _ => malformed

/-- The items of a sequence that stands as deep as the mapping around it, and its end. -/
def indentlessItems : (rounds : Nat) → Parser Unit
  | 0 => malformed
  | rounds + 1 => do
    match ← peek with
    | .blockEntry =>
      skip
      match ← peek with
      | .blockEntry | .key | .value | .blockEnd => emptyNode
      | _ => node rounds true false
      indentlessItems rounds
    | _ => emit .sequenceEnd

/-- The fields of a block mapping and its end. -/
def blockFields : (rounds : Nat) → Parser Unit
  | 0 => malformed
  | rounds + 1 => do
    match ← peek with
    | .key =>
      skip
      match ← peek with
      | .key | .value | .blockEnd => emptyNode
      | _ => node rounds true true
      match ← peek with
      | .value =>
        skip
        match ← peek with
        | .key | .value | .blockEnd => emptyNode
        | _ => node rounds true true
      | _ => emptyNode
      blockFields rounds
    | .blockEnd => skip; emit .mappingEnd
    | _ => malformed

/-- The items of a flow sequence and its end; a field among them is a mapping of its own. -/
def flowItems : (rounds : Nat) → (first : Bool) → Parser Unit
  | 0, _ => malformed
  | rounds + 1, first => do
    let finish : Parser Unit := do skip; emit .sequenceEnd
    if (← peek) = .flowSequenceEnd then finish
    else
      if ¬ first then
        if (← peek) ≠ .flowEntry then malformed
        skip
      match ← peek with
      | .flowSequenceEnd => finish
      | .key =>
        emit (.mappingStart none)
        skip
        match ← peek with
        | .value | .flowEntry | .flowSequenceEnd => skip; emptyNode
        | _ => node rounds false false
        match ← peek with
        | .value =>
          skip
          match ← peek with
          | .flowEntry | .flowSequenceEnd => emptyNode
          | _ => node rounds false false
        | _ => emptyNode
        emit .mappingEnd
        flowItems rounds false
      | _ =>
        node rounds false false
        flowItems rounds false

/-- The fields of a flow mapping and its end. -/
def flowFields : (rounds : Nat) → (first : Bool) → Parser Unit
  | 0, _ => malformed
  | rounds + 1, first => do
    let finish : Parser Unit := do skip; emit .mappingEnd
    if (← peek) = .flowMappingEnd then finish
    else
      if ¬ first then
        if (← peek) ≠ .flowEntry then malformed
        skip
      match ← peek with
      | .flowMappingEnd => finish
      | .key =>
        skip
        match ← peek with
        | .value | .flowEntry | .flowMappingEnd => emptyNode
        | _ => node rounds false false
        match ← peek with
        | .value =>
          skip
          match ← peek with
          | .flowEntry | .flowMappingEnd => emptyNode
          | _ => node rounds false false
        | _ => emptyNode
        flowFields rounds false
      | _ =>
        node rounds false false
        emptyNode
        flowFields rounds false

end

/-- What handles mean that no directive names. -/
def standardHandles : List (String × Tag) := [("!", Tag.bare), ("!!", Tag.standardStart)]

/-- The directives in front of a document. A handle is given a meaning once, and a version once. -/
def directives : (rounds : Nat) → (versioned : Bool) → Parser Unit
  | 0, _ => malformed
  | rounds + 1, versioned => do
    match ← peek with
    | .versionDirective major minor =>
      if versioned ∨ major ≠ 1 ∨ (minor ≠ 1 ∧ minor ≠ 2) then malformed
      skip
      directives rounds true
    | .tagDirective handle meaning =>
      let s ← get
      if (s.handles.lookup handle).isSome then malformed
      set { s with handles := s.handles ++ [(handle, meaning)] }
      skip
      directives rounds versioned
    | _ => modify fun s => { s with handles := s.handles ++ standardHandles }

/-- The first document, if there is one. -/
def document (rounds : Nat) : Parser Unit := do
  match ← peek with
  | .streamEnd => return
  | .versionDirective .. | .tagDirective .. | .documentStart =>
    directives rounds false
    if (← peek) ≠ .documentStart then malformed
    skip
    match ← peek with
    | .versionDirective .. | .tagDirective .. | .documentStart | .documentEnd | .streamEnd =>
      emptyNode
    | _ => node rounds true false
  | _ =>
    directives rounds false
    node rounds true false
  let _ ← peek

end Parser

/-- The events of a text's first document. -/
structure Document where
  events : List Event
  /-- The text is malformed before the end of the document. -/
  broken : Bool
  /-- Nothing follows the document. -/
  alone : Bool

namespace Document

/-- The events found, with the nodes behind the numbers of aliases. -/
def eventsOf (s : Parsing) : List Event :=
  s.events.toList.filterMap fun e =>
    match e with
    | .plain e => some e
    | .numbered n => (s.targets.lookup n).map .reference

/-- The events of the first document of a text. -/
def ofText (text : String) : Document :=
  let t := Tokens.ofText text
  match (Parser.document (2 * t.tokens.length + 8)).run { tokens := t.tokens } with
  | (.ok (), s) =>
    let rest := s.tokens.dropWhile (· == .documentEnd)
    ⟨eventsOf s, false, rest == [.streamEnd]⟩
  | (.error (), s) => ⟨eventsOf s, true, false⟩

end Document

end CheckedFlow.Yaml
