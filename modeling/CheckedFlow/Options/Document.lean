import CheckedFlow.Options.Basic
import CheckedFlow.Text.Entries
import CheckedFlow.Yaml.Resolve

/-!
# Options from documents

Options are read from a YAML mapping. What the mapping lacks has its default, fields of other names
are passed over, and no field may stand twice. The options read are validated.

* `PipelineOptions.ofYaml`: the options of a document.
* `PipelineOptions.ofFile`: the options of a file.
-/

namespace CheckedFlow

open Decoding Yaml

namespace Yaml

/-- The events behind the node that starts with the first event. `depth` counts open collections. -/
def dropNode : (depth : Nat) → List Event → List Event
  | _, [] => []
  | depth, e :: events =>
    match e with
    | .sequenceStart _ | .mappingStart _ => dropNode (depth + 1) events
    | .sequenceEnd | .mappingEnd => if depth ≤ 1 then events else dropNode (depth - 1) events
    | _ => if depth = 0 then events else dropNode depth events

/-- The text of the first event. -/
def textOf (e : Event) : Except Fault String :=
  match e.text? with
  | some s => .ok s
  | none => .error (e.mismatch "a string")

/-- A natural number below `bound`. -/
def numberOf (bound : Nat) (wanted : String) (e : Event) : Except Fault Nat :=
  match e.natural? with
  | none => .error (e.mismatch wanted)
  | some n => if n < bound then .ok n else .error (.wrongValue (.integer n) wanted)

/-- The run mode with a name. -/
def modeNamed (name : String) : Except Fault RunMode :=
  match RunMode.named? name with
  | some mode => .ok mode
  | none => .error (.unknownAlternative name RunMode.names)

/-- The result, with a fault that tells the field. A fault tells one field only. -/
def inField {α : Type} (field : String) (result : Except Fault α) : Except Fault α :=
  result.mapError fun fault =>
    match fault with
    | .inField .. => fault
    | _ => .inField field fault

/-- Nothing, behind the tag that names an alternative. -/
def nothingOf (e : Event) : Except Fault Unit :=
  match e.target with
  | .scalar s style _ =>
    if style = .plain ∧ (s.isEmpty ∨ isNull s) then .ok ()
    else .error (.wrongValue (.text s) "null")
  | _ => .error (e.mismatch "unit")

/-- A run mode that is no alias: a scalar with its name, or a tag with its name. A fault in it tells
the field, but the fault of a tag that names no mode does not. -/
def nodeModeOf (field : String) (e : Event) : Except Fault RunMode := do
  let tagged (tag : Option Tag) (otherwise : Except Fault RunMode) : Except Fault RunMode :=
    match tag.bind Tag.localName? with
    | some name => do
      let mode ← modeNamed name
      inField field (nothingOf e)
      return mode
    | none => inField field otherwise
  match e with
  | .scalar s _ tag => tagged tag (modeNamed s)
  | .sequenceStart tag | .mappingStart tag =>
    tagged tag (.error (e.mismatch "a YAML tag starting with '!'"))
  | _ => .error .malformed

/-- A run mode. Any fault behind an alias tells the field. -/
def modeOf (field : String) (e : Event) : Except Fault RunMode :=
  match e with
  | .reference target => inField field (nodeModeOf field target)
  | _ => nodeModeOf field e

end Yaml

namespace PipelineOptions

/-- The fields of options that were read, by their names. -/
structure Fields where
  jobName : Option String := none
  runMode : Option RunMode := none
  parallelism : Option UInt64 := none
  triggerFirings : Option UInt32 := none

namespace Fields

/-- The options with the fields that were read, and with defaults for the others. -/
def options (f : Fields) : PipelineOptions :=
  let d : PipelineOptions := {}
  ⟨f.jobName.getD d.jobName, f.runMode.getD d.runMode, f.parallelism.getD d.parallelism,
    f.triggerFirings.getD d.triggerFirings⟩

/-- The value of the field `name` that was not read before. -/
def once {α : Type} (name : String) (old : Option α) (events : List Event)
    (read : Event → Except Fault α) : Except Fault (Option α) :=
  if old.isSome then .error (.repeatedField name)
  else
    match events with
    | [] => .error .malformed
    | e :: _ => some <$> read e

/-- The name of a field as faults tell it. A key that is an alias is not told. -/
def told : Event → String
  | .scalar s .. => s
  | _ => "?"

/-- The fields after the one with the key `key`, the value of which stands at the front of
`events`. -/
def add (f : Fields) (key : Event) (name : String) (events : List Event) :
    Except Fault Fields := do
  let field := told key
  let word (e : Event) : Except Fault UInt64 :=
    inField field (UInt64.ofNat <$> numberOf UInt64.size "usize" e)
  let half (e : Event) : Except Fault UInt32 :=
    inField field (UInt32.ofNat <$> numberOf UInt32.size "u32" e)
  match name with
  | "job_name" =>
    return { f with jobName := ← once name f.jobName events (inField field ∘ textOf) }
  | "run_mode" => return { f with runMode := ← once name f.runMode events (modeOf field) }
  | "parallelism" => return { f with parallelism := ← once name f.parallelism events word }
  | "trigger_firings" => return { f with triggerFirings := ← once name f.triggerFirings events half }
  | _ => if events.isEmpty then throw .malformed else return f

/-- The fields of a mapping up to its end, which is the last event of a document. The first argument
bounds the number of rounds. -/
def ofEvents : List Event → List Event → Fields → Except Fault Fields
  | _ :: rounds, e :: events, f =>
    match e with
    | .mappingEnd => .ok f
    | _ =>
      match e.text? with
      | none => .error (e.mismatch "field identifier")
      | some name => do
        let f ← f.add e name events
        ofEvents rounds (dropNode 0 events) f
  | _, _, _ => .error .malformed

end Fields

/-- The options that a document holds. A document of nothing at all holds the defaults. -/
def ofDocument (d : Document) : Except Fault PipelineOptions := do
  let wanted := "struct PipelineOptions"
  let o ←
    match d.events with
    | [] => if d.broken then throw .malformed else pure {}
    | e :: events =>
      match e with
      | .mappingStart _ => Fields.options <$> Fields.ofEvents d.events events {}
      | .scalar "" .plain _ => pure {}
      | _ => throw (e.mismatch wanted)
  if d.broken ∨ ¬ d.alone then throw .malformed else return o

/-- The options of a YAML text. -/
def ofYaml (text : String) : Except ConfigurationFault PipelineOptions :=
  match ofDocument (.ofText text) with
  | .error fault => .error (.document fault)
  | .ok o => o.validated

/-- What stands at the path of a file, or why it cannot be told. -/
inductive FileContents where
  | unread (fault : FileFault)
  | bytes (bytes : Bytes)

/-- The options of the file at `path`. -/
def ofFile (path : String) (contents : FileContents) :
    Except ConfigurationFault PipelineOptions :=
  match contents with
  | .unread fault => .error (.file path fault)
  | .bytes bytes =>
    match Bytes.toText? bytes with
    | none => .error (.file path .notText)
    | some text => ofYaml text

end PipelineOptions

end CheckedFlow
