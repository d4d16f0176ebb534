import CheckedFlow.Graph.Stage
import CheckedFlow.Run.Chunk

/-!
# Evaluating a stage

A stage is evaluated from the outputs of the stages before it.

* `elementsOf`, `sideInputsOf`: what a stage reads. An output that is not there or that is of another
  kind is an engine fault.
* `Operation.evaluate`: the effects of a stage, and its output or the reason why it has none. A
  stage whose workers' tasks cannot be listed in memory takes the whole run down.
-/

namespace CheckedFlow

/-- Why a stage has no output. -/
inductive Stop where
  | failed (error : PipelineError)
  /-- The run itself ends by a panic. -/
  | crashed

/-- What evaluating a stage does. -/
structure Evaluated where
  effects : List Effect := []
  result : Except Stop Output

/-- The outputs of the stages evaluated so far, by the numbers of the stages. -/
abbrev Outputs := List Output

namespace Outputs

/-- The output of a node, for the stage `consumer`. -/
def output (outputs : Outputs) (node : NodeId) (consumer : String) :
    Except PipelineError Output :=
  match outputs[node]? with
  | some o => .ok o
  | none => .error (.internal (.notEvaluated consumer node))

/-- The elements of kind `k` of a node, for the stage `consumer`. -/
def elements (outputs : Outputs) (k : Kind) (node : NodeId) (consumer : String) :
    Except PipelineError (List (Windowed k.Value)) := do
  match (← outputs.output node consumer).elements? k with
  | some items => return items
  | none => throw (.internal (.wrongElements consumer node))

/-- The outputs of the declared views, for the stage `consumer`. -/
def sideInputs (outputs : Outputs) (consumer : String) :
    List SideInput → Except PipelineError (List (NodeId × Output))
  | [] => .ok []
  | v :: declared => do
    let o ← outputs.output v.node consumer
    return (v.node, o) :: (← outputs.sideInputs consumer declared)

end Outputs

/-- The decoded elements of a source. -/
def decodeSource {α : Type} (stage : String) (codec : Codec α) :
    List (Bytes × Timestamp) → Except PipelineError (List (Windowed α))
  | [] => .ok []
  | (bytes, t) :: rest =>
    match codec.decode bytes with
    | .error e => .error (.serialization stage e)
    | .ok x => do return .stamped x t :: (← decodeSource stage codec rest)

/-- The most bytes that a list in memory can take. -/
def mostListBytes : Nat := 0x7FFFFFFFFFFFFFFF

/-- Whether the handles of `workers` tasks, of eight bytes each, can be listed in memory. -/
def tasksFit (workers : Nat) : Bool := 8 * workers ≤ mostListBytes

/-- The output of a stage whose elements were processed, or the reason why it has none. -/
def Processed.output {k : Kind} (stage : String) (p : Processed k.Value) : Except Stop Output :=
  match p.ending with
  | .done => .ok (.elements k p.emitted)
  | .failed e => .error (.failed e)
  | .panicked => .error (.failed (.internal (.workerStopped stage)))

/-- The output `r`, without effects. -/
def Evaluated.pure (r : Except PipelineError Output) : Evaluated :=
  match r with
  | .ok o => { result := .ok o }
  | .error e => { result := .error (.failed e) }

/-- Processes the elements of a stage under the options of its pipeline. -/
def evaluateParDo {source target : Kind} (options : PipelineOptions) (stage : String)
    (doFn : DoFn source.Value target.Value) (sideInputs : List (NodeId × Output))
    (items : List (Windowed source.Value)) : Evaluated :=
  let workers := max options.parallelism.toNat 1
  if tasksFit workers then
    let p := processInChunks workers
      (fun x => doFn ⟨stage, x.timestamp, x.window, options, sideInputs⟩ x.value) items
    ⟨p.effects, p.output stage⟩
  else { result := .error .crashed }

/-- Evaluates the operation of the stage `stage`. -/
def Operation.evaluate (options : PipelineOptions) (stage : String) (outputs : Outputs) :
    Operation → Evaluated
  | create k codec encoded =>
    .pure do return .elements k (← decodeSource stage codec encoded)
  | impulse => .pure (.ok (.elements .unit (List.replicate options.firings (.unstamped ()))))
  | windowInto k input f =>
    .pure do
      let items ← outputs.elements k input stage
      return .elements k (items.map fun x => { x with window := f.assign x.timestamp })
  | parDo source _ input declared doFn =>
    let inputs := do
      let items ← outputs.elements source input stage
      return (items, ← outputs.sideInputs stage declared)
    match inputs with
    | .error e => .pure (.error e)
    | .ok (items, sideInputs) => evaluateParDo options stage doFn sideInputs items
  | view source target input f =>
    .pure do
      let items ← outputs.elements source input stage
      return .view target (.materialize stage f items)

end CheckedFlow
