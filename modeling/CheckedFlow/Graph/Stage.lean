import CheckedFlow.Graph.Processing

/-!
# Stages

A stage has a name and an operation. Operations refer to the stages that they read by number.

* `Operation.inputs`: the stages that an operation reads, elements first, then declared views.
-/

namespace CheckedFlow

/-- What a stage does. -/
inductive Operation where
  /-- Decodes elements that were encoded when the stage was built. -/
  | create (kind : Kind) (codec : Codec kind.Value) (encoded : List (Bytes × Timestamp))
  /-- Fires as often as the options say. -/
  | impulse
  /-- Gives every element the window of its timestamp. -/
  | windowInto (kind : Kind) (input : NodeId) (windowFn : WindowFn)
  /-- Processes every element. -/
  | parDo (source target : Kind) (input : NodeId) (sideInputs : List SideInput)
      (doFn : DoFn source.Value target.Value)
  /-- Gathers the elements of every window into one value. -/
  | view (source target : Kind) (input : NodeId) (viewFn : ViewFn source.Value target.Value)

namespace Operation

/-- The stages that the operation reads. -/
def inputs : Operation → List NodeId
  | create .. | impulse => []
  | windowInto _ input _ | view _ _ input _ => [input]
  | parDo _ _ input sideInputs _ => input :: sideInputs.map SideInput.node

end Operation

/-- A named operation of a pipeline. -/
structure Stage where
  name : String
  operation : Operation

end CheckedFlow
