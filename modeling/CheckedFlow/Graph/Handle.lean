import CheckedFlow.Codec.Basic
import CheckedFlow.View.Basic

/-!
# Handles

A pipeline is built through handles: the pipeline itself, the datasets that its stages produce and
the views that gather them. A handle names its stage by the number that the stage got when it was
registered; it does not keep the stage.
-/

namespace CheckedFlow

/-- The number of a stage in its pipeline, in order of registration. -/
abbrev NodeId := Nat

/-- A pipeline: its identity among all pipelines, and the options that its stages share. -/
structure Pipeline where
  id : Nat
  options : PipelineOptions

namespace Pipeline

/-- A new pipeline, if its options can be run. -/
def create (id : Nat) (options : PipelineOptions) : Except PipelineError Pipeline :=
  match options.validate with
  | .ok () => .ok ⟨id, options⟩
  | .error fault => .error (.configuration fault)

/-- Both handles are handles of the same pipeline. -/
def isSame (p q : Pipeline) : Bool := p.id == q.id

end Pipeline

/-- The elements that a stage produces. -/
structure Dataset (k : Kind) where
  pipeline : Pipeline
  node : NodeId
  /-- The name of the stage. -/
  name : String
  /-- The codec of the elements, if one is known. -/
  codec : Option (Codec k.Value)

namespace Dataset

/-- The same dataset with another codec. -/
def withCodec {k : Kind} (d : Dataset k) (c : Codec k.Value) : Dataset k :=
  { d with codec := some c }

/-- The text of a dataset in messages. -/
def describe {k : Kind} (d : Dataset k) : String :=
  let format := (d.codec.map Codec.format).getD "unset"
  Text.record "Dataset"
    [("name", Text.quoted d.name), ("node", Text.decimal d.node), ("serde", Text.quoted format)]

end Dataset

/-- A view as a stage declares it, to be allowed to read it. -/
structure SideInput where
  node : NodeId
  name : String
deriving DecidableEq, Repr

/-- A view that a stage materializes, with values of the kind `k`. -/
structure View (k : Kind) where
  pipeline : Pipeline
  node : NodeId
  name : String
  shape : ViewShape

namespace View

/-- The declaration that allows a stage to read the view. -/
def sideInput {k : Kind} (v : View k) : SideInput := ⟨v.node, v.name⟩

/-- The text of a view in messages. -/
def describe {k : Kind} (v : View k) : String :=
  Text.record "View" [("name", Text.quoted v.name), ("shape", v.shape.describe)]

end View

end CheckedFlow
