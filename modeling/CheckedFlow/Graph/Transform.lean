import CheckedFlow.Codec.Keyed
import CheckedFlow.Graph.Source

/-!
# Transforming datasets

Builder calls that register a stage behind a dataset.

* `Dataset.windowInto`: the same elements in other windows.
* `Dataset.parDo`: a function on every element, which may read the declared views. The codec of what
  it emits is unknown.
* `Dataset.map`, `Dataset.filter`: one element for each, in JSON, and some of the elements.
* `Dataset.view` and its common cases: a view of the dataset.
-/

namespace CheckedFlow

namespace Dataset

variable {k l : Kind}

/-- Every element in the window that `f` gives its timestamp. -/
def windowInto (d : Dataset k) (name : String) (f : WindowFn) : Builder (Dataset k) := do
  if let some size := f.invalidSize? then
    throw (.construction name (.windowSize size))
  let node ← Builder.register ⟨name, .windowInto k d.node f⟩
  return ⟨d.pipeline, node, name, d.codec⟩

/-- `doFn` on every element; it may read the views in `sideInputs`. -/
def parDo (d : Dataset k) (l : Kind) (name : String) (doFn : DoFn k.Value l.Value)
    (sideInputs : List SideInput) : Builder (Dataset l) := do
  let node ← Builder.register ⟨name, .parDo k l d.node sideInputs doFn⟩
  return ⟨d.pipeline, node, name, none⟩

/-- `f` of every element. -/
def map (d : Dataset k) (l : Kind) (name : String) (f : k.Value → l.Value) :
    Builder (Dataset l) := do
  return (← d.parDo l name (DoFn.map f) []).withCodec (.json l)

/-- The elements that `p` accepts. -/
def filter (d : Dataset k) (name : String) (p : k.Value → Bool) : Builder (Dataset k) := do
  let filtered ← d.parDo k name (DoFn.filter p) []
  return { filtered with codec := d.codec }

/-- A view of the dataset by a view function. -/
def view (d : Dataset k) (l : Kind) (name : String) (f : ViewFn k.Value l.Value) :
    Builder (View l) := do
  let node ← Builder.register ⟨name, .view k l d.node f⟩
  return ⟨d.pipeline, node, name, f.shape⟩

/-- The only element of each window. -/
def asSingleton (d : Dataset k) (name : String) : Builder (View k) := d.view k name .singleton

/-- All elements of each window. -/
def asIterable (d : Dataset k) (name : String) : Builder (View (.list k)) :=
  d.view (.list k) name .iterable

/-- What each key maps to. -/
def asDictionary {key : KeyKind} (d : Dataset (.entry key k)) (name : String) :
    Builder (View (.dictionary key k)) :=
  d.view (.dictionary key k) name (.dictionary key.describe)

/-- The values of each key. -/
def asGrouped {key : KeyKind} (d : Dataset (.entry key k)) (name : String) :
    Builder (View (.dictionary key (.list k))) :=
  d.view (.dictionary key (.list k)) name .grouped

end Dataset

end CheckedFlow
