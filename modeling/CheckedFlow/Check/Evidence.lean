import CheckedFlow.Graph.Transform

/-!
# Evidence

Evidence is a part of a graph that is not registered yet and that materializes a value for a check.
It is expanded under a name, which starts the names of all its stages.

* `Evidence.ofDataset`: the elements of a dataset, moved to the global window and deep-copied
  through their codec before a view function sees them. The checker never sees the elements
  themselves, and a copy that fails is a matter of the check.
* `Evidence.ofValues`: given values, encoded when the evidence is expanded.
* `Evidence.ofView`: a view that is there already.
-/

namespace CheckedFlow

/-- Registers stages of a pipeline under a name and returns the view that they lead to. -/
abbrev Evidence (k : Kind) := Pipeline → (under : String) → Builder (View k)

namespace Evidence

variable {k l : Kind}

/-- The codec for the copies of a dataset's elements: the dataset's own, or the fallback. A dataset
of entries has no fallback that fits. -/
def codecOf (d : Dataset k) (fallback : Option (Codec k.Value)) (keyed : Bool) (under : String) :
    Builder (Codec k.Value) :=
  match d.codec <|> fallback with
  | some codec => return codec
  | none => throw (.construction under (.datasetWithoutCodec d.name keyed))

/-- The view `f` of copies of the elements of `d`. -/
def ofDataset (d : Dataset k) (f : ViewFn k.Value l.Value)
    (fallback : Option (Codec k.Value) := none) (keyed : Bool := false) : Evidence l :=
  fun p under => do
    if ! d.pipeline.isSame p then
      throw (.construction under (.foreignDataset d.name))
    let codec ← codecOf d fallback keyed under
    let moved ← d.windowInto (under ++ "/RewindowActuals") .global
    let copies ← moved.parDo (.copy k) (under ++ "/Isolate") (DoFn.map codec.copy) []
    copies.view l (under ++ "/View") (.afterCopying f)

/-- The view `f` of given values. A singleton needs exactly one value. -/
def ofValues (values : List k.Value) (codec : Option (Codec k.Value))
    (f : ViewFn k.Value l.Value) : Evidence l :=
  fun p under => do
    if f.shape = .singleton ∧ values.length ≠ 1 then
      throw (.construction under (.notOneExpected values.length))
    match codec with
    | none => throw (.construction under .expectedWithoutCodec)
    | some codec =>
      let created ← p.source k (under ++ "/Values") values codec
      created.view l (under ++ "/View") f

/-- A view that is there already. -/
def ofView (v : View k) : Evidence k :=
  fun p under => do
    if ! v.pipeline.isSame p then
      throw (.construction under (.foreignView v.name))
    return v

end Evidence

end CheckedFlow
