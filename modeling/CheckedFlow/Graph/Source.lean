import CheckedFlow.Graph.Build

/-!
# Sources

* `Pipeline.source`: a dataset of given values. They are encoded when the stage is built and decoded
  when it runs, so the dataset never shares them with the caller; a value without an encoding is
  refused before a stage is registered.
* `Pipeline.impulse`: a dataset of units, one for each firing.
-/

namespace CheckedFlow

namespace Pipeline

/-- The encodings of a source's elements; the first element without one is refused. `index` is the
place of the first of them. -/
def encodeSource {α : Type} (name : String) (codec : Codec α) (index : Nat) :
    List (α × Timestamp) → Except PipelineError (List (Bytes × Timestamp))
  | [] => .ok []
  | (x, t) :: rest =>
    match codec.encode x with
    | .error e => .error (.construction name (.unencodable index codec.format e))
    | .ok bytes => do return (bytes, t) :: (← encodeSource name codec (index + 1) rest)

/-- A dataset of values with timestamps, in the global window. -/
def sourceAt (p : Pipeline) (k : Kind) (name : String) (items : List (k.Value × Timestamp))
    (codec : Codec k.Value) : Builder (Dataset k) := do
  let encoded ← Builder.ofExcept (encodeSource name codec 0 items)
  let node ← Builder.register ⟨name, .create k codec encoded⟩
  return ⟨p, node, name, some codec⟩

/-- A dataset of values without timestamps of their own. -/
def source (p : Pipeline) (k : Kind) (name : String) (items : List k.Value)
    (codec : Codec k.Value) : Builder (Dataset k) :=
  p.sourceAt k name (items.map fun x => (x, Timestamp.least)) codec

/-- A dataset of units, one for each firing of a trigger. -/
def impulse (p : Pipeline) (name : String) : Builder (Dataset .unit) := do
  let node ← Builder.register ⟨name, .impulse⟩
  return ⟨p, node, name, some (.json .unit)⟩

end Pipeline

end CheckedFlow
