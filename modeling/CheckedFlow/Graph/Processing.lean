import CheckedFlow.Graph.Handle
import CheckedFlow.View.Contents

/-!
# Processing an element

What the function of a stage does with one element: it emits elements, has effects that others can
observe, and ends well, with an error or by a panic. Effects are data, so that what a stage does can
be told apart from the order in which its workers do it.

* `Output`: what a stage leaves behind, elements or the contents of a view, with their kind.
* `Surroundings`: what the function may ask for besides the element. `Surroundings.sideInput` reads
  a declared view for the window of the element.
* `Processed`: emitted elements, effects and ending of an element, of a chunk or of a stage.
* `DoFn`: the function itself; `DoFn.map` and `DoFn.filter` are the two common ones.
-/

namespace CheckedFlow

/-- What an evaluated stage leaves to the stages after it. -/
inductive Output where
  | elements (kind : Kind) (items : List (Windowed kind.Value))
  | view (kind : Kind) (contents : ViewContents kind.Value)

namespace Output

/-- The elements of an output, if they are of the kind `k`. -/
def elements? (k : Kind) : Output → Option (List (Windowed k.Value))
  | elements kind items => if h : kind = k then some (h ▸ items) else none
  | view .. => none

/-- The contents of a view, if its values are of the kind `k`. -/
def view? (k : Kind) : Output → Option (ViewContents k.Value)
  | view kind contents => if h : kind = k then some (h ▸ contents) else none
  | elements .. => none

end Output

/-- Where a check stage stands. -/
inductive CheckState where
  | created
  /-- All stages of the check are registered. -/
  | scheduled
  | running
  | resolved (success : Bool)
deriving DecidableEq, Repr

/-- What an element's processing does besides emitting; counters and check states are those of the
stage that processes it. -/
inductive Effect where
  /-- Asks for a counter and adds to it. -/
  | count (counter : String) (amount : UInt64)
  /-- Moves the check of the stage to a state. -/
  | enter (state : CheckState)
  /-- Shows a value to an observer outside the pipeline. -/
  | note (label : String) (value : Json)

/-- How processing ends. -/
inductive Ending where
  | done
  | failed (error : PipelineError)
  | panicked

/-- What processing does. -/
structure Processed (β : Type) where
  effects : List Effect := []
  emitted : List (Windowed β) := []
  ending : Ending := .done

/-- What a stage's function may ask for besides its element. -/
structure Surroundings where
  stage : String
  timestamp : Timestamp
  window : Window
  options : PipelineOptions
  /-- The outputs of the declared views. -/
  sideInputs : List (NodeId × Output)

namespace Surroundings

/-- An element with the timestamp and the window of the one that is processed. -/
def emit {β : Type} (s : Surroundings) (x : β) : Windowed β := ⟨x, s.timestamp, s.window⟩

/-- An element with a timestamp of its own, in the window of the one that is processed. -/
def emitAt {β : Type} (s : Surroundings) (x : β) (t : Timestamp) : Windowed β := ⟨x, t, s.window⟩

/-- The value of the view `v` for the window of the element. -/
def sideInput {k : Kind} (s : Surroundings) (v : View k) : Except PipelineError k.Value :=
  match s.sideInputs.lookup v.node with
  | none => .error (.undeclaredSideInput s.stage v.name)
  | some output =>
    match output.view? k with
    | none => .error (.internal (.wrongView v.name))
    | some contents => contents.read s.window

end Surroundings

/-- The function of a stage that processes elements. -/
abbrev DoFn (α β : Type) := Surroundings → α → Processed β

namespace DoFn

variable {α β : Type}

/-- Emits one element for each. -/
def map (f : α → β) : DoFn α β := fun s x => { emitted := [s.emit (f x)] }

/-- Emits the elements that `p` accepts. -/
def filter (p : α → Bool) : DoFn α α := fun s x => { emitted := if p x then [s.emit x] else [] }

end DoFn

end CheckedFlow
