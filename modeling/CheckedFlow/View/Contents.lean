import CheckedFlow.View.Basic

/-!
# The contents of a view

An evaluated view holds, for every window of its input, the value of the window's elements or the
error with which the view function refused them. A refusal is told to whoever reads that window and
touches no other window.

* `ViewContents.materialize`: the contents of a view over a list of elements.
* `ViewContents.read`: what a window reads. A window without elements reads the value of no
  elements; the global window does so only if the view holds no window at all, because a view of
  intervals has no value for all time.
-/

namespace CheckedFlow

namespace Dictionary

/-- The same keys, with the values changed by `f`. -/
def mapValues {κ α β : Type} (f : α → β) (d : Dictionary κ α) : Dictionary κ β :=
  ⟨d.entries.map fun e => (e.1, f e.2), by
    have h : (d.entries.map fun e => (e.1, f e.2)).map Prod.fst = d.entries.map Prod.fst := by
      simp only [List.map_map]
      rfl
    rw [h]
    exact d.nodup⟩

end Dictionary

/-- The values of a view, window by window. -/
structure ViewContents (β : Type) where
  name : String
  perWindow : Dictionary Window (Except PipelineError β)
  empty : Except PipelineError β

namespace ViewContents

variable {α β : Type}

/-- The error of a view whose function refused the elements of a window. -/
def refusal (name : String) : ViewError → PipelineError
  | .repeatedKey key => .duplicateKey name key
  | other => .viewMaterialization name (.view other)

/-- The value of some elements in the view `name`. -/
def valueOf (name : String) (f : ViewFn α β) (elements : List α) : Except PipelineError β :=
  match f.apply elements with
  | .ok x => .ok x
  | .error e => .error (refusal name e)

/-- The contents of the view `name` over `elements`. -/
def materialize (name : String) (f : ViewFn α β) (elements : List (Windowed α)) :
    ViewContents β :=
  let groups := Dictionary.group (elements.map fun e => (e.window, e.value))
  ⟨name, groups.mapValues (valueOf name f), valueOf name f []⟩

/-- What the window `w` reads. -/
def read (c : ViewContents β) (w : Window) : Except PipelineError β :=
  match c.perWindow.get? w with
  | some value => value
  | none =>
    if w = .global ∧ ¬ c.perWindow.entries.isEmpty then
      .error (.viewMaterialization c.name (.intervalsOnly c.perWindow.entries.length))
    else c.empty

end ViewContents

end CheckedFlow
