import CheckedFlow.Element.Dictionary
import CheckedFlow.Failure.Pipeline

/-!
# View functions

A view function makes one value of all elements of a window, or says why it cannot.

* `ViewFn.singleton`: the only element.
* `ViewFn.iterable`: all elements, in order of arrival.
* `ViewFn.dictionary`, `ViewFn.grouped`: entries by their keys; a key may occur once, or its values
  are gathered in order of arrival.
* `ViewFn.afterCopying`: a view function behind the copies of its elements; the first copy that
  failed is told, and nothing else is looked at then.
-/

namespace CheckedFlow

/-- The shape of the value that a view holds. -/
inductive ViewShape where
  | singleton
  | iterable
  | map
  | multimap
deriving DecidableEq, Repr

namespace ViewShape

/-- The name of a shape. -/
def name : ViewShape → String
  | singleton => "singleton"
  | iterable => "iterable"
  | map => "map"
  | multimap => "multimap"

/-- The text of a shape in messages. -/
def describe : ViewShape → String
  | singleton => "Singleton"
  | iterable => "Iterable"
  | map => "Map"
  | multimap => "Multimap"

end ViewShape

/-- Makes one value of the elements of a window. -/
structure ViewFn (α β : Type) where
  shape : ViewShape
  apply : List α → Except ViewError β

namespace ViewFn

variable {α β : Type}

/-- The only element. -/
def singleton : ViewFn α α where
  shape := .singleton
  apply
    | [] => .error .emptySingleton
    | [x] => .ok x
    | xs => .error (.tooMany xs.length)

/-- All elements. -/
def iterable : ViewFn α (List α) := ⟨.iterable, .ok⟩

/-- What each key maps to, when no key occurs twice. -/
def dictionary {κ : Type} [DecidableEq κ] (describe : κ → String) :
    ViewFn (κ × α) (Dictionary κ α) where
  shape := .map
  apply entries :=
    match Dictionary.ofEntries entries with
    | .ok d => .ok d
    | .error key => .error (.repeatedKey (describe key))

/-- The values of each key. -/
def grouped {κ : Type} [DecidableEq κ] : ViewFn (κ × α) (Dictionary κ (List α)) :=
  ⟨.multimap, fun entries => .ok (Dictionary.group entries)⟩

/-- The values of copies that all succeeded; else the place and the cause of the first that
failed. `index` is the place of the first copy in the list. -/
def copied (index : Nat) : List (Except SerializationError α) → Except ViewError (List α)
  | [] => .ok []
  | .ok x :: rest => do return x :: (← copied (index + 1) rest)
  | .error e :: _ => .error (.copyFailed index e)

/-- The view function `f` on copies. -/
def afterCopying (f : ViewFn α β) : ViewFn (Except SerializationError α) β where
  shape := f.shape
  apply copies := do f.apply (← copied 0 copies)

end ViewFn

end CheckedFlow
