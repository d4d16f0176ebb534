import CheckedFlow.Text.Numeral
import CheckedFlow.Text.Quoted

/-!
# The difference between two collections without order

A `Difference` says how two lists differ when order does not count. Elements are known by their
texts; each text stands once, with the number of its copies. Both sides are also shown by their
first elements.
-/

namespace CheckedFlow

/-- Texts of elements with the number of copies of each, in order of first occurrence. -/
abbrev Tally := List (String × Nat)

namespace Tally

/-- One more copy of `text`. -/
def add (text : String) : Tally → Tally
  | [] => [(text, 1)]
  | (t, n) :: tally => if t = text then (t, n + 1) :: tally else (t, n) :: add text tally

/-- The tally of the texts of `items`. -/
def ofTexts (texts : List String) : Tally := texts.foldl (fun tally t => add t tally) []

/-- The copies of `text`, by its first entry. -/
def count (text : String) (tally : Tally) : Nat := (tally.lookup text).getD 0

/-- Each text with its number of copies. -/
def describe (tally : Tally) : String :=
  Text.bracketed (tally.map fun e => e.1 ++ " x" ++ Text.decimal e.2)

end Tally

/-- How an actual and an expected list differ, apart from order. -/
structure Difference where
  expectedLength : Nat
  actualLength : Nat
  missing : Tally
  unexpected : Tally
  expected : String
  actual : String
deriving DecidableEq, Repr

namespace Difference

/-- The elements that a preview shows. -/
def previewLength : Nat := 10

/-- The texts of the first elements, and how many more there are. -/
def preview (texts : List String) : String :=
  let shown := Text.commas (texts.take previewLength)
  match texts.length - previewLength with
  | 0 => "[" ++ shown ++ "]"
  | more => "[" ++ shown ++ ", ... " ++ Text.decimal more ++ " more]"

/-- The wording of a difference. -/
def message (d : Difference) : String :=
  let counts (title : String) (tally : Tally) : String :=
    if tally.isEmpty then "" else "; " ++ title ++ ": " ++ tally.describe
  "Expected " ++ Text.decimal d.expectedLength ++ " element(s) in any order, found " ++
    Text.decimal d.actualLength ++ counts "missing" d.missing ++
    counts "unexpected" d.unexpected ++ "; expected: " ++ d.expected ++ "; actual: " ++ d.actual

end Difference

end CheckedFlow
