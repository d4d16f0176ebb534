import CheckedFlow.Check.Verdict

/-!
# Relations between actual and expected values

A relation, bound to an expected value, checks actual values. Elements need an equality `same` and a
text; the equality need not be reflexive, as that of floats is not.

* `unmatched`: pairs the elements of two lists that are the same, each with the first partner that
  is left, and returns the elements on both sides without one.
* `difference?`: how two lists differ when order does not count; none if every element has a
  partner.
* `Relation.isEqualTo`, `Relation.notEqualTo`, `Relation.containsInAnyOrder`.
-/

namespace CheckedFlow

variable {α β : Type}

/-- The elements of `expected` and of `actual` that are left when each element of `expected`, from
the first on, takes the first element of `actual` that is the same and not taken yet. -/
def unmatched (same : α → α → Bool) : List α → List α → List α × List α
  | [], actual => ([], actual)
  | x :: expected, actual =>
    if actual.any (same · x) then unmatched same expected (actual.eraseP (same · x))
    else
      let (missing, unexpected) := unmatched same expected actual
      (x :: missing, unexpected)

/-- How the lists differ when order does not count. -/
def difference? (same : α → α → Bool) (text : α → String) (expected actual : List α) :
    Option Difference :=
  match unmatched same expected actual with
  | ([], []) => none
  | (missing, unexpected) =>
    some {
      expectedLength := expected.length
      actualLength := actual.length
      missing := Tally.ofTexts (missing.map text)
      unexpected := Tally.ofTexts (unexpected.map text)
      expected := Difference.preview (expected.map text)
      actual := Difference.preview (actual.map text) }

/-- A relation between actual and expected values. -/
structure Relation (α β : Type) where
  name : String
  /-- The checker of actual values for an expected one. -/
  bind : β → Checker α

namespace Relation

/-- The values are the same. -/
def isEqualTo (same : α → α → Bool) (text : α → String) : Relation α α where
  name := "IsEqualTo"
  bind expected actual :=
    if same actual expected then ⟨.passed, []⟩
    else ⟨.failed (.notEqual (text expected) (text actual)), []⟩

/-- The values are not the same. -/
def notEqualTo (same : α → α → Bool) (text : α → String) : Relation α α where
  name := "NotEqualTo"
  bind expected actual :=
    if same actual expected then ⟨.failed (.unexpectedlyEqual (text expected)), []⟩
    else ⟨.passed, []⟩

/-- The lists hold the same elements, each as often, in any order. -/
def containsInAnyOrder (same : α → α → Bool) (text : α → String) :
    Relation (List α) (List α) where
  name := "ContainsInAnyOrder"
  bind expected actual :=
    match difference? same text expected actual with
    | none => ⟨.passed, []⟩
    | some d => ⟨.failed (.mismatch d), []⟩

end Relation

end CheckedFlow
