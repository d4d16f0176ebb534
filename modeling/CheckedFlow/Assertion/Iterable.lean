import CheckedFlow.Check.Stage

/-!
# Assertions on collections

An assertion on the elements of a dataset, on the one list that a dataset holds, or on an iterable
view. Every terminal call takes the next assertion name of the pipeline and registers a check of its
own; nothing is checked before the pipeline runs.

* `assertThat`, `assertThatSingletonIterable`, `assertThatIterable`: the three ways in.
* `satisfies`, `satisfiesRelation`, `containsInAnyOrder`, `empty`: the terminal calls.
-/

namespace CheckedFlow

/-- What an assertion on a collection is about. -/
inductive IterableActual (k : Kind) where
  /-- All elements of a dataset. -/
  | elements (dataset : Dataset k)
  /-- The only element of a dataset, a list. -/
  | singleton (dataset : Dataset (.list k))
  /-- The value of a view. -/
  | view (view : View (.list k))

/-- An assertion on a collection. -/
structure IterableAssertion (k : Kind) where
  pipeline : Pipeline
  actual : IterableActual k
  /-- The codec that injects expected values. -/
  codec : Option (Codec k.Value)

/-- An assertion on all elements of a dataset. -/
def assertThat {k : Kind} (d : Dataset k) : IterableAssertion k :=
  ⟨d.pipeline, .elements d, d.codec⟩

/-- An assertion on the one list of a dataset. -/
def assertThatSingletonIterable {k : Kind} (d : Dataset (.list k)) : IterableAssertion k :=
  ⟨d.pipeline, .singleton d, some (.json k)⟩

/-- An assertion on a view. -/
def assertThatIterable {k : Kind} (v : View (.list k)) : IterableAssertion k :=
  ⟨v.pipeline, .view v, none⟩

/-- The codec `c` of an assertion of some kind, or what would give it one. -/
def requireCodec {α : Type} (kind remedy : String) (c : Option (Codec α)) :
    Except PipelineError (Codec α) :=
  match c with
  | some c => .ok c
  | none => .error (.construction kind (.assertionWithoutCodec kind remedy))

namespace IterableAssertion

variable {k : Kind}

/-- The same assertion with another codec for expected values. -/
def setCodec (a : IterableAssertion k) (c : Codec k.Value) : IterableAssertion k :=
  { a with codec := some c }

/-- The codec for expected values. -/
def expectedCodec (a : IterableAssertion k) : Except PipelineError (Codec k.Value) :=
  requireCodec "IterableAssertion" "call set_serde" a.codec

/-- The actual list. -/
def evidence (a : IterableAssertion k) : Evidence (.list k) :=
  match a.actual with
  | .elements d => .ofDataset d .iterable a.codec
  | .singleton d => .ofDataset d .singleton (a.codec.map Codec.list)
  | .view v => .ofView v

/-- Checks the list by a checker. -/
def satisfies (a : IterableAssertion k) (checker : Checker (List k.Value)) :
    Builder CheckHandle := do
  let name ← Builder.nextAssertion
  checkValue (k := .list k) a.pipeline name a.evidence checker

/-- Checks the list by a relation to expected values. -/
def satisfiesRelation (a : IterableAssertion k) (r : Relation (List k.Value) (List k.Value))
    (expected : List k.Value) : Builder CheckHandle := do
  let codec ← Builder.ofExcept a.expectedCodec
  let name ← Builder.nextAssertion
  let given : Evidence (.list k) := .ofValues expected (some codec) .iterable
  checkAgainst (k := .list k) (l := .list k) a.pipeline name a.evidence given r

/-- Checks that the list holds the expected values, in any order. -/
def containsInAnyOrder (a : IterableAssertion k) (expected : List k.Value) :
    Builder CheckHandle :=
  a.satisfiesRelation (.containsInAnyOrder k.equal k.describe) expected

/-- Checks that the list is empty. -/
def empty (a : IterableAssertion k) : Builder CheckHandle := a.containsInAnyOrder []

/-- The name of the dataset or view that the assertion is about. -/
def actualName (a : IterableAssertion k) : String :=
  match a.actual with
  | .elements d => d.name
  | .singleton d => d.name
  | .view v => v.name

/-- The text of a format that may be unknown. -/
def describeFormat {α : Type} : Option (Codec α) → String
  | none => "None"
  | some c => "Some(" ++ Text.quoted c.format ++ ")"

/-- The text of an assertion in messages. -/
def describe (a : IterableAssertion k) : String :=
  Text.record "IterableAssertion"
    [("actual", Text.quoted a.actualName), ("serde", describeFormat a.codec)]

end IterableAssertion

end CheckedFlow
