import CheckedFlow.Assertion.Iterable

/-!
# Assertions on single values

An assertion on the only element of a dataset, or on the dictionary that a dataset of entries forms.
A dictionary's expected values are injected through the codec of the dataset's entries.

* `assertThatSingleton`, `assertThatMap`, `assertThatMultimap`: the three ways in.
* `satisfies`, `satisfiesRelation`, `isEqualTo`, `notEqualTo`: the terminal calls.
-/

namespace CheckedFlow

/-- What an assertion on a single value is about. -/
inductive SingletonActual (k : Kind) where
  /-- The only element of a dataset. -/
  | element (dataset : Dataset k)
  /-- A value that a view derives from a dataset. -/
  | derived (evidence : Evidence k)

/-- An assertion on a single value. -/
structure SingletonAssertion (k : Kind) where
  pipeline : Pipeline
  actual : SingletonActual k
  /-- The codec that injects the expected value. -/
  codec : Option (Codec k.Value)

/-- An assertion on the only element of a dataset. -/
def assertThatSingleton {k : Kind} (d : Dataset k) : SingletonAssertion k :=
  ⟨d.pipeline, .element d, d.codec⟩

/-- An assertion on what the keys of a dataset of entries map to. -/
def assertThatMap {key : KeyKind} {k : Kind} (d : Dataset (.entry key k)) :
    SingletonAssertion (.dictionary key k) where
  pipeline := d.pipeline
  actual := .derived (.ofDataset (l := .dictionary key k) d (.dictionary key.describe) none true)
  codec := d.codec.map (Codec.dictionary key.describe)

/-- An assertion on the values of each key of a dataset of entries. -/
def assertThatMultimap {key : KeyKind} {k : Kind} (d : Dataset (.entry key k)) :
    SingletonAssertion (.dictionary key (.list k)) where
  pipeline := d.pipeline
  actual := .derived (.ofDataset (l := .dictionary key (.list k)) d .grouped none true)
  codec := d.codec.map Codec.grouped

namespace SingletonAssertion

variable {k : Kind}

/-- The same assertion with another codec for the expected value. -/
def setCodec (a : SingletonAssertion k) (c : Codec k.Value) : SingletonAssertion k :=
  { a with codec := some c }

/-- The codec for the expected value. -/
def expectedCodec (a : SingletonAssertion k) : Except PipelineError (Codec k.Value) :=
  let remedy :=
    match a.actual with
    | .element _ => "call set_serde"
    | .derived _ => "give the key/value dataset a serde with Dataset::with_serde"
  requireCodec "SingletonAssertion" remedy a.codec

/-- The actual value. -/
def evidence (a : SingletonAssertion k) : Evidence k :=
  match a.actual with
  | .element d => .ofDataset d .singleton a.codec
  | .derived e => e

/-- Checks the value by a checker. -/
def satisfies (a : SingletonAssertion k) (checker : Checker k.Value) : Builder CheckHandle := do
  let name ← Builder.nextAssertion
  checkValue a.pipeline name a.evidence checker

/-- Checks the value by a relation to an expected one. -/
def satisfiesRelation (a : SingletonAssertion k) (r : Relation k.Value k.Value)
    (expected : k.Value) : Builder CheckHandle := do
  let codec ← Builder.ofExcept a.expectedCodec
  let name ← Builder.nextAssertion
  checkAgainst a.pipeline name a.evidence (.ofValues [expected] (some codec) .singleton) r

/-- Checks that the value is the expected one. -/
def isEqualTo (a : SingletonAssertion k) (expected : k.Value) : Builder CheckHandle :=
  a.satisfiesRelation (.isEqualTo k.equal k.describe) expected

/-- Checks that the value is not the expected one. -/
def notEqualTo (a : SingletonAssertion k) (expected : k.Value) : Builder CheckHandle :=
  a.satisfiesRelation (.notEqualTo k.equal k.describe) expected

/-- The name of what the assertion is about. -/
def actualName (a : SingletonAssertion k) : String :=
  match a.actual with
  | .element d => d.name
  | .derived _ => "derived view"

/-- The text of an assertion in messages. -/
def describe (a : SingletonAssertion k) : String :=
  Text.record "SingletonAssertion"
    [("actual", Text.quoted a.actualName), ("serde", IterableAssertion.describeFormat a.codec)]

end SingletonAssertion

end CheckedFlow
