import CheckedFlow.Check.Stage
import CheckedFlow.Script.Codec
import CheckedFlow.Script.Function

/-!
# Views, checkers and relations that scripts name

* `ShapeSpec.viewFn?`: view functions; one of them takes the first element of a window.
* `Checking.checker?`: checkers, which may show the checked value before they decide.
* `RelationSpec.relation?`: relations between an actual and an expected value.
* `intruding`: evidence that registers a stage under a name of the script's choice.
-/

namespace CheckedFlow.Script

/-- The description of a view function. -/
inductive ShapeSpec where
  | singleton
  | iterable
  | map
  | multimap
  /-- The first element, for which the view counts as a singleton. -/
  | first
deriving DecidableEq, Repr

namespace ShapeSpec

/-- The view function that a description names on the elements of a kind. -/
def viewFn? : ShapeSpec → (k : Kind) → Option (Emitting fun l => ViewFn k.Value l.Value)
  | singleton, k => some ⟨k, .singleton⟩
  | iterable, k => some ⟨.list k, .iterable⟩
  | map, .entry key k => some ⟨.dictionary key k, .dictionary key.describe⟩
  | multimap, .entry key k => some ⟨.dictionary key (.list k), .grouped⟩
  | first, k => some ⟨k, .singleton, fun
      | [] => .error (.told "nothing to take")
      | x :: _ => .ok x⟩
  | _, _ => none

end ShapeSpec

/-- What a described checker decides by. -/
inductive CheckRule where
  | pass
  | fail (message : String)
  | refuse (failure : CheckFailure)
  /-- A list with that many items. -/
  | length (length : Nat)
  /-- A value with that plain form. -/
  | equals (value : Json)
  /-- Fails as if a value had been expected. -/
  | notEqual (value : Json)
  | panic (message : Option String)

/-- The description of a checker; with a label it shows what it checks. -/
structure Checking where
  label : Option String
  rule : CheckRule

/-- The plain form of a value as the only text of a failure. -/
def got (k : Kind) (x : k.Value) : CheckFailure := .custom ("got " ++ k.plainText x)

namespace CheckRule

/-- `passed` if a condition holds, else the failure that shows the value. -/
def demand (k : Kind) (x : k.Value) (condition : Bool) : Verdict :=
  if condition then .passed else .failed (got k x)

/-- A plain form is an array of `n` items. -/
def hasLength (n : Nat) : Json → Bool
  | .array items => items.length == n
  | _ => false

/-- The decision on values of a kind, if the rule's own value is of the kind. -/
def verdict? (k : Kind) : CheckRule → Option (k.Value → Verdict)
  | pass => some fun _ => .passed
  | fail message => some fun _ => .failed (.custom message)
  | refuse failure => some fun _ => .failed failure
  | length n => some fun x => demand k x (hasLength n (k.plain x))
  | equals value => some fun x => demand k x (k.plain x == value)
  | notEqual value => do
    let expected ← k.ofPlain? value
    return fun x => .failed (.notEqual (k.describe expected) (k.describe x))
  | panic message => some fun _ => .panicked message

end CheckRule

/-- The checker of values of a kind that a description names. -/
def Checking.checker? (c : Checking) (k : Kind) : Option (Checker k.Value) := do
  let verdict ← c.rule.verdict? k
  return fun x => ⟨verdict x, c.label.toList.map fun label => (label, k.plain x)⟩

/-- The description of a relation. -/
inductive RelationSpec where
  | isEqualTo
  | notEqualTo
  | containsInAnyOrder
  /-- Two lists of one length. -/
  | sameLength
  /-- A list that starts with a value. -/
  | hasFirst
deriving DecidableEq, Repr

/-- Two lists have the same length. -/
def sameLength {α : Type} : Relation (List α) (List α) where
  name := "SameLength"
  bind expected actual :=
    if expected.length = actual.length then ⟨.passed, []⟩
    else
      ⟨.failed (.custom ("expected " ++ Text.decimal expected.length ++ " values, got " ++
        Text.decimal actual.length)), []⟩

/-- A list starts with a value. -/
def hasFirst (k : Kind) : Relation (List k.Value) k.Value where
  name := "HasFirst"
  bind expected
    | [] => ⟨.failed (.custom "no first element"), []⟩
    | x :: _ =>
      if k.equal x expected then ⟨.passed, []⟩
      else ⟨.failed (.notEqual (k.describe expected) (k.describe x)), []⟩

namespace RelationSpec

/-- The relation of values of one kind that a description names. -/
def within? : RelationSpec → (k : Kind) → Option (Relation k.Value k.Value)
  | isEqualTo, k => some (.isEqualTo k.equal k.describe)
  | notEqualTo, k => some (.notEqualTo k.equal k.describe)
  | containsInAnyOrder, .list k => some (.containsInAnyOrder k.equal k.describe)
  | sameLength, .list _ => some Script.sameLength
  | _, _ => none

/-- The relation of the items of lists and a value that a description names. -/
def toItem? : RelationSpec → (k : Kind) → Option (Relation (List k.Value) k.Value)
  | hasFirst, k => some (Script.hasFirst k)
  | _, _ => none

/-- The relation of two kinds of values that a description names. -/
def relation? (r : RelationSpec) (k l : Kind) : Option (Relation k.Value l.Value) :=
  if h : k = l then h ▸ r.within? k
  else if h : k = .list l then h ▸ r.toItem? l
  else none

end RelationSpec

/-- Where the name of a stage holds the name of the evidence. -/
def underPlaceholder : String := "$prefix"

/-- The dataset that an intruder registers. -/
def intruderData (stage : String) (p : Pipeline) (under : String) : Builder (Dataset .integer) :=
  p.source .integer (stage.replace underPlaceholder under) [1, 2] (.json .integer)

/-- Evidence from a stage of its own naming; it may fail after it registered the stage. -/
def intruding (stage : String) (fails : Bool) : Evidence (.list .integer) := fun p under => do
  let d ← intruderData stage p under
  if fails then
    throw (.internal (.told "intruder failed"))
  d.asIterable (under ++ "/View")

end CheckedFlow.Script
