import CheckedFlow.Decimal.Layout
import CheckedFlow.Text.Quoted

/-!
# JSON values

* `Json`: a value as a tree. Whole numbers and floats are different numbers, `1` is not `1.0`.
* `Json.ofFields`: an object with its keys in increasing order, where the last of several fields
  with one key counts.
* `Json.beq`: equality, with floats compared as numbers, so that NaN would differ from itself.
* `Json.describe`: the text of a value in messages.
* `Json.Canonical`: the values a reader produces: whole numbers of 64 bits, finite floats and
  objects with increasing keys.
-/

namespace CheckedFlow

/-- A JSON value. -/
inductive Json where
  | null
  | boolean (value : Bool)
  | integer (value : Int)
  | float (value : Float)
  | text (value : String)
  | array (items : List Json)
  | object (fields : List (String × Json))

namespace Json

instance : Inhabited Json := ⟨.null⟩

/-- `fields` with a field put at its place among increasing keys, instead of one with its key. -/
def insertField (key : String) (value : Json) : List (String × Json) → List (String × Json)
  | [] => [(key, value)]
  | (k, v) :: fields =>
    if key < k then (key, value) :: (k, v) :: fields
    else if key = k then (key, value) :: fields
    else (k, v) :: insertField key value fields

/-- The object with the given fields; of two with one key the later counts. -/
def ofFields (fields : List (String × Json)) : Json :=
  object (fields.foldl (fun sorted f => insertField f.1 f.2 sorted) [])

/-- The value of the first field with the key `key`. -/
def field? (key : String) : Json → Option Json
  | object fields => fields.lookup key
  | _ => none

mutual

/-- Equality of values. -/
def beq : Json → Json → Bool
  | null, null => true
  | boolean a, boolean b => a == b
  | integer m, integer n => m == n
  | float x, float y => x == y
  | text s, text t => s == t
  | array xs, array ys => beqItems xs ys
  | object fs, object gs => beqFields fs gs
  | _, _ => false

/-- Equality of the items of two arrays. -/
def beqItems : List Json → List Json → Bool
  | [], [] => true
  | x :: xs, y :: ys => beq x y && beqItems xs ys
  | _, _ => false

/-- Equality of the fields of two objects, in their order. -/
def beqFields : List (String × Json) → List (String × Json) → Bool
  | [], [] => true
  | (k, x) :: fs, (l, y) :: gs => k == l && beq x y && beqFields fs gs
  | _, _ => false

end

instance : BEq Json := ⟨beq⟩

mutual

/-- The text of a value in messages. -/
def describe : Json → String
  | null => "Null"
  | boolean b => "Bool(" ++ toString b ++ ")"
  | integer n => "Number(" ++ Text.signed n ++ ")"
  | float x => "Number(" ++ Decimal.Layout.json.write x ++ ")"
  | text s => "String(" ++ Text.quoted s ++ ")"
  | array items => "Array " ++ Text.bracketed (describeItems items)
  | object fields => "Object " ++ Text.braced (describeFields fields)

/-- The texts of the items of an array. -/
def describeItems : List Json → List String
  | [] => []
  | x :: xs => describe x :: describeItems xs

/-- The texts of the fields of an object. -/
def describeFields : List (String × Json) → List String
  | [] => []
  | (k, x) :: fs => (Text.quoted k ++ ": " ++ describe x) :: describeFields fs

end

/-- A whole number that fits 64 bits, signed if it is negative and unsigned if not. -/
def IsWord (n : Int) : Prop := -0x8000000000000000 ≤ n ∧ n < UInt64.size

instance (n : Int) : Decidable (IsWord n) := inferInstanceAs (Decidable (_ ∧ _))

mutual

/-- A value in the form in which reading produces it. -/
def Canonical : Json → Prop
  | integer n => IsWord n
  | float x => x.isFinite = true
  | array items => CanonicalItems items
  | object fields => fields.Pairwise (fun f g => f.1 < g.1) ∧ CanonicalFields fields
  | _ => True

/-- Every item is canonical. -/
def CanonicalItems : List Json → Prop
  | [] => True
  | x :: xs => Canonical x ∧ CanonicalItems xs

/-- The value of every field is canonical. -/
def CanonicalFields : List (String × Json) → Prop
  | [] => True
  | (_, x) :: fs => Canonical x ∧ CanonicalFields fs

end

mutual

/-- The number of containers that nest around the innermost value. -/
def nesting : Json → Nat
  | array items => nestingItems items + 1
  | object fields => nestingFields fields + 1
  | _ => 0

/-- The greatest nesting of an item. -/
def nestingItems : List Json → Nat
  | [] => 0
  | x :: xs => max (nesting x) (nestingItems xs)

/-- The greatest nesting of a field's value. -/
def nestingFields : List (String × Json) → Nat
  | [] => 0
  | (_, x) :: fs => max (nesting x) (nestingFields fs)

end

end Json

end CheckedFlow
