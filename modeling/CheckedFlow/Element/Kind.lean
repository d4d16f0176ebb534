import CheckedFlow.Element.Dictionary
import CheckedFlow.Failure.Serialization
import CheckedFlow.Json.Basic
import CheckedFlow.Options.Basic
import CheckedFlow.Window

/-!
# The kinds of elements

A `Kind` is the code of a type that the stages of a pipeline handle, and `Kind.Value` the type.
Codes can be compared, so a stage that is handed elements of another type than it was built for is
found out.

* `Kind.equal`: the equality of values that relations between collections use. Floats are compared as
  numbers, dictionaries by what their keys map to.
* `Kind.describe`: the text of a value in messages.
-/

namespace CheckedFlow

/-- A record of one trade. -/
structure Trade where
  symbol : String
  quantity : UInt32
  priceCents : Int64
deriving DecidableEq, Repr

/-- Whole numbers by pairs of whole numbers, in increasing order of the pairs. -/
structure PairTable where
  entries : List ((Int64 × Int64) × Int64)
deriving DecidableEq, Repr

namespace PairTable

/-- `p` comes before `q`: by the first parts, then by the second. -/
def before (p q : Int64 × Int64) : Bool := p.1 < q.1 || (p.1 == q.1 && p.2 < q.2)

/-- `entries` with one put at its place, instead of one for its pair. -/
def insertEntry (p : Int64 × Int64) (v : Int64) :
    List ((Int64 × Int64) × Int64) → List ((Int64 × Int64) × Int64)
  | [] => [(p, v)]
  | (q, w) :: entries =>
    if before p q then (p, v) :: (q, w) :: entries
    else if p = q then (p, v) :: entries
    else (q, w) :: insertEntry p v entries

/-- The table of `entries`; of two for one pair the later counts. -/
def ofEntries (entries : List ((Int64 × Int64) × Int64)) : PairTable :=
  ⟨entries.foldl (fun sorted e => insertEntry e.1 e.2 sorted) []⟩

end PairTable

/-- The kinds of keys. -/
inductive KeyKind where
  | text
  | integer
deriving DecidableEq, Repr

namespace KeyKind

/-- The keys of a kind. -/
@[reducible] def Key : KeyKind → Type
  | text => String
  | integer => Int64

instance (k : KeyKind) : DecidableEq k.Key :=
  match k with
  | text => inferInstanceAs (DecidableEq String)
  | integer => inferInstanceAs (DecidableEq Int64)

/-- The text of a key in messages. -/
def describe : (k : KeyKind) → k.Key → String
  | text, s => Text.quoted s
  | integer, n => Text.signed n.toInt

/-- `a` comes before `b`, or they are equal. -/
def le : (k : KeyKind) → k.Key → k.Key → Bool
  | text, s, t => s ≤ t
  | integer, m, n => m ≤ n

end KeyKind

/-- The code of a type of elements. -/
inductive Kind where
  /-- Whole numbers of 64 signed bits. -/
  | integer
  | byte
  | boolean
  | text
  | float
  | unit
  | option (kind : Kind)
  | list (kind : Kind)
  /-- A key with a value. -/
  | entry (key : KeyKind) (value : Kind)
  | dictionary (key : KeyKind) (value : Kind)
  | pairTable
  | trade
  | json
  | window
  | windowFn
  | options
  /-- What came of copying a value through its codec. -/
  | copy (kind : Kind)
deriving DecidableEq, Repr

namespace Kind

/-- The values of a kind. -/
@[reducible] def Value : Kind → Type
  | integer => Int64
  | byte => UInt8
  | boolean => Bool
  | text => String
  | float => Float
  | unit => Unit
  | option k => Option k.Value
  | list k => List k.Value
  | entry k l => k.Key × l.Value
  | dictionary k l => Dictionary k.Key l.Value
  | pairTable => PairTable
  | trade => Trade
  | json => Json
  | window => Window
  | windowFn => WindowFn
  | options => PipelineOptions
  | copy k => Except SerializationError k.Value

/-- The items of two lists are pairwise the same. -/
def equalItems {α : Type} (same : α → α → Bool) : List α → List α → Bool
  | [], [] => true
  | x :: xs, y :: ys => same x y && equalItems same xs ys
  | _, _ => false

/-- The equality of the values of a kind. -/
def equal : (k : Kind) → k.Value → k.Value → Bool
  | integer, m, n => m == n
  | byte, m, n => m == n
  | boolean, a, b => a == b
  | text, s, t => s == t
  | float, x, y => x == y
  | unit, _, _ => true
  | option _, none, none => true
  | option k, some x, some y => k.equal x y
  | option _, _, _ => false
  | list k, xs, ys => equalItems k.equal xs ys
  | entry _ l, x, y => x.1 == y.1 && l.equal x.2 y.2
  | dictionary _ l, d, e => Dictionary.equal l.equal d e
  | pairTable, t, u => t == u
  | trade, t, u => t == u
  | json, i, j => i == j
  | window, v, w => v == w
  | windowFn, f, g => f == g
  | options, o, p => o == p
  | copy k, .ok x, .ok y => k.equal x y
  | copy _, .error e, .error f => e.message == f.message
  | copy _, _, _ => false

/-- The text of a value in messages. -/
def describe : (k : Kind) → k.Value → String
  | integer, n => Text.signed n.toInt
  | byte, n => Text.decimal n.toNat
  | boolean, b => toString b
  | text, s => Text.quoted s
  | float, x => Decimal.Layout.message.write x
  | unit, _ => "()"
  | option _, none => "None"
  | option k, some x => "Some(" ++ k.describe x ++ ")"
  | list k, xs => Text.bracketed (xs.map k.describe)
  | entry k l, x => "(" ++ k.describe x.1 ++ ", " ++ l.describe x.2 ++ ")"
  | dictionary k l, d =>
    Text.braced ((d.entries.map fun e => k.describe e.1 ++ ": " ++ l.describe e.2).mergeSort
      fun s t => s ≤ t)
  | pairTable, t =>
    Text.braced (t.entries.map fun e =>
      "(" ++ Text.signed e.1.1.toInt ++ ", " ++ Text.signed e.1.2.toInt ++ "): " ++
        Text.signed e.2.toInt)
  | trade, t =>
    Text.record "Trade"
      [("symbol", Text.quoted t.symbol), ("quantity", Text.decimal t.quantity.toNat),
       ("price_cents", Text.signed t.priceCents.toInt)]
  | json, j => j.describe
  | window, w => w.describe
  | windowFn, f => f.describe
  | options, o => o.describe
  | copy k, .ok x => "Ok(" ++ k.describe x ++ ")"
  | copy _, .error e => "Err(" ++ Text.quoted e.message ++ ")"

end Kind

end CheckedFlow
