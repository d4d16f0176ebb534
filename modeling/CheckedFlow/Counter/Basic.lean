/-!
# Counters and their values

Stages count events by name. A counter belongs to its name and to the stage that counts. A
`CounterTable` holds the values that the counters of a run have at some moment, in the order of their
keys; being a value, it never changes.

* `CounterTable.get`, `CounterTable.total`, `CounterTable.stages`: the value of a counter, the sum
  over all stages with a counter of a name, and these stages in order.
-/

namespace CheckedFlow

/-- A counter's name and the stage that counts. -/
structure CounterKey where
  counter : String
  stage : String
deriving DecidableEq, Repr

namespace CounterKey

/-- `a` comes before `b`: by the counter's name, then by the stage. -/
def before (a b : CounterKey) : Bool :=
  a.counter < b.counter || (a.counter == b.counter && a.stage < b.stage)

/-- `keys`, in increasing order, with `key` at its place, once. -/
def insert (key : CounterKey) : List CounterKey → List CounterKey
  | [] => [key]
  | k :: keys =>
    if key.before k then key :: k :: keys
    else if key = k then k :: keys
    else k :: insert key keys

end CounterKey

/-- The values of counters, in increasing order of their keys. -/
structure CounterTable where
  entries : List (CounterKey × UInt64)
deriving DecidableEq, Repr

namespace CounterTable

/-- No counter. -/
def empty : CounterTable := ⟨[]⟩

/-- The value of a counter; one that is not in the table is zero. -/
def get (t : CounterTable) (key : CounterKey) : UInt64 := (t.entries.lookup key).getD 0

/-- The entries of the counters with a name. -/
def named (t : CounterTable) (counter : String) : List (CounterKey × UInt64) :=
  t.entries.filter fun e => e.1.counter = counter

/-- The stages with a counter of the name, in increasing order. -/
def stages (t : CounterTable) (counter : String) : List String :=
  (t.named counter).map fun e => e.1.stage

/-- The sum of a counter over all stages. -/
def total (t : CounterTable) (counter : String) : UInt64 :=
  (t.named counter).foldl (fun sum e => sum + e.2) 0

/-- There is no counter. -/
def isEmpty (t : CounterTable) : Bool := t.entries.isEmpty

end CounterTable

end CheckedFlow
