import CheckedFlow.Bytes
import CheckedFlow.Counter.Basic

/-!
# Counting

A counter exists from the moment a stage asks for it. Its value is in a cell, which is found by a
digest of the counter's name with the stage's name behind it. Counters with the same digest share a
cell: so do `ab` in stage `c` and `a` in stage `bc`. The first of them is the owner of the cell.

* `Counters.touch`, `Counters.add`: ask for a counter, and count; counts wrap at 64 bits.
* `Counters.table`: the values of all counters that were asked for.
-/

namespace CheckedFlow

/-- The digest of a byte string in 64 bits: every byte is mixed into the lowest bits, which a
multiplication spreads. -/
def digest (bytes : Bytes) : UInt64 :=
  bytes.foldl (fun h b => (h ^^^ b.toUInt64) * 0x100000001B3) 0xCBF29CE484222325

/-- The digest that a counter's cell is found by. -/
def CounterKey.digest (key : CounterKey) : UInt64 :=
  CheckedFlow.digest (Bytes.ofText key.counter ++ Bytes.ofText key.stage)

/-- A place where counts are summed up. -/
structure CounterCell where
  digest : UInt64
  /-- The counter that was asked for first. -/
  owner : CounterKey
  count : UInt64
deriving DecidableEq, Repr

/-- The counters of a run. -/
structure Counters where
  /-- The counters that were asked for, in increasing order. -/
  keys : List CounterKey
  /-- Their cells, in the order in which they came to be. -/
  cells : List CounterCell
deriving DecidableEq, Repr

namespace Counters

/-- Nobody asked for a counter. -/
def empty : Counters := ⟨[], []⟩

/-- `cells` with the count for `digest` changed by `f`; a new cell belongs to `key` and counts from
zero. -/
def updateCells (key : CounterKey) (digest : UInt64) (f : UInt64 → UInt64) :
    List CounterCell → List CounterCell
  | [] => [⟨digest, key, f 0⟩]
  | c :: cells =>
    if c.digest = digest then { c with count := f c.count } :: cells
    else c :: updateCells key digest f cells

/-- The counters after a stage asked for one and changed its count by `f`. -/
def update (c : Counters) (key : CounterKey) (f : UInt64 → UInt64) : Counters :=
  ⟨key.insert c.keys, updateCells key key.digest f c.cells⟩

/-- The counters after a stage asked for one. -/
def touch (c : Counters) (key : CounterKey) : Counters := c.update key id

/-- The counters after a stage asked for one and added `n` to it. -/
def add (c : Counters) (key : CounterKey) (n : UInt64) : Counters := c.update key (· + n)

/-- The count in the cell of a counter. -/
def count (c : Counters) (key : CounterKey) : UInt64 :=
  ((c.cells.find? fun cell => cell.digest = key.digest).map CounterCell.count).getD 0

/-- The values of the counters that were asked for. -/
def table (c : Counters) : CounterTable := ⟨c.keys.map fun key => (key, c.count key)⟩

end Counters

end CheckedFlow
