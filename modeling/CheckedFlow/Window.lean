import CheckedFlow.Text.Numeral
import CheckedFlow.Text.Quoted

/-!
# Windows

Elements carry a timestamp in milliseconds and belong to a window: the global one, which spans all
time, or a half-open interval. A window function gives a timestamp its window; `fixed size` cuts
time into intervals that start at the multiples of `size`, with bounds outside the range of
timestamps moved to its ends.

* `Window.contains`, `Window.compare`: membership and the order of windows.
* `WindowFn.assign`: the window of a timestamp.
* `WindowFn.validate`: only positive sizes are accepted. For a few others no quotient exists
  (`WindowFn.assigns`).
* `Windowed`: an element with its timestamp and window.
-/

namespace CheckedFlow

/-- Milliseconds, in 64 signed bits. -/
abbrev Timestamp := Int64

/-- The timestamp of elements that have none of their own. -/
def Timestamp.least : Timestamp := Int64.minValue

/-- The window an element belongs to. -/
inductive Window where
  /-- The window that spans all time. -/
  | global
  /-- The timestamps from `start` up to and without `stop`. -/
  | interval (start stop : Timestamp)
deriving DecidableEq, Repr

namespace Window

/-- The timestamp lies in the window. -/
def contains (w : Window) (t : Timestamp) : Bool :=
  match w with
  | global => true
  | interval start stop => start ≤ t && t < stop

/-- The global window comes first, then the intervals by start and by stop. -/
def compare : Window → Window → Ordering
  | global, global => .eq
  | global, interval .. => .lt
  | interval .., global => .gt
  | interval s e, interval s' e' => (Ord.compare s.toInt s'.toInt).then (Ord.compare e.toInt e'.toInt)

/-- `v` comes before `w` or equals it. -/
def le (v w : Window) : Bool := v.compare w != .gt

/-- The written form of a window. -/
def text : Window → String
  | global => "GlobalWindow"
  | interval s e => "[" ++ Text.signed s.toInt ++ ", " ++ Text.signed e.toInt ++ ")"

/-- The text of a window in messages. -/
def describe : Window → String
  | global => "Global"
  | interval s e =>
    Text.record "Interval" [("start_ms", Text.signed s.toInt), ("end_ms", Text.signed e.toInt)]

end Window

/-- Gives every timestamp a window. -/
inductive WindowFn where
  | global
  /-- Intervals of `size` milliseconds, aligned to the multiples of `size`. -/
  | fixed (size : Int64)
deriving DecidableEq, Repr

namespace WindowFn

/-- The quotient that `assign` needs exists and fits the range of timestamps. -/
def assigns (f : WindowFn) (t : Timestamp) : Bool :=
  match f with
  | global => true
  | fixed size => size != 0 && !(t == Int64.minValue && size == -1)

/-- The window of a timestamp. -/
def assign (f : WindowFn) (t : Timestamp) : Window :=
  match f with
  | global => .global
  | fixed size =>
    let start := Int64.ofIntClamp (t.toInt / size.toInt * size.toInt)
    .interval start (Int64.ofIntClamp (start.toInt + size.toInt))

/-- The size that `validate` refuses, if it refuses the function. -/
def invalidSize? : WindowFn → Option Int64
  | global => none
  | fixed size => if size ≤ 0 then some size else none

/-- The message for a size that is not positive. -/
def sizeMessage (size : Int64) : String :=
  "fixed window size must be positive, got " ++ Text.signed size.toInt ++ "ms"

/-- The text of a window function in messages. -/
def describe : WindowFn → String
  | global => "Global"
  | fixed size => Text.record "Fixed" [("size_ms", Text.signed size.toInt)]

end WindowFn

/-- An element with its timestamp and window. -/
structure Windowed (α : Type) where
  value : α
  timestamp : Timestamp
  window : Window

namespace Windowed

/-- An element in the global window with a timestamp of its own. -/
def stamped {α : Type} (value : α) (t : Timestamp) : Windowed α := ⟨value, t, .global⟩

/-- An element in the global window without a timestamp of its own. -/
def unstamped {α : Type} (value : α) : Windowed α := ⟨value, Timestamp.least, .global⟩

end Windowed

end CheckedFlow
