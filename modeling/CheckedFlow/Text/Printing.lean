import CheckedFlow.Text.Extending
import CheckedFlow.Text.Hidden

/-!
# Characters that messages do not print as they are

`isPrinting` says that a character can be read where it stands: it shows something, and it does not
join the character before it.
-/

namespace CheckedFlow.Text

/-- The number `n` lies in one of the inclusive ranges, which are in increasing order. -/
def inRanges (n : Nat) : List (Nat × Nat) → Bool
  | [] => false
  | (low, high) :: ranges => if n < low then false else n ≤ high || inRanges n ranges

/-- The character can be read where it stands. -/
def isPrinting (c : Char) : Bool :=
  let n := c.toNat
  if n < 0x7F then 0x20 ≤ n else n != 0x7F && !inRanges n hidden && !inRanges n extending

end CheckedFlow.Text
