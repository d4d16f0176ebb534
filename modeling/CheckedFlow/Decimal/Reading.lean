import CheckedFlow.Text.Blank
import CheckedFlow.Text.Numeral

/-!
# Reading floats

`readFloat?` reads a float from text: an optional sign, then a word for infinity or for what is not
a number in any case of letters, or digits with an optional point and an optional exponent. The
number is the float nearest to the decimal.
-/

namespace CheckedFlow.Decimal

/-- The digits at the start of `cs` and the rest. -/
def spanDigits (cs : List Char) : List Char × List Char := cs.span Char.isDigit

/-- The number with the digits `ds`. -/
def natOfDigits (ds : List Char) : Nat :=
  ds.foldl (fun n c => 10 * n + (c.toNat - '0'.toNat)) 0

/-- The float nearest to `coefficient * 10 ^ exponent`. A decimal beyond every float is infinite
and one below half the least float is zero, so no power outside that range is computed. -/
def nearestFloat (coefficient : Nat) (exponent : Int) : Float :=
  let magnitude := exponent + (Nat.toDigits 10 coefficient).length
  if coefficient = 0 ∨ magnitude < -400 then 0.0
  else if 400 < magnitude then 1.0 / 0.0
  else Float.ofScientific coefficient (exponent < 0) exponent.natAbs

/-- The exponent that `cs` writes, when it is nothing else. -/
def readExponent? (cs : List Char) : Option Int :=
  let (negative, ds) :=
    match cs with
    | '-' :: ds => (true, ds)
    | '+' :: ds => (false, ds)
    | ds => (false, ds)
  if ds ≠ [] ∧ ds.all Char.isDigit then
    let n : Int := natOfDigits ds
    some (if negative then -n else n)
  else none

/-- A float without a sign in digits: the whole part or the fraction may be absent, not both. -/
def readUnsigned? (cs : List Char) : Option Float :=
  let (whole, rest) := spanDigits cs
  let (fraction, rest) :=
    match rest with
    | '.' :: rest => spanDigits rest
    | rest => ([], rest)
  if whole = [] ∧ fraction = [] then none
  else
    let coefficient := natOfDigits (whole ++ fraction)
    match rest with
    | [] => some (nearestFloat coefficient (-(fraction.length : Int)))
    | 'e' :: rest | 'E' :: rest =>
      (readExponent? rest).map fun e => nearestFloat coefficient (e - fraction.length)
    | _ => none

/-- The float that `s` writes. -/
def readFloat? (s : String) : Option Float :=
  let (negative, cs) :=
    match s.toList with
    | '-' :: cs => (true, cs)
    | '+' :: cs => (false, cs)
    | cs => (false, cs)
  let word := Text.lowerAscii (String.ofList cs)
  let size :=
    if word = "inf" ∨ word = "infinity" then some (1.0 / 0.0)
    else if word = "nan" then some (0.0 / 0.0)
    else readUnsigned? cs
  size.map fun x => if negative then -x else x

end CheckedFlow.Decimal
