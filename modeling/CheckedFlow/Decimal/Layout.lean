import CheckedFlow.Decimal.Shortest
import CheckedFlow.Text.Numeral

/-!
# The written form of floats

A `Layout` says how a format writes the shortest decimal of a float: which magnitudes stand in
positional notation, how an exponent is signed, and the words for what has no digits.

* `Layout.message`: the form in messages, `1.0`, `1e16`, `1e-5`.
* `Layout.plain`: never an exponent, `10000000000000000`, `0.00001`.
* `Layout.json`: the form in JSON documents, `1.0`, `1e+16`, `0.00001`.
-/

namespace CheckedFlow.Decimal

/-- The decisions of a format about floats. -/
structure Layout where
  /-- The least power of ten of a first digit that is written without an exponent. -/
  least : Int
  /-- The greatest power of ten of a first digit that is written without an exponent. -/
  most : Int
  /-- A positive exponent has a plus sign. -/
  plus : Bool
  /-- A whole number ends in `.0`. -/
  pointed : Bool

namespace Layout

/-- Exponents from `1e16` up and below `1e-4`. -/
def message : Layout := ⟨-4, 15, false, true⟩

/-- Positional notation for every float. -/
def plain : Layout := ⟨-400, 400, false, false⟩

/-- Exponents from `1e+16` up and below `1e-5`. -/
def json : Layout := ⟨-5, 15, true, true⟩

/-- The digits with a point after the first `n` of them. -/
def pointAfter (n : Nat) (digits : List Char) : String :=
  match digits.drop n with
  | [] => String.ofList (digits.take n)
  | fraction => String.ofList (digits.take n) ++ "." ++ String.ofList fraction

/-- Positional notation. -/
def positional (l : Layout) (d : Decimal) : String :=
  let digits := d.digits
  if d.magnitude < 0 then
    "0." ++ String.ofList (List.replicate (-d.magnitude - 1).toNat '0' ++ digits)
  else
    let text := pointAfter (d.magnitude + 1).toNat
      (digits ++ List.replicate d.exponent.toNat '0')
    if l.pointed ∧ 0 ≤ d.exponent then text ++ ".0" else text

/-- One digit, a point, the other digits and the power of ten of the first. -/
def scientific (l : Layout) (d : Decimal) : String :=
  let sign := if l.plus ∧ 0 ≤ d.magnitude then "+" else ""
  pointAfter 1 d.digits ++ "e" ++ sign ++ Text.signed d.magnitude

/-- A finite number without its sign. -/
def unsigned (l : Layout) (d : Decimal) : String :=
  if l.least ≤ d.magnitude ∧ d.magnitude ≤ l.most then l.positional d else l.scientific d

/-- The written form of `x`. -/
def write (l : Layout) (x : Float) : String :=
  match Binary.ofFloat? x with
  | none => if x.isNaN then "NaN" else if isNegative x then "-inf" else "inf"
  | some b =>
    let text := l.unsigned (shortest b)
    if isNegative x then "-" ++ text else text

end Layout

end CheckedFlow.Decimal
