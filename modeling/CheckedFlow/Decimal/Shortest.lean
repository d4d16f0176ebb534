/-!
# The shortest decimal of a float

A finite positive float is `m · 2 ^ q`. The reals that round to it form an interval around it, with
its ends included exactly when `m` is even. Among the decimals in that interval those with the
fewest digits are the shortest, and of these the one nearest to the float is `shortest`.

* `Binary.ofFloat?`: the parts `m` and `q` of a float, with its sign.
* `Interval.contains`: whether a decimal rounds to the float, in exact integer arithmetic.
* `shortest`: the first decimal found with one digit, two digits, and so on to seventeen.
-/

namespace CheckedFlow

/-- The decimal `coefficient * 10 ^ exponent`. -/
structure Decimal where
  coefficient : Nat
  exponent : Int
deriving DecidableEq, Repr

namespace Decimal

/-- The digits of the coefficient, the most significant first. -/
def digits (d : Decimal) : List Char := Nat.toDigits 10 d.coefficient

/-- The power of ten of the first digit. -/
def magnitude (d : Decimal) : Int := d.exponent + d.digits.length - 1

/-- The same number without zeros at the end of the coefficient; `fuel` bounds their count. -/
def withoutZeros : Nat → Decimal → Decimal
  | 0, d => d
  | fuel + 1, d =>
    if d.coefficient ≠ 0 ∧ d.coefficient % 10 = 0 then
      withoutZeros fuel ⟨d.coefficient / 10, d.exponent + 1⟩
    else d

/-- A finite float without its sign: the number `mantissa * 2 ^ exponent`. -/
structure Binary where
  mantissa : Nat
  exponent : Int
deriving DecidableEq, Repr

namespace Binary

/-- The bound of the fraction's bits as a number, which is the leading bit of a normal mantissa. -/
def leadingBit : Nat := 0x10000000000000

/-- The exponent's bits of infinities and of what is not a number. -/
def topExponent : Nat := 0x7FF

/-- The significand with the leading bit of a normal number, and the power of two of its last bit;
none for infinities and for what is not a number. -/
def ofFloat? (x : Float) : Option Binary :=
  let bits : Nat := x.toBits.toNat
  let biased : Nat := bits / leadingBit % (topExponent + 1)
  let fraction : Nat := bits % leadingBit
  if biased = topExponent then none
  else if biased = 0 then some ⟨fraction, -1074⟩
  else some ⟨leadingBit + fraction, (biased : Int) - 1075⟩

end Binary

/-- Whether the sign bit of `x` is set. -/
def isNegative (x : Float) : Bool := 0x8000000000000000 ≤ x.toBits.toNat

/-- The reals that round to a float, as multiples of `1 / unit`. -/
structure Interval where
  low : Nat
  value : Nat
  high : Nat
  unit : Nat
  closed : Bool
deriving DecidableEq, Repr

namespace Interval

/-- The halves of the gaps to the float's neighbours; below a power of two the gap is half as wide
as above it. -/
def around (b : Binary) : Interval :=
  let up := Nat.pow 2 b.exponent.toNat
  let below := if b.mantissa = Binary.leadingBit ∧ b.exponent ≠ -1074 then 1 else 2
  ⟨(4 * b.mantissa - below) * up, 4 * b.mantissa * up, (4 * b.mantissa + 2) * up,
    4 * Nat.pow 2 (-b.exponent).toNat, b.mantissa % 2 = 0⟩

/-- The decimal lies in the interval. -/
def contains (i : Interval) (d : Decimal) : Bool :=
  let scale := Nat.pow 10 (-d.exponent).toNat
  let point := d.coefficient * Nat.pow 10 d.exponent.toNat * i.unit
  if i.closed then i.low * scale ≤ point && point ≤ i.high * scale
  else i.low * scale < point && point < i.high * scale

/-- The power of ten of the value's first digit. -/
def magnitude (i : Interval) : Int :=
  if i.unit ≤ i.value then ((Nat.toDigits 10 (i.value / i.unit)).length : Int) - 1
  else -((Nat.toDigits 10 ((i.unit + i.value - 1) / i.value - 1)).length : Int)

/-- The value in units of `10 ^ e`: the whole part, then the remainder and the divisor that its
fraction is made of. -/
def split (i : Interval) (e : Int) : Nat × Nat × Nat :=
  let numerator := i.value * Nat.pow 10 (-e).toNat
  let divisor := i.unit * Nat.pow 10 e.toNat
  (numerator / divisor, numerator % divisor, divisor)

/-- Of the two multiples of `10 ^ e` next to the value the one in the interval; of two the nearer,
and in the middle the even one. -/
def nearest? (i : Interval) (e : Int) : Option Decimal :=
  let (whole, rest, divisor) := i.split e
  let lower : Decimal := ⟨whole, e⟩
  let upper : Decimal := ⟨whole + 1, e⟩
  match whole ≠ 0 && i.contains lower, i.contains upper with
  | true, true =>
    if 2 * rest < divisor ∨ (2 * rest = divisor ∧ whole % 2 = 0) then some lower else some upper
  | true, false => some lower
  | false, true => some upper
  | false, false => none

end Interval

/-- The first decimal in the interval with at least `17 - more` digits and at most 17. -/
def shortestFrom (i : Interval) (magnitude : Int) : Nat → Option Decimal
  | 0 => none
  | more + 1 =>
    match i.nearest? (magnitude - (16 - more)) with
    | some d => some (d.withoutZeros 20)
    | none => shortestFrom i magnitude more

/-- The shortest decimal that rounds to the float `b`; zero has the digit 0. -/
def shortest (b : Binary) : Decimal :=
  if b.mantissa = 0 then ⟨0, 0⟩
  else
    let i := Interval.around b
    (shortestFrom i i.magnitude 17).getD ⟨0, 0⟩

end Decimal

end CheckedFlow
