/-!
# Numerals

Reading a natural number below a given bound from decimal digits.

* `digit?`: the value of a decimal digit.
* `readBounded`: the number of a numeral with an optional plus sign, or the first fault met reading
  from the left: a character that is no digit, or the digit with which the bound is reached.
* `decimal`: the digits of a natural number, `signed` the same with a sign for an integer.
-/

namespace CheckedFlow.Text

/-- Why a text is no numeral of the wanted range. -/
inductive NumeralFault where
  | empty
  | badDigit
  | tooLarge
deriving DecidableEq, Repr

namespace NumeralFault

/-- The wording of a numeral's fault. -/
def message : NumeralFault → String
  | empty => "cannot parse integer from empty string"
  | badDigit => "invalid digit found in string"
  | tooLarge => "number too large to fit in target type"

end NumeralFault

/-- The value of an ASCII decimal digit. -/
def digit? (c : Char) : Option Nat := if c.isDigit then some (c.toNat - '0'.toNat) else none

/-- The number that the digits `cs` append to `value`, if it stays below `bound`. -/
def readDigits (bound : Nat) : Nat → List Char → Except NumeralFault Nat
  | value, [] => .ok value
  | value, c :: cs =>
    match digit? c with
    | none => .error .badDigit
    | some d =>
      if 10 * value + d < bound then readDigits bound (10 * value + d) cs else .error .tooLarge

/-- The natural number below `bound` that `s` writes in decimal digits, after an optional plus. -/
def readBounded (bound : Nat) (s : String) : Except NumeralFault Nat :=
  match s.toList with
  | [] => .error .empty
  | ['+'] => .error .badDigit
  | '+' :: cs => readDigits bound 0 cs
  | cs => readDigits bound 0 cs

/-- The decimal digits of `n`. -/
def decimal (n : Nat) : String := String.ofList (Nat.toDigits 10 n)

/-- The decimal digits of `n`, after a minus sign if it is negative. -/
def signed (n : Int) : String := if n < 0 then "-" ++ decimal n.natAbs else decimal n.natAbs

end CheckedFlow.Text
