import CheckedFlow.Bytes
import CheckedFlow.Decoding.Fault

/-!
# Numbers in JSON documents

A number without fraction and exponent that fits 64 bits is whole. Every other number is a float,
computed from the first digits that fit 64 bits and a power of ten in float arithmetic, so it can
differ from the nearest float in its last place. A number beyond every float is malformed, and so is
one with a zero before other digits.
-/

namespace CheckedFlow.Json

open Decoding

/-- A number of a document. -/
inductive Number where
  | whole (value : Int)
  | float (value : Float)

namespace Number

/-- The number as it is told in faults. -/
def found : Number → Found
  | whole n => .integer n
  | float x => .float x

end Number

/-- The value of an ASCII decimal digit. -/
def digit? (b : UInt8) : Option Nat := Text.digit? (Char.ofUInt8 b)

/-- The values of the digits at the start of the bytes, and the rest. -/
def spanDigits : Bytes → List Nat × Bytes
  | [] => ([], [])
  | b :: bs =>
    match digit? b with
    | some d => let (ds, rest) := spanDigits bs; (d :: ds, rest)
    | none => ([], b :: bs)

/-- The digits of a number's parts. -/
structure Numeral where
  negative : Bool
  whole : List Nat
  fraction : List Nat
  /-- Whether the exponent is negative, and its digits. -/
  exponent : Option (Bool × List Nat)

namespace Numeral

/-- Digits gathered into a significand of 64 bits: the significand, how many digits it has
taken, and how many were left. -/
def gather (significand : Nat) : List Nat → Nat × Nat × Nat
  | [] => (significand, 0, 0)
  | d :: ds =>
    if 10 * significand + d < UInt64.size then
      let (s, taken, left) := gather (10 * significand + d) ds
      (s, taken + 1, left)
    else (significand, 0, ds.length + 1)

/-- `x * 10 ^ e` by one multiplication or division by a power of ten that is a float; a smaller
number is first divided by `10 ^ 308` as often as needed, at most `fuel` times. -/
def scale (x : Float) (e : Int) : Nat → Option Float
  | 0 => some 0.0
  | fuel + 1 =>
    if 0 ≤ e then
      if x == 0.0 ∧ 308 < e then some x
      else if 308 < e then none
      else
        let y := x * Float.ofScientific 1 false e.toNat
        if y.isFinite then some y else none
    else if -308 ≤ e then some (x / Float.ofScientific 1 false (-e).toNat)
    else if x == 0.0 then some x
    else scale (x / Float.ofScientific 1 false 308) (e + 308) fuel

/-- The size of the number as a float; none beyond every float. -/
def size? (n : Numeral) : Option Float :=
  let (s, _, left) := gather 0 n.whole
  let (s, taken, _) := gather s n.fraction
  let start : Int := (left : Int) - taken
  let x := (UInt64.ofNat s).toFloat
  match n.exponent with
  | none => scale x start 16
  | some (below, ds) =>
    let e := ds.foldl (fun (e d : Nat) => 10 * e + d) 0
    if e < 0x80000000 then scale x (if below then start - e else start + e) 16
    else if s ≠ 0 ∧ ¬ below then none
    else some 0.0

/-- The number that a numeral writes. -/
def value? (n : Numeral) : Option Number :=
  let whole := n.whole.foldl (fun (m d : Nat) => 10 * m + d) 0
  let isWhole := n.fraction.isEmpty && n.exponent.isNone
  if isWhole ∧ ¬ n.negative ∧ whole < UInt64.size then some (.whole whole)
  else if isWhole ∧ n.negative ∧ whole ≠ 0 ∧ whole ≤ 0x8000000000000000 then some (.whole (-(whole : Int)))
  else n.size?.map fun x => .float (if n.negative then -x else x)

end Numeral

/-- The digits of a fraction at the start of the bytes, if a point stands there. -/
def readFraction : Bytes → Except Fault (List Nat × Bytes)
  | 0x2E :: bs =>
    let (ds, rest) := spanDigits bs
    if ds.isEmpty then .error .malformed else .ok (ds, rest)
  | bs => .ok ([], bs)

/-- The exponent at the start of the bytes, if there is one. -/
def readExponent : Bytes → Except Fault (Option (Bool × List Nat) × Bytes)
  | [] => .ok (none, [])
  | b :: bs =>
    if b = 0x65 ∨ b = 0x45 then
      let (below, bs) :=
        match bs with
        | 0x2D :: bs => (true, bs)
        | 0x2B :: bs => (false, bs)
        | bs => (false, bs)
      let (ds, rest) := spanDigits bs
      if ds.isEmpty then .error .malformed else .ok (some (below, ds), rest)
    else .ok (none, b :: bs)

/-- The numeral at the start of the bytes. -/
def readNumeral (bs : Bytes) : Except Fault (Numeral × Bytes) := do
  let (negative, bs) : Bool × Bytes :=
    match bs with
    | 0x2D :: bs => (true, bs)
    | bs => (false, bs)
  let (whole, bs) := spanDigits bs
  if whole.isEmpty ∨ (whole.head? = some 0 ∧ whole.length ≠ 1) then throw .malformed
  let (fraction, bs) ← readFraction bs
  let (exponent, bs) ← readExponent bs
  return (⟨negative, whole, fraction, exponent⟩, bs)

end CheckedFlow.Json
