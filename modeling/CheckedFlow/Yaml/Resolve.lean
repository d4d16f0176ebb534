import CheckedFlow.Decimal.Reading
import CheckedFlow.Decoding.Fault
import CheckedFlow.Yaml.Event

/-!
# What scalars mean

A plain scalar stands for nothing, a truth value, a number or a text, as it is spelled. Quoted and
block scalars are texts. A tag of the standard can ask for one of these meanings; a tag that is the
document's own changes nothing, and with any other tag a scalar is a text.

* `Event.found`: what an event is, as faults tell it.
* `Event.natural?`: the natural number that an event writes.
-/

namespace CheckedFlow.Yaml

open Decoding

/-- The spellings of nothing. -/
def isNull (s : String) : Bool := ["null", "Null", "NULL", "~"].contains s

/-- The truth value that a spelling stands for. -/
def truth? (s : String) : Option Bool :=
  if ["true", "True", "TRUE"].contains s then some true
  else if ["false", "False", "FALSE"].contains s then some false
  else none

/-- The number that `cs` writes in digits to the base `base`; there is at least one digit. -/
def numberIn (base : Nat) (cs : List Char) : Option Nat :=
  if cs.isEmpty then none
  else
    cs.foldl
      (fun n c => do
        let d ← Bytes.hexDigit? c
        if d < base then return base * (← n) + d else none)
      (some 0)

/-- Digits with a zero in front, after an optional sign: a text, not a number. -/
def isPadded (cs : List Char) : Bool :=
  let ds :=
    match cs with
    | '-' :: ds | '+' :: ds => ds
    | ds => ds
  match ds with
  | '0' :: d :: ds => (d :: ds).all Char.isDigit
  | _ => false

/-- The natural number of a spelling behind its sign, in decimal digits or after a mark of another
base. -/
def magnitude? (padded : Bool) (cs : List Char) : Option Nat :=
  let marked :=
    match cs with
    | '0' :: 'x' :: ds => numberIn 16 ds
    | '0' :: 'o' :: ds => numberIn 8 ds
    | '0' :: 'b' :: ds => numberIn 2 ds
    | _ => none
  match marked with
  | some n => some n
  | none => if padded then none else numberIn 10 cs

/-- The integer that a spelling stands for. -/
def integer? (s : String) : Option Int :=
  let cs := s.toList
  match cs with
  | '-' :: rest => (magnitude? (isPadded cs) rest).map fun n => -(n : Int)
  | '+' :: rest => (magnitude? (isPadded cs) rest).map Int.ofNat
  | _ => (magnitude? (isPadded cs) cs).map Int.ofNat

/-- The float that a spelling stands for. -/
def float? (s : String) : Option Float :=
  let unsigned :=
    match s.toList with
    | '+' :: rest => if rest.head? = some '-' ∨ rest.head? = some '+' then none else some rest
    | cs => some cs
  unsigned.bind fun cs =>
    let t := String.ofList cs
    if [".inf", ".Inf", ".INF"].contains t then some (1.0 / 0.0)
    else if ["-.inf", "-.Inf", "-.INF"].contains s then some (-1.0 / 0.0)
    else if [".nan", ".NaN", ".NAN"].contains s then some (0.0 / 0.0)
    else
      match Decimal.readFloat? t with
      | some x => if x.isFinite then some x else none
      | none => none

/-- An integer as faults tell it; beyond 64 bits with the range that it needs, beyond 128 bits it is
no integer. -/
def foundInteger? (n : Int) : Option Found :=
  if 0 ≤ n then
    if n < UInt64.size then some (.integer n)
    else if n < 0x100000000000000000000000000000000 then some (.wide n "u128")
    else none
  else if -0x8000000000000000 ≤ n then some (.integer n)
  else if -0x80000000000000000000000000000000 ≤ n then some (.wide n "i128")
  else none

/-- What a plain spelling stands for. -/
def plainFound (s : String) : Found :=
  if s.isEmpty ∨ isNull s then .nothing
  else
    match truth? s with
    | some b => .boolean b
    | none =>
      match (integer? s).bind foundInteger? with
      | some found => found
      | none =>
        if isPadded s.toList then .text s
        else
          match float? s with
          | some x => .float x
          | none => .text s

namespace Event

/-- The node that the event stands for. -/
def target : Event → Event
  | reference e => e
  | e => e

/-- The tag asks for the meaning `name`. -/
def asksFor (tag : Option Tag) (name : String) : Bool := tag == some (Tag.standard name)

/-- The fault of an event where `wanted` is wanted. -/
def mismatch (e : Event) (wanted : String) : Fault :=
  match e.target with
  | scalar s style tag =>
    let spelled (found : Option Found) (meaning : String) : Fault :=
      match found with
      | some found => .wrongKind found wanted
      | none => .wrongValue (.text s) meaning
    if asksFor tag "bool" then spelled ((truth? s).map .boolean) "a boolean"
    else if asksFor tag "int" then spelled ((integer? s).bind foundInteger?) "an integer"
    else if asksFor tag "float" then spelled ((float? s).map .float) "a float"
    else if asksFor tag "null" then spelled (if isNull s then some .nothing else none) "null"
    else if tag.all Tag.isLocal ∧ style = .plain then .wrongKind (plainFound s) wanted
    else .wrongKind (.text s) wanted
  | sequenceStart _ => .wrongKind .sequence wanted
  | mappingStart _ => .wrongKind .mapping wanted
  | _ => .malformed

/-- The natural number of 64 bits that the event writes. -/
def natural? (e : Event) : Option Nat :=
  match e.target with
  | scalar s style tag =>
    if style = .plain ∨ (style = .literal ∧ asksFor tag "int") then
      match integer? s with
      | some n => if 0 ≤ n ∧ n < UInt64.size ∧ s.toList.head? ≠ some '-' then some n.toNat else none
      | none => none
    else none
  | _ => none

/-- The text of a scalar. -/
def text? (e : Event) : Option String :=
  match e.target with
  | scalar s .. => some s
  | _ => none

end Event

end CheckedFlow.Yaml
