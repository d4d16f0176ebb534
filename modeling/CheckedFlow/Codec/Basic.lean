import CheckedFlow.Bytes
import CheckedFlow.Element.Document

/-!
# Codecs

A codec moves values of one type through byte strings. Its contract is that decoding undoes
encoding; `Codec.RoundTrips` states it for one value. `Codec.json` is the codec of every kind of
element that needs no choice by a caller.
-/

namespace CheckedFlow

/-- Encodes and decodes values of one type. -/
structure Codec (α : Type) where
  /-- The name of the format. -/
  format : String := "custom"
  encode : α → Except SerializationError Bytes
  decode : Bytes → Except SerializationError α

namespace Codec

variable {α : Type}

/-- A deep copy: encoded and decoded again. -/
def copy (c : Codec α) (x : α) : Except SerializationError α := do
  c.decode (← c.encode x)

/-- The copy of `x` is `x`. -/
def RoundTrips (c : Codec α) (x : α) : Prop := c.copy x = .ok x

/-- The JSON codec of a kind. -/
def json (k : Kind) : Codec k.Value := ⟨"JSON", k.encodeJson, k.decodeJson⟩

end Codec

end CheckedFlow
