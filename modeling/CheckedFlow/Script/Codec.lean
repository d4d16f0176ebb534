import CheckedFlow.Codec.Keyed

/-!
# Codecs that scripts name

A script chooses among a few codecs. Apart from JSON they are there to be noticed: one changes what
it copies, one refuses everything, one refuses what it is told to.

* `CodecSpec.codec?`: the codec of a kind that a description names, if the kind has one.
-/

namespace CheckedFlow.Script

/-- The description of a codec. -/
inductive CodecSpec where
  | json
  /-- JSON, with every decoded value changed. -/
  | bump
  /-- Refuses every value and all bytes. -/
  | reject
  /-- JSON, except for values whose document is listed. -/
  | picky (encodeReject decodeReject : List String)
  /-- The frames of the items or entries, by a codec for them. -/
  | framed (inner : CodecSpec)
deriving DecidableEq, Repr

/-- A value that differs from `x`, for the kinds for which a change is defined. -/
def bumped : (k : Kind) → k.Value → k.Value
  | .integer, n => n + 1
  | .text, s => s ++ "'"
  | .entry _ l, x => (x.1, bumped l x.2)
  | .list k, xs => xs.map (bumped k)
  | _, x => x

/-- JSON, with every decoded value changed. -/
def bumpCodec (k : Kind) : Codec k.Value :=
  ⟨"bump", k.encodeJson, fun bytes => bumped k <$> k.decodeJson bytes⟩

/-- Refuses every value and all bytes. -/
def rejectCodec (α : Type) : Codec α :=
  ⟨"reject", fun _ => .error (.unsupported "nope"), fun _ => .error (.framing (.told "nope"))⟩

/-- What a picky codec says of a listed document. -/
def rejected (document : String) : String := "rejected " ++ document

/-- JSON, except for values whose document is listed. -/
def pickyCodec (k : Kind) (encodeReject decodeReject : List String) : Codec k.Value where
  encode x := do
    let bytes ← k.encodeJson x
    match encodeReject.find? fun t => Bytes.ofText t = bytes with
    | some t => throw (.encoding (.told (rejected t)))
    | none => return bytes
  decode bytes :=
    match decodeReject.find? fun t => Bytes.ofText t = bytes with
    | some t => .error (.decoding (.told (rejected t)))
    | none => k.decodeJson bytes

namespace CodecSpec

/-- The codec of a kind that a description names. Only lists and dictionaries can be framed. -/
def codec? : CodecSpec → (k : Kind) → Option (Codec k.Value)
  | json, k => some (.json k)
  | bump, k => some (bumpCodec k)
  | reject, k => some (rejectCodec k.Value)
  | picky encodeReject decodeReject, k => some (pickyCodec k encodeReject decodeReject)
  | framed inner, .list k => Codec.list <$> inner.codec? k
  | framed inner, .dictionary key k =>
    Codec.dictionary key.describe <$> inner.codec? (.entry key k)
  | framed _, _ => none

end CodecSpec

end CheckedFlow.Script
