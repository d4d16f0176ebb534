import CheckedFlow.Codec.Basic

/-!
# Frames

A list is encoded as the number of its items and then, for each item, the length of the item's
encoding and the encoding itself. Counts and lengths take four bytes, the most significant first.

* `encodeFrames`: fails with the first item that has no encoding.
* `decodeFrames`: reads from the left and fails with the first fault met: less than a length is
  left, a frame is longer than the rest, an item has no value, bytes follow the last frame.
* `Framed`: the byte strings of this form and the contents of their frames.
* `Codec.list`: the codec of lists.
-/

namespace CheckedFlow

/-- A count or length in four bytes. -/
def encodeLength (n : Nat) : Except SerializationError Bytes :=
  if n < UInt32.size then .ok (Bytes.ofLength n) else .error (.encoding (.tooLong n))

/-- The frames of `items`, without their count. -/
def encodeItems {α : Type} (encode : α → Except SerializationError Bytes) :
    List α → Except SerializationError Bytes
  | [] => .ok []
  | x :: xs => do
    let bytes ← encode x
    let length ← encodeLength bytes.length
    let rest ← encodeItems encode xs
    return length ++ bytes ++ rest

/-- The encoding of a list of items. -/
def encodeFrames {α : Type} (encode : α → Except SerializationError Bytes) (items : List α) :
    Except SerializationError Bytes := do
  let count ← encodeLength items.length
  let frames ← encodeItems encode items
  return count ++ frames

/-- The length at `offset` of a payload of `size` bytes, of which `rest` is left there. -/
def decodeLength (size offset : Nat) (rest : Bytes) : Except SerializationError (Nat × Bytes) :=
  let head := rest.take 4
  if head.length = 4 then .ok (Bytes.toLength head, rest.drop 4)
  else .error (.framing (.shortLength offset size))

/-- `count` items from `rest`, which stands at `offset` of a payload of `size` bytes, and what is
left after them. -/
def decodeItems {α : Type} (decode : Bytes → Except SerializationError α) (size : Nat) :
    (count offset : Nat) → Bytes → Except SerializationError (List α × Bytes)
  | 0, _, rest => .ok ([], rest)
  | count + 1, offset, rest => do
    let (length, rest) ← decodeLength size offset rest
    let frame := rest.take length
    if frame.length = length then
      let x ← decode frame
      let (xs, rest) ← decodeItems decode size count (offset + 4 + length) (rest.drop length)
      return (x :: xs, rest)
    else throw (.framing (.overrun length (offset + 4) size))

/-- The items of a payload. -/
def decodeFrames {α : Type} (decode : Bytes → Except SerializationError α) (payload : Bytes) :
    Except SerializationError (List α) := do
  let size := payload.length
  let (count, rest) ← decodeLength size 0 payload
  let (items, rest) ← decodeItems decode size count 4 rest
  if rest.isEmpty then return items else throw (.framing (.trailing rest.length))

/-- `bytes` are the frames with the given contents, one after the other. -/
inductive FrameSequence : Bytes → List Bytes → Prop where
  | nil : FrameSequence [] []
  | cons {content rest : Bytes} {contents : List Bytes} (short : content.length < UInt32.size)
      (tail : FrameSequence rest contents) :
      FrameSequence (Bytes.ofLength content.length ++ content ++ rest) (content :: contents)

/-- `payload` is a count and as many frames, with the given contents. -/
def Framed (payload : Bytes) (contents : List Bytes) : Prop :=
  contents.length < UInt32.size ∧
    ∃ frames, payload = Bytes.ofLength contents.length ++ frames ∧ FrameSequence frames contents

namespace Codec

/-- The codec of lists, by the codec of their items. -/
def list {α : Type} (item : Codec α) : Codec (List α) :=
  ⟨"iterable", encodeFrames item.encode, decodeFrames item.decode⟩

end Codec

end CheckedFlow
