import CheckedFlow.Decoding.Fault

/-!
# Failures of codecs

Why a value has no encoding or bytes have no value. Causes that a codec of the library finds are
told apart; a codec of a caller tells its cause in its own words.
-/

namespace CheckedFlow

/-- Why a byte string is no sequence of frames. -/
inductive FramingFault where
  /-- Less than a length is left at `offset` of a payload of `size` bytes. -/
  | shortLength (offset size : Nat)
  /-- A frame of `length` bytes at `offset` reaches beyond a payload of `size` bytes. -/
  | overrun (length offset size : Nat)
  /-- Bytes follow the last frame. -/
  | trailing (count : Nat)
  | told (message : String)

/-- The wording of a framing fault. -/
def FramingFault.message : FramingFault → String
  | shortLength offset size =>
    "expected 4 length bytes at offset " ++ Text.decimal offset ++ ", payload is " ++
      Text.decimal size ++ " bytes"
  | overrun length offset size =>
    "frame of " ++ Text.decimal length ++ " bytes at offset " ++ Text.decimal offset ++
      " overruns payload of " ++ Text.decimal size ++ " bytes"
  | trailing count => Text.decimal count ++ " trailing bytes after last frame"
  | told message => message

/-- Why a value has no encoding. -/
inductive EncodingFault where
  /-- A JSON object whose keys would not be texts. -/
  | jsonKey
  /-- A count that four bytes cannot hold. -/
  | tooLong (length : Nat)
  | told (message : String)

/-- The wording of an encoding fault. -/
def EncodingFault.message : EncodingFault → String
  | jsonKey => "Failed to serialize JSON: key must be a string"
  | tooLong length => "length " ++ Text.decimal length ++ " exceeds u32 framing"
  | told message => message

/-- Why bytes have no value. -/
inductive DecodingFault where
  | json (fault : Decoding.Fault)
  /-- A mapping's payload holds a key twice; the key as messages write it. -/
  | repeatedKey (key : String)
  | told (message : String)

/-- The wording of a decoding fault. -/
def DecodingFault.message : DecodingFault → String
  | json fault => "Failed to parse JSON: " ++ fault.message .json
  | repeatedKey key => "duplicate key " ++ key ++ " in map payload"
  | told message => message

/-- Why a codec failed. -/
inductive SerializationError where
  | encoding (fault : EncodingFault)
  | decoding (fault : DecodingFault)
  | framing (fault : FramingFault)
  | unsupported (type : String)

/-- The wording of a codec's failure. -/
def SerializationError.message : SerializationError → String
  | encoding fault => "Serialization failed: " ++ fault.message
  | decoding fault => "Deserialization failed: " ++ fault.message
  | framing fault => "Invalid framing: " ++ fault.message
  | unsupported type => "Unsupported type: " ++ type

end CheckedFlow
