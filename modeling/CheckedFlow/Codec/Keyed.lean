import CheckedFlow.Codec.Frame
import CheckedFlow.Element.Dictionary

/-!
# Codecs of dictionaries

A dictionary is encoded as the frames of its entries, by the codec of entries. Nothing depends on
the order in which the entries are enumerated but the bytes.

* `Codec.dictionary`: refuses a payload in which a key occurs twice.
* `Codec.grouped`: dictionaries of lists; every value of a list is an entry of its own, and decoding
  gathers the values of each key in the order of the entries.
-/

namespace CheckedFlow.Codec

variable {κ α : Type} [DecidableEq κ]

/-- The dictionary of the entries of a payload. -/
def decodeDictionary (describe : κ → String) (entry : Codec (κ × α)) (payload : Bytes) :
    Except SerializationError (Dictionary κ α) := do
  let entries ← decodeFrames entry.decode payload
  match Dictionary.ofEntries entries with
  | .ok d => return d
  | .error key => throw (.decoding (.repeatedKey (describe key)))

/-- The codec of dictionaries, by the codec of their entries. -/
def dictionary (describe : κ → String) (entry : Codec (κ × α)) : Codec (Dictionary κ α) :=
  ⟨"map", fun d => encodeFrames entry.encode d.entries, decodeDictionary describe entry⟩

/-- The entries of a dictionary of lists, one for each value of a list. -/
def flatEntries (entries : List (κ × List α)) : List (κ × α) :=
  entries.flatMap fun e => e.2.map fun v => (e.1, v)

/-- The codec of dictionaries of lists, by the codec of single entries. -/
def grouped (entry : Codec (κ × α)) : Codec (Dictionary κ (List α)) :=
  ⟨"multimap", fun d => encodeFrames entry.encode (flatEntries d.entries),
    fun payload => Dictionary.group <$> decodeFrames entry.decode payload⟩

end CheckedFlow.Codec
