import CheckedFlow.Text.Numeral

/-!
# Byte strings

* `Bytes.ofText`, `Bytes.toText?`: the UTF-8 form of a text, and the text of a byte string that is
  well-formed UTF-8. `toText?_ofText` says that a text is recovered from its bytes.
* `Bytes.toHex`, `Bytes.ofHex?`: the form in pairs of hexadecimal digits.
* `Bytes.ofLength`, `Bytes.toLength`: a length as four bytes, the most significant first.
-/

namespace CheckedFlow

/-- A byte string. -/
abbrev Bytes := List UInt8

namespace Bytes

/-- The UTF-8 form of a text. -/
def ofText (s : String) : Bytes := s.toByteArray.data.toList

/-- The text whose UTF-8 form is `bs`. -/
def toText? (bs : Bytes) : Option String := String.fromUTF8? ⟨bs.toArray⟩

theorem toText?_ofText (s : String) : toText? (ofText s) = some s := by
  have h : (⟨(ofText s).toArray⟩ : ByteArray) = s.toByteArray := by simp [ofText]
  unfold toText?
  rw [h, String.fromUTF8?, dif_pos s.isValidUTF8]
  rfl

/-- The two hexadecimal digits of each byte, in lower case. -/
def toHex (bs : Bytes) : String :=
  String.ofList (bs.flatMap fun b => [Nat.digitChar (b.toNat / 16), Nat.digitChar (b.toNat % 16)])

/-- The value of a hexadecimal digit in either case. -/
def hexDigit? (c : Char) : Option Nat :=
  let n := c.toNat
  if '0'.toNat ≤ n ∧ n ≤ '9'.toNat then some (n - '0'.toNat)
  else if 'a'.toNat ≤ n ∧ n ≤ 'f'.toNat then some (n - 'a'.toNat + 10)
  else if 'A'.toNat ≤ n ∧ n ≤ 'F'.toNat then some (n - 'A'.toNat + 10)
  else none

/-- The bytes that pairs of hexadecimal digits write. -/
def ofHexDigits? : List Char → Option Bytes
  | [] => some []
  | high :: low :: rest => do
    let h ← hexDigit? high
    let l ← hexDigit? low
    let bs ← ofHexDigits? rest
    pure (UInt8.ofNat (16 * h + l) :: bs)
  | _ => none

/-- The bytes whose hexadecimal form is `s`. -/
def ofHex? (s : String) : Option Bytes := ofHexDigits? s.toList

/-- The four bytes of `n`, the most significant first. -/
def ofLength (n : Nat) : Bytes :=
  [UInt8.ofNat (n / 0x1000000), UInt8.ofNat (n / 0x10000), UInt8.ofNat (n / 0x100),
    UInt8.ofNat n]

/-- The number with the digits `bs` to the base 256, the most significant first. -/
def toLength (bs : Bytes) : Nat := bs.foldl (fun n b => 256 * n + b.toNat) 0

end Bytes

end CheckedFlow
