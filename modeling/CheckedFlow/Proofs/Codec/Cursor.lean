import CheckedFlow.Proofs.Codec.Frames

/-!
# Decoding stays in the payload

Counts and lengths are claims of whoever wrote the payload. A `Cursor` is a place in a payload and
cannot be moved beyond its end, so what is read through one are bytes of the payload, whatever is
claimed. Decoding frames is reading through a cursor.

* `Cursor.next`: the next bytes, if there are as many.
* `Cursor.decodeLength_rest`, `Cursor.decodeItems_rest`: the bytes that decoding has left are those
  behind the cursor, and the offset that it counts is the cursor's.
* `decodeFrames_eq_readFrames`: a whole payload.
-/

namespace CheckedFlow

variable {α : Type} {payload : Bytes}

/-- A place in a payload, up to its end. -/
structure Cursor (payload : Bytes) where
  offset : Nat
  inside : offset ≤ payload.length

namespace Cursor

/-- The place before the first byte. -/
def start (payload : Bytes) : Cursor payload := ⟨0, Nat.zero_le _⟩

/-- The bytes behind the cursor. -/
def rest (c : Cursor payload) : Bytes := payload.drop c.offset

/-- The next `length` bytes and the place behind them, if the payload has as many left. -/
def next (c : Cursor payload) (length : Nat) : Option (Bytes × Cursor payload) :=
  if h : c.offset + length ≤ payload.length then
    some (c.rest.take length, ⟨c.offset + length, h⟩)
  else none

/-- The length that stands at the cursor. -/
def readLength (c : Cursor payload) : Except SerializationError (Nat × Cursor payload) :=
  match c.next 4 with
  | some (bytes, c) => .ok (Bytes.toLength bytes, c)
  | none => .error (.framing (.shortLength c.offset payload.length))

/-- The values of the next `count` frames. -/
def readItems (decode : Bytes → Except SerializationError α) :
    Nat → Cursor payload → Except SerializationError (List α × Cursor payload)
  | 0, c => .ok ([], c)
  | count + 1, c => do
    let (length, c) ← c.readLength
    match c.next length with
    | some (content, c) =>
      let x ← decode content
      let (xs, c) ← readItems decode count c
      return (x :: xs, c)
    | none => throw (.framing (.overrun length c.offset payload.length))

theorem length_rest (c : Cursor payload) : c.rest.length = payload.length - c.offset :=
  List.length_drop

/-- What the cursor reads are `length` bytes of the payload, those at its place. -/
theorem next_some {c c' : Cursor payload} {length : Nat} {bytes : Bytes}
    (h : c.next length = some (bytes, c')) :
    bytes = c.rest.take length ∧ bytes.length = length ∧ c'.offset = c.offset + length ∧
      c'.rest = c.rest.drop length := by
  unfold next at h
  split at h
  · rename_i hle
    cases h
    have hlen := c.length_rest
    refine ⟨rfl, ?_, rfl, ?_⟩
    · rw [List.length_take]
      omega
    · simp only [rest, List.drop_drop]
  · cases h

theorem next_none {c : Cursor payload} {length : Nat} (h : c.next length = none) :
    c.rest.length < length := by
  unfold next at h
  split at h
  · cases h
  · have hlen := c.length_rest
    have hin := c.inside
    omega

theorem decodeLength_rest (c : Cursor payload) :
    decodeLength payload.length c.offset c.rest =
      (fun r => (r.1, r.2.rest)) <$> c.readLength := by
  unfold readLength
  cases hnext : c.next 4 with
  | none => exact decodeLength_short (next_none hnext) _ _
  | some r =>
    obtain ⟨bytes, c'⟩ := r
    obtain ⟨rfl, hlen, -, hrest⟩ := next_some hnext
    simp only [decodeLength, if_pos hlen, ← hrest]
    rfl

theorem decodeItems_rest (decode : Bytes → Except SerializationError α) (count : Nat)
    (c : Cursor payload) :
    decodeItems decode payload.length count c.offset c.rest =
      (fun r => (r.1, r.2.rest)) <$> c.readItems decode count := by
  induction count generalizing c with
  | zero => rfl
  | succ count ih =>
    have hlength := c.decodeLength_rest
    simp only [decodeItems, readItems]
    rw [hlength]
    unfold readLength
    cases hnext : c.next 4 with
    | none => rfl
    | some r =>
      obtain ⟨bytes, c'⟩ := r
      obtain ⟨-, -, hoffset, -⟩ := next_some hnext
      simp only [Functor.map, Except.map, bind, Except.bind]
      cases hframe : c'.next (Bytes.toLength bytes) with
      | none =>
        have hlong := next_none hframe
        have htake : (c'.rest.take (Bytes.toLength bytes)).length ≠ Bytes.toLength bytes := by
          rw [List.length_take]
          omega
        rw [if_neg htake, hoffset]
        rfl
      | some r' =>
        obtain ⟨content, c''⟩ := r'
        obtain ⟨rfl, hlen, hoffset', hrest'⟩ := next_some hframe
        rw [if_pos hlen, ← hoffset, ← hoffset', ← hrest', ih c'']
        dsimp only
        cases decode (c'.rest.take (Bytes.toLength bytes)) with
        | error e => rfl
        | ok x => cases c''.readItems decode count <;> rfl

end Cursor

/-- The items of a payload, read through a cursor. -/
def readFrames (decode : Bytes → Except SerializationError α) (payload : Bytes) :
    Except SerializationError (List α) := do
  let (count, c) ← (Cursor.start payload).readLength
  let (items, c) ← c.readItems decode count
  if c.offset = payload.length then return items
  else throw (.framing (.trailing (payload.length - c.offset)))

/-- Decoding is reading through a cursor, which stays in the payload whatever counts and lengths
stand there. -/
theorem decodeFrames_eq_readFrames (decode : Bytes → Except SerializationError α)
    (payload : Bytes) : decodeFrames decode payload = readFrames decode payload := by
  have hlength := (Cursor.start payload).decodeLength_rest
  have hstart : (Cursor.start payload).rest = payload := rfl
  have hzero : (Cursor.start payload).offset = 0 := rfl
  rw [hstart, hzero] at hlength
  simp only [decodeFrames, readFrames]
  rw [hlength]
  unfold Cursor.readLength
  cases hnext : (Cursor.start payload).next 4 with
  | none => rfl
  | some r =>
    obtain ⟨bytes, c⟩ := r
    obtain ⟨-, -, hoffset, -⟩ := Cursor.next_some hnext
    have hfour : c.offset = 4 := by
      rw [hoffset, hzero]
    have hitems := c.decodeItems_rest decode (Bytes.toLength bytes)
    rw [hfour] at hitems
    simp only [Functor.map, Except.map, bind, Except.bind] at hitems ⊢
    rw [hitems]
    cases c.readItems decode (Bytes.toLength bytes) with
    | error e => rfl
    | ok r =>
      obtain ⟨items, c'⟩ := r
      have hin := c'.inside
      simp only [List.isEmpty_iff_length_eq_zero, c'.length_rest]
      by_cases hend : c'.offset = payload.length
      · rw [if_pos hend, if_pos (by omega)]
      · rw [if_neg hend, if_neg (by omega)]

end CheckedFlow
