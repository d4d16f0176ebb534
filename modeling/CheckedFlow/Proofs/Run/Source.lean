import CheckedFlow.Graph.Source
import CheckedFlow.Proofs.Run.Stages

/-!
# What a source holds

The values of a source are encoded when it is built and decoded when it runs: its elements are the
copies of the values through the codec. A value that encodes and does not decode is found out by the
run only.

* `exists_copies`, `exists_failedCopy`: values that can all be copied, and others.
* `encodeSource_cons`, `encodeSource_encodes`: a source that was built, value by value.
* `decodeSource_ok`, `decodeSource_unstamped`: a source whose values all decode.
* `decodeSource_error`, `decodeSource_undecodable`: a source with values that do not decode.
-/

namespace CheckedFlow

variable {α : Type} {codec : Codec α} {name stage : String} {index i : Nat}
  {items : List (α × Timestamp)} {encoded : List (Bytes × Timestamp)}

theorem Codec.copy_of_encode {x : α} {bytes : Bytes} (h : codec.encode x = .ok bytes) :
    codec.copy x = codec.decode bytes := by
  rw [Codec.copy, h]
  rfl

/-- Values that can all be copied have a list of copies. -/
theorem exists_copies {xs : List α} (h : ∀ x ∈ xs, ∃ y, codec.copy x = .ok y) :
    ∃ copies : List α, xs.map codec.copy = copies.map .ok := by
  induction xs with
  | nil => exact ⟨[], rfl⟩
  | cons x xs ih =>
    obtain ⟨y, hy⟩ := h x List.mem_cons_self
    obtain ⟨ys, hys⟩ := ih fun z hz => h z (List.mem_cons_of_mem x hz)
    exact ⟨y :: ys, by rw [List.map_cons, hy, hys, List.map_cons]⟩

/-- Of values that cannot all be copied there is a first one. -/
theorem exists_failedCopy {xs : List α} (h : ¬ ∀ x ∈ xs, ∃ y, codec.copy x = .ok y) :
    ∃ (i : Nat) (e : SerializationError), (xs.map codec.copy)[i]? = some (.error e) ∧
      ∀ j < i, ∃ y, (xs.map codec.copy)[j]? = some (.ok y) := by
  induction xs with
  | nil => exact absurd (fun x hx => by cases hx) h
  | cons x xs ih =>
    cases hx : codec.copy x with
    | error e => exact ⟨0, e, by simp [hx], fun j hj => by omega⟩
    | ok y =>
      have hxs : ¬ ∀ z ∈ xs, ∃ y, codec.copy z = .ok y := by
        intro hall
        refine h fun z hz => ?_
        rcases List.mem_cons.mp hz with rfl | hz
        · exact ⟨y, hx⟩
        · exact hall z hz
      obtain ⟨i, e, hi, hfirst⟩ := ih hxs
      refine ⟨i + 1, e, hi, fun j hj => ?_⟩
      cases j with
      | zero => exact ⟨y, congrArg some hx⟩
      | succ j => exact hfirst j (by omega)

/-- A source that was built has an encoding of its first value, and then of the others. -/
theorem encodeSource_cons {x : α} {t : Timestamp}
    (h : Pipeline.encodeSource name codec index ((x, t) :: items) = .ok encoded) :
    ∃ bytes rest, codec.encode x = .ok bytes ∧
      Pipeline.encodeSource name codec (index + 1) items = .ok rest ∧
      encoded = (bytes, t) :: rest := by
  simp only [Pipeline.encodeSource] at h
  split at h
  · cases h
  · rename_i bytes hbytes
    obtain ⟨rest, hrest, hr⟩ := Except.bind_ok h
    cases hr
    exact ⟨bytes, rest, hbytes, hrest, rfl⟩

/-- A source that was built has an encoding of each of its values. -/
theorem encodeSource_encodes
    (h : Pipeline.encodeSource name codec index items = .ok encoded) :
    ∀ e ∈ items, ∃ bytes, codec.encode e.1 = .ok bytes := by
  induction items generalizing index encoded with
  | nil => simp
  | cons item items ih =>
    obtain ⟨bytes, rest, hbytes, hrest, -⟩ := encodeSource_cons h
    exact List.forall_mem_cons.mpr ⟨⟨bytes, hbytes⟩, ih hrest⟩

/-- A source whose values all decode holds their copies. -/
theorem decodeSource_ok {copies : List α}
    (h : Pipeline.encodeSource name codec index items = .ok encoded)
    (hc : (items.map fun e => codec.copy e.1) = copies.map .ok) :
    decodeSource stage codec encoded =
      .ok (List.zipWith (fun y e => Windowed.stamped y e.2) copies items) := by
  induction items generalizing index encoded copies with
  | nil =>
    cases h
    cases copies with
    | nil => rfl
    | cons y ys => simp at hc
  | cons e items ih =>
    obtain ⟨bytes, rest, hbytes, hrest, rfl⟩ := encodeSource_cons h
    have hcopy := Codec.copy_of_encode hbytes
    cases copies with
    | nil => simp at hc
    | cons y ys =>
      obtain ⟨hy, hys⟩ := List.cons.inj hc
      simp only [decodeSource, hcopy.symm.trans hy, ih hrest hys]
      rfl

/-- A source of values without timestamps whose values all decode. -/
theorem decodeSource_unstamped {values copies : List α}
    (h : Pipeline.encodeSource name codec index (values.map fun x => (x, Timestamp.least)) =
      .ok encoded) (hc : values.map codec.copy = copies.map .ok) :
    decodeSource stage codec encoded = .ok (copies.map .unstamped) := by
  have hlen : copies.length = values.length := by simpa using (congrArg List.length hc).symm
  have hitems : ((values.map fun x => (x, Timestamp.least)).map fun e => codec.copy e.1) =
      copies.map .ok := by rw [List.map_map]; exact hc
  rw [decodeSource_ok h hitems]
  congr 1
  clear h hc hitems
  induction copies generalizing values with
  | nil => rfl
  | cons y ys ih =>
    cases values with
    | nil => cases hlen
    | cons x xs =>
      rw [List.map_cons, List.zipWith_cons_cons, ih (Nat.succ.inj hlen)]
      rfl

/-- A source with a value that does not decode has no elements; the first such value is told. -/
theorem decodeSource_error {e : SerializationError}
    (h : Pipeline.encodeSource name codec index items = .ok encoded)
    (hi : (items.map fun e => codec.copy e.1)[i]? = some (.error e))
    (hfirst : ∀ j < i, ∃ y, (items.map fun e => codec.copy e.1)[j]? = some (.ok y)) :
    decodeSource stage codec encoded = .error (.serialization stage e) := by
  induction items generalizing index encoded i with
  | nil => simp at hi
  | cons item items ih =>
    obtain ⟨bytes, rest, hbytes, hrest, rfl⟩ := encodeSource_cons h
    have hcopy := Codec.copy_of_encode hbytes
    cases i with
    | zero =>
      rw [List.map_cons, List.getElem?_cons_zero, Option.some.injEq, hcopy] at hi
      simp only [decodeSource, hi]
    | succ i =>
      obtain ⟨y, hy⟩ := hfirst 0 i.succ_pos
      rw [List.map_cons, List.getElem?_cons_zero, Option.some.injEq, hcopy] at hy
      have hlater := ih hrest hi fun j hj => hfirst (j + 1) (Nat.succ_lt_succ hj)
      simp only [decodeSource, hy, hlater]
      rfl

/-- Of values without timestamps that do not all decode, the error of one is told. -/
theorem decodeSource_undecodable {values : List α}
    (h : Pipeline.encodeSource name codec index (values.map fun x => (x, Timestamp.least)) =
      .ok encoded) (hbad : ¬ ∀ x ∈ values, ∃ y, codec.copy x = .ok y) :
    ∃ e, (∃ x ∈ values, codec.copy x = .error e) ∧
      ∀ stage, decodeSource stage codec encoded = .error (.serialization stage e) := by
  obtain ⟨i, e, hi, hfirst⟩ := exists_failedCopy hbad
  have hitems : ((values.map fun x => (x, Timestamp.least)).map fun e => codec.copy e.1) =
      values.map codec.copy := by rw [List.map_map]; rfl
  obtain ⟨x, hx, hcopy⟩ := List.mem_map.mp (List.mem_of_getElem? hi)
  exact ⟨e, ⟨x, hx, hcopy⟩, fun stage => decodeSource_error h (hitems ▸ hi) (hitems ▸ hfirst)⟩

end CheckedFlow
