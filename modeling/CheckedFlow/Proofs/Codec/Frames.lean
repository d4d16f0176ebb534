import CheckedFlow.Codec.Keyed
import CheckedFlow.Proofs.Run.Source
import Mathlib.Data.List.Forall2

/-!
# Frames are read back

A payload that was written as frames is cut where its items were put together. So decoding it copies
the items, one after the other, and no framing fault can occur.

* `mapM_eq_ok_iff`, `mapM_eq_error_iff`, `exists_mapM_ok`: what comes of doing something with every
  item.
* `toLength_ofLength`, `decodeLength_ofLength`: lengths that four bytes can hold.
* `encodeItems_frames`, `decodeItems_frames`: frames that are written, and frames that are read, in
  front of any other bytes.
* `decodeFrames_framed`, `decodeFrames_encodeFrames`: a whole payload.
-/

namespace CheckedFlow

/-! ## Something done with every item -/

section Items

variable {ε α β : Type} {f : α → Except ε β} {xs : List α}

/-- Every item succeeds, and the outcomes are listed in order. -/
theorem mapM_eq_ok_iff {ys : List β} :
    xs.mapM f = .ok ys ↔ List.Forall₂ (fun x y => f x = .ok y) xs ys := by
  induction xs generalizing ys with
  | nil => cases ys <;> simp [pure, Except.pure]
  | cons x xs ih =>
    rw [List.mapM_cons]
    cases hx : f x with
    | error e => cases ys <;> simp [bind, Except.bind, hx]
    | ok y => cases hxs : xs.mapM f <;> cases ys <;> simp [bind, Except.bind, pure, Except.pure, hx,
        ← ih, hxs]

/-- The first item that fails is told. -/
theorem mapM_eq_error_iff {e : ε} :
    xs.mapM f = .error e ↔ ∃ before x after, xs = before ++ x :: after ∧
      (∀ y ∈ before, ∃ z, f y = .ok z) ∧ f x = .error e := by
  induction xs with
  | nil => simp [pure, Except.pure]
  | cons x xs ih =>
    rw [List.mapM_cons]
    cases hx : f x with
    | error e' =>
      simp only [bind, Except.bind, Except.error.injEq]
      constructor
      · rintro rfl
        exact ⟨[], x, xs, rfl, by simp, hx⟩
      · rintro ⟨before, z, after, hsplit, hbefore, hz⟩
        cases before with
        | nil =>
          obtain ⟨rfl, rfl⟩ := List.cons.inj hsplit
          exact Except.error.inj (hx.symm.trans hz)
        | cons w before =>
          obtain ⟨rfl, rfl⟩ := List.cons.inj hsplit
          obtain ⟨y, hy⟩ := hbefore x List.mem_cons_self
          rw [hx] at hy
          cases hy
    | ok y =>
      have hrest : (do let ys ← xs.mapM f; pure (y :: ys) : Except ε (List β)) = .error e ↔
          xs.mapM f = .error e := by
        cases xs.mapM f <;> simp [bind, Except.bind, pure, Except.pure]
      simp only [bind, Except.bind] at hrest ⊢
      rw [hrest, ih]
      constructor
      · rintro ⟨before, z, after, rfl, hbefore, hz⟩
        refine ⟨x :: before, z, after, rfl, fun w hw => ?_, hz⟩
        rcases List.mem_cons.mp hw with rfl | hw
        · exact ⟨y, hx⟩
        · exact hbefore w hw
      · rintro ⟨before, z, after, hsplit, hbefore, hz⟩
        cases before with
        | nil =>
          obtain ⟨rfl, rfl⟩ := List.cons.inj hsplit
          rw [hx] at hz
          cases hz
        | cons w before =>
          obtain ⟨rfl, rfl⟩ := List.cons.inj hsplit
          exact ⟨before, z, after, rfl, fun v hv => hbefore v (List.mem_cons_of_mem _ hv), hz⟩

/-- All items succeed together exactly if each does. -/
theorem exists_mapM_ok : (∃ ys, xs.mapM f = .ok ys) ↔ ∀ x ∈ xs, ∃ y, f x = .ok y := by
  constructor
  · rintro ⟨ys, h⟩ x hx
    obtain ⟨i, hi, rfl⟩ := List.getElem_of_mem hx
    have hall := mapM_eq_ok_iff.mp h
    exact ⟨_, hall.get hi (hall.length_eq ▸ hi)⟩
  · intro h
    cases hm : xs.mapM f with
    | ok ys => exact ⟨ys, rfl⟩
    | error e =>
      obtain ⟨before, x, after, rfl, -, hx⟩ := mapM_eq_error_iff.mp hm
      obtain ⟨y, hy⟩ := h x (List.mem_append_right _ List.mem_cons_self)
      rw [hy] at hx
      cases hx

end Items

variable {α : Type} {codec : Codec α} {items : List α}

/-! ## Lengths -/

@[simp] theorem Bytes.length_ofLength (n : Nat) : (Bytes.ofLength n).length = 4 := rfl

/-- Four bytes hold every length below `2 ^ 32`. -/
theorem Bytes.toLength_ofLength {n : Nat} (h : n < UInt32.size) :
    Bytes.toLength (Bytes.ofLength n) = n := by
  have hsize : UInt32.size = 4294967296 := rfl
  simp only [Bytes.toLength, Bytes.ofLength, List.foldl_cons, List.foldl_nil,
    UInt8.toNat_ofNat']
  omega

theorem encodeLength_of_lt {n : Nat} (h : n < UInt32.size) :
    encodeLength n = .ok (Bytes.ofLength n) := if_pos h

/-- A length that was encoded fits into four bytes. -/
theorem encodeLength_ok {n : Nat} {bytes : Bytes} (h : encodeLength n = .ok bytes) :
    n < UInt32.size ∧ bytes = Bytes.ofLength n := by
  unfold encodeLength at h
  split at h
  · rename_i hn
    cases h
    exact ⟨hn, rfl⟩
  · cases h

/-- A length in front of other bytes is read, and the other bytes are left. -/
theorem decodeLength_ofLength {n : Nat} (h : n < UInt32.size) (size offset : Nat) (rest : Bytes) :
    decodeLength size offset (Bytes.ofLength n ++ rest) = .ok (n, rest) := by
  have htake : (Bytes.ofLength n ++ rest).take 4 = Bytes.ofLength n := rfl
  have hdrop : (Bytes.ofLength n ++ rest).drop 4 = rest := rfl
  simp only [decodeLength, htake, hdrop, Bytes.length_ofLength, Bytes.toLength_ofLength h, if_true]

/-- With fewer than four bytes there is no length. -/
theorem decodeLength_short {rest : Bytes} (h : rest.length < 4) (size offset : Nat) :
    decodeLength size offset rest = .error (.framing (.shortLength offset size)) := by
  have htake : (rest.take 4).length ≠ 4 := by
    rw [List.length_take]
    omega
  simp only [decodeLength, if_neg htake]

/-! ## Items -/

/-- Frames that were written are those of the first item and then those of the others. -/
theorem encodeItems_cons {x : α} {payload : Bytes}
    (h : encodeItems codec.encode (x :: items) = .ok payload) :
    ∃ bytes rest, codec.encode x = .ok bytes ∧ bytes.length < UInt32.size ∧
      encodeItems codec.encode items = .ok rest ∧
      payload = Bytes.ofLength bytes.length ++ (bytes ++ rest) := by
  obtain ⟨bytes, hbytes, h₁⟩ := Except.bind_ok h
  obtain ⟨length, hlength, h₂⟩ := Except.bind_ok h₁
  obtain ⟨rest, hrest, hr⟩ := Except.bind_ok h₂
  obtain ⟨hlt, rfl⟩ := encodeLength_ok hlength
  cases hr
  exact ⟨bytes, rest, hbytes, hlt, hrest, List.append_assoc ..⟩

/-- Frames that were written have the encodings of the items as their contents. -/
theorem encodeItems_frames {frames : Bytes} (h : encodeItems codec.encode items = .ok frames) :
    ∃ contents, items.mapM codec.encode = .ok contents ∧ FrameSequence frames contents := by
  induction items generalizing frames with
  | nil =>
    cases h
    exact ⟨[], rfl, .nil⟩
  | cons x items ih =>
    obtain ⟨bytes, rest, hbytes, hlt, hrest, rfl⟩ := encodeItems_cons h
    obtain ⟨contents, hcontents, hframes⟩ := ih hrest
    refine ⟨bytes :: contents, ?_, ?_⟩
    · rw [List.mapM_cons, hbytes, hcontents]
      rfl
    · rw [← List.append_assoc]
      exact .cons hlt hframes

/-- Frames that are read give their values, and reading goes on behind them. -/
theorem decodeItems_frames (decode : Bytes → Except SerializationError α) {frames : Bytes}
    {contents : List Bytes} (h : FrameSequence frames contents) (size count offset : Nat)
    (rest : Bytes) :
    decodeItems decode size (contents.length + count) offset (frames ++ rest) = (do
      let xs ← contents.mapM decode
      let (ys, tail) ← decodeItems decode size count (offset + frames.length) rest
      return (xs ++ ys, tail)) := by
  induction h generalizing offset with
  | nil =>
    simp only [List.length_nil, Nat.zero_add, List.nil_append, Nat.add_zero, List.mapM_nil,
      pure_bind]
    cases decodeItems decode size count offset rest <;> rfl
  | @cons content frames contents hshort _ ih =>
    have hlength := decodeLength_ofLength hshort size offset (content ++ (frames ++ rest))
    have hoffset : offset + (Bytes.ofLength content.length ++ content ++ frames).length =
        offset + 4 + content.length + frames.length := by
      simp only [List.length_append, Bytes.length_ofLength]
      omega
    have hcount : (content :: contents).length + count = (contents.length + count) + 1 := by
      rw [List.length_cons]
      omega
    rw [hoffset, hcount]
    simp only [List.append_assoc, decodeItems, hlength, List.mapM_cons, List.take_left,
      List.drop_left, if_true, bind, Except.bind]
    cases decode content with
    | error e => rfl
    | ok x =>
      simp only [ih, bind, Except.bind]
      cases contents.mapM decode with
      | error e => rfl
      | ok xs =>
        cases decodeItems decode size count (offset + 4 + content.length + frames.length) rest <;>
          rfl

/-! ## Payloads -/

/-- The frames of a whole payload give their values. -/
theorem decodeFrames_framed (decode : Bytes → Except SerializationError α) {payload : Bytes}
    {contents : List Bytes} (h : Framed payload contents) :
    decodeFrames decode payload = contents.mapM decode := by
  obtain ⟨hcount, frames, rfl, hframes⟩ := h
  have hitems := decodeItems_frames decode hframes
    (Bytes.ofLength contents.length ++ frames).length 0 4 []
  rw [List.append_nil, Nat.add_zero] at hitems
  simp only [decodeFrames, decodeLength_ofLength hcount, hitems, bind, Except.bind]
  cases contents.mapM decode with
  | error e => rfl
  | ok xs => simp [decodeItems, pure, Except.pure]

/-- The values of encodings are copies. -/
theorem mapM_copy {contents : List Bytes} (h : items.mapM codec.encode = .ok contents) :
    items.mapM codec.copy = contents.mapM codec.decode := by
  induction mapM_eq_ok_iff.mp h with
  | nil => rfl
  | cons hx hall ih =>
    rw [List.mapM_cons, List.mapM_cons, Codec.copy_of_encode hx, ih (mapM_eq_ok_iff.mpr hall)]

/-- Decoding frames copies the framed items in their order; the first copy that fails is told. -/
theorem decodeFrames_encodeFrames {payload : Bytes}
    (h : encodeFrames codec.encode items = .ok payload) :
    decodeFrames codec.decode payload = items.mapM codec.copy := by
  obtain ⟨count, hcount, h₁⟩ := Except.bind_ok h
  obtain ⟨frames, hframes, hr⟩ := Except.bind_ok h₁
  obtain ⟨hlt, rfl⟩ := encodeLength_ok hcount
  obtain ⟨contents, hcontents, hsequence⟩ := encodeItems_frames hframes
  have hlength : items.length = contents.length := (mapM_eq_ok_iff.mp hcontents).length_eq
  cases hr
  rw [hlength] at hlt ⊢
  rw [decodeFrames_framed codec.decode ⟨hlt, frames, rfl, hsequence⟩, mapM_copy hcontents]

/-- Items that are their own copies are read back. -/
theorem decodeFrames_roundTrips {payload : Bytes} (hround : ∀ x ∈ items, codec.RoundTrips x)
    (h : encodeFrames codec.encode items = .ok payload) :
    decodeFrames codec.decode payload = .ok items := by
  rw [decodeFrames_encodeFrames h]
  exact mapM_eq_ok_iff.mpr (List.forall₂_same.mpr hround)

end CheckedFlow
