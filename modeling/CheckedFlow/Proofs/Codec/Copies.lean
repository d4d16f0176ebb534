import CheckedFlow.Proofs.Codec.Frames

/-!
# Lists are copied item by item

The codec of lists adds nothing to the codec of the items, as long as four bytes can hold the number
of items and the length of each encoding. A copy of a list is the list of the copies of its items.
Encoding comes first: an item without an encoding is told before any encoding is looked at.

* `Codec.Fits`: what four bytes can hold.
* `Codec.encodeFrames_ok_iff`, `Codec.encodeFrames_error`: when a list has an encoding.
* `Codec.list_copy_eq`: a list is copied by encoding all items and then copying each.
* `Codec.list_copies`: copies, failures and round trips of lists, lists of lists and so on.
-/

namespace CheckedFlow.Codec

variable {α : Type} {item : Codec α} {xs : List α} {e : SerializationError}

/-- Four bytes can hold the number of the items and the length of every encoding. -/
structure Fits (item : Codec α) (xs : List α) : Prop where
  count : xs.length < UInt32.size
  lengths : ∀ x ∈ xs, ∀ bytes, item.encode x = .ok bytes → bytes.length < UInt32.size

theorem Fits.tail {x : α} (h : item.Fits (x :: xs)) : item.Fits xs :=
  ⟨Nat.lt_of_succ_lt h.count, fun y hy => h.lengths y (List.mem_cons_of_mem x hy)⟩

/-- Whether a list fits does not depend on the order of its items. -/
theorem Fits.perm {ys : List α} (h : item.Fits xs) (hp : ys.Perm xs) : item.Fits ys :=
  ⟨hp.length_eq ▸ h.count, fun y hy => h.lengths y (hp.subset hy)⟩

/-! ## Encoding -/

/-- Items have frames if all of them have encodings; otherwise the first one without is told. -/
theorem encodeItems_of_fits (h : item.Fits xs) :
    match xs.mapM item.encode with
    | .ok _ => ∃ frames, encodeItems item.encode xs = .ok frames
    | .error e => encodeItems item.encode xs = .error e := by
  induction xs with
  | nil => exact ⟨[], rfl⟩
  | cons x xs ih =>
    have hrest := ih h.tail
    rw [List.mapM_cons]
    simp only [encodeItems]
    cases hx : item.encode x with
    | error e => rfl
    | ok bytes =>
      have hlength := encodeLength_of_lt (h.lengths x List.mem_cons_self bytes hx)
      simp only [hlength, bind, Except.bind]
      cases hxs : xs.mapM item.encode with
      | error e =>
        rw [hxs] at hrest
        simp only [hrest]
      | ok contents =>
        rw [hxs] at hrest
        obtain ⟨frames, hframes⟩ := hrest
        simp only [hframes, pure, Except.pure]
        exact ⟨_, rfl⟩

/-- What has frames fits. -/
theorem encodeItems_fits {frames : Bytes} (h : encodeItems item.encode xs = .ok frames) :
    ∀ x ∈ xs, ∃ bytes, item.encode x = .ok bytes ∧ bytes.length < UInt32.size := by
  induction xs generalizing frames with
  | nil => simp
  | cons x xs ih =>
    obtain ⟨bytes, rest, hbytes, hlt, hrest, -⟩ := encodeItems_cons h
    intro y hy
    rcases List.mem_cons.mp hy with rfl | hy
    · exact ⟨bytes, hbytes, hlt⟩
    · exact ih hrest y hy

/-- A list has an encoding exactly if it fits and its items have encodings. -/
theorem encodeFrames_ok_iff : (∃ payload, encodeFrames item.encode xs = .ok payload) ↔
    item.Fits xs ∧ ∀ x ∈ xs, ∃ bytes, item.encode x = .ok bytes := by
  constructor
  · rintro ⟨payload, h⟩
    obtain ⟨count, hcount, h₁⟩ := Except.bind_ok h
    obtain ⟨frames, hframes, -⟩ := Except.bind_ok h₁
    have hitems := encodeItems_fits hframes
    refine ⟨⟨(encodeLength_ok hcount).1, fun x hx bytes hbytes => ?_⟩, fun x hx => ?_⟩
    · obtain ⟨bytes', hbytes', hlt⟩ := hitems x hx
      rw [hbytes] at hbytes'
      cases hbytes'
      exact hlt
    · obtain ⟨bytes, hbytes, -⟩ := hitems x hx
      exact ⟨bytes, hbytes⟩
  · rintro ⟨hfit, hitems⟩
    obtain ⟨contents, hm⟩ := exists_mapM_ok.mpr hitems
    have hframes := encodeItems_of_fits hfit
    rw [hm] at hframes
    obtain ⟨frames, hframes⟩ := hframes
    simp only [encodeFrames, encodeLength_of_lt hfit.count, hframes, bind, Except.bind]
    exact ⟨_, rfl⟩

/-- Of a list that fits, the first item without an encoding is told. -/
theorem encodeFrames_error (hfit : item.Fits xs) (h : xs.mapM item.encode = .error e) :
    encodeFrames item.encode xs = .error e := by
  have hframes := encodeItems_of_fits hfit
  rw [h] at hframes
  simp only [encodeFrames, encodeLength_of_lt hfit.count, hframes, bind, Except.bind]

/-! ## Copies -/

/-- A list that fits is copied by encoding all items and then copying each. -/
theorem list_copy_eq (hfit : item.Fits xs) :
    (list item).copy xs = (do
      let _ ← xs.mapM item.encode
      xs.mapM item.copy) := by
  cases hm : xs.mapM item.encode with
  | error e =>
    have herror := encodeFrames_error hfit hm
    simp only [copy, list, herror, bind, Except.bind]
  | ok contents =>
    obtain ⟨payload, hpayload⟩ := encodeFrames_ok_iff.mpr ⟨hfit, exists_mapM_ok.mp ⟨_, hm⟩⟩
    have hlist : (list item).encode xs = .ok payload := hpayload
    rw [copy_of_encode hlist]
    exact decodeFrames_encodeFrames hpayload

/-- Why a list cannot be copied: `e` is the failure of the first item without an encoding, or, if
all have one, of the first encoding without a value. -/
inductive FailsFirst (item : Codec α) (xs : List α) (e : SerializationError) : Prop where
  | encoding {before : List α} {x : α} {after : List α} (split : xs = before ++ x :: after)
      (earlier : ∀ y ∈ before, ∃ bytes, item.encode y = .ok bytes)
      (fails : item.encode x = .error e)
  | decoding {before : List α} {x : α} {after : List α} {bytes : Bytes}
      (split : xs = before ++ x :: after) (encodes : ∀ y ∈ xs, ∃ bytes, item.encode y = .ok bytes)
      (earlier : ∀ y ∈ before, ∃ z, item.copy y = .ok z) (encoded : item.encode x = .ok bytes)
      (fails : item.decode bytes = .error e)

/-- What has a copy has an encoding. -/
theorem encodes_of_copy {x y : α} (h : item.copy x = .ok y) :
    ∃ bytes, item.encode x = .ok bytes := by
  obtain ⟨bytes, hbytes, -⟩ := Except.bind_ok h
  exact ⟨bytes, hbytes⟩

theorem list_copy_ok_iff (hfit : item.Fits xs) {ys : List α} :
    (list item).copy xs = .ok ys ↔ List.Forall₂ (fun x y => item.copy x = .ok y) xs ys := by
  rw [list_copy_eq hfit, ← mapM_eq_ok_iff]
  cases hm : xs.mapM item.encode with
  | ok contents => rfl
  | error e =>
    refine ⟨nofun, fun h => ?_⟩
    have hitems : ∀ x ∈ xs, ∃ bytes, item.encode x = .ok bytes := by
      intro x hx
      obtain ⟨y, hy⟩ := exists_mapM_ok.mp ⟨ys, h⟩ x hx
      exact encodes_of_copy hy
    obtain ⟨contents, hcontents⟩ := exists_mapM_ok.mpr hitems
    rw [hm] at hcontents
    cases hcontents

theorem list_copy_error_iff (hfit : item.Fits xs) :
    (list item).copy xs = .error e ↔ item.FailsFirst xs e := by
  rw [list_copy_eq hfit]
  constructor
  · intro h
    cases hm : xs.mapM item.encode with
    | error e' =>
      rw [hm] at h
      cases h
      obtain ⟨before, x, after, hsplit, hbefore, hx⟩ := mapM_eq_error_iff.mp hm
      exact .encoding hsplit hbefore hx
    | ok contents =>
      rw [hm] at h
      have hitems := exists_mapM_ok.mp ⟨contents, hm⟩
      obtain ⟨before, x, after, rfl, hbefore, hx⟩ := mapM_eq_error_iff.mp h
      obtain ⟨bytes, hbytes⟩ := hitems x (List.mem_append_right _ List.mem_cons_self)
      exact .decoding rfl hitems hbefore hbytes (copy_of_encode hbytes ▸ hx)
  · rintro (⟨hsplit, hbefore, hx⟩ | ⟨hsplit, hitems, hbefore, hbytes, hx⟩)
    · rw [mapM_eq_error_iff.mpr ⟨_, _, _, hsplit, hbefore, hx⟩]
      rfl
    · obtain ⟨contents, hm⟩ := exists_mapM_ok.mpr hitems
      rw [hm]
      exact mapM_eq_error_iff.mpr ⟨_, _, _, hsplit, hbefore, copy_of_encode hbytes ▸ hx⟩

/-- A list of items that are their own copies is its own copy. -/
theorem list_roundTrips (hfit : item.Fits xs) (h : ∀ x ∈ xs, item.RoundTrips x) :
    (list item).RoundTrips xs :=
  (list_copy_ok_iff hfit).mpr (List.forall₂_same.mpr h)

/-! ## Lists of lists -/

/-- Lists of lists, of a given depth. -/
@[reducible] def NestedList (α : Type) : Nat → Type
  | 0 => α
  | depth + 1 => List (NestedList α depth)

/-- Something holds of every innermost item. -/
def NestedList.All (p : α → Prop) : (depth : Nat) → NestedList α depth → Prop
  | 0, x => p x
  | depth + 1, (xs : List (NestedList α depth)) => ∀ x ∈ xs, NestedList.All p depth x

/-- The codec of nested lists, by the codec of the innermost items. -/
def nested (item : Codec α) : (depth : Nat) → Codec (NestedList α depth)
  | 0 => item
  | depth + 1 => list (nested item depth)

/-- Four bytes can hold the numbers of items and the lengths of encodings at every depth. -/
def NestedFits (item : Codec α) : (depth : Nat) → NestedList α depth → Prop
  | 0, _ => True
  | depth + 1, (xs : List (NestedList α depth)) =>
    (nested item depth).Fits xs ∧ ∀ x ∈ xs, NestedFits item depth x

/-- A nested list of items that are their own copies is its own copy. -/
theorem nested_roundTrips (depth : Nat) (x : NestedList α depth) (hfit : item.NestedFits depth x)
    (h : NestedList.All item.RoundTrips depth x) : (item.nested depth).RoundTrips x := by
  induction depth with
  | zero => exact h
  | succ depth ih => exact list_roundTrips hfit.1 fun y hy => ih y (hfit.2 y hy) (h y hy)

/-- A list is copied item by item: its copy is the list of the copies of its items. If some item has
no encoding, the failure is that of the first such item; if all have encodings and some encoding has
no value, that of the first such encoding; and there is no other failure, so none of framing that is
not an item's own. Items that are their own copies make lists that are their own copies, at any
depth of lists of lists. -/
theorem list_copies (item : Codec α) (xs : List α) (hfit : item.Fits xs) :
    (∀ ys, (list item).copy xs = .ok ys ↔ ys.length = xs.length ∧
      ∀ i (h : i < xs.length) (h' : i < ys.length), item.copy xs[i] = .ok ys[i]) ∧
    (∀ e, (list item).copy xs = .error e ↔ item.FailsFirst xs e) ∧
    ((∀ x ∈ xs, item.RoundTrips x) → (list item).RoundTrips xs) ∧
    ∀ depth (x : NestedList α depth), item.NestedFits depth x →
      NestedList.All item.RoundTrips depth x → (item.nested depth).RoundTrips x := by
  refine ⟨fun ys => ?_, fun e => list_copy_error_iff hfit, list_roundTrips hfit, nested_roundTrips⟩
  rw [list_copy_ok_iff hfit, List.forall₂_iff_get, eq_comm]
  rfl

/-- Numbers below ten as one byte, of which nine is not read back. -/
def digitCodec : Codec Nat where
  encode n := if n < 10 then .ok [UInt8.ofNat n] else .error (.encoding (.told "two digits"))
  decode
    | [9] => .error (.decoding (.told "nine"))
    | bytes => .ok (Bytes.toLength bytes)

theorem digitCodec_fits {xs : List Nat} (h : xs.length < UInt32.size) : digitCodec.Fits xs := by
  refine ⟨h, fun x _ bytes hbytes => ?_⟩
  simp only [digitCodec] at hbytes
  split at hbytes
  · cases hbytes
    exact (show 1 < UInt32.size by decide)
  · cases hbytes

theorem digits_nestedFits : digitCodec.NestedFits 2 [[7, 0], []] := by
  refine ⟨⟨by decide, fun x hx bytes hbytes => ?_⟩, fun x hx => ?_⟩
  · rcases List.mem_pair.mp hx with rfl | rfl
    · cases hbytes
      decide
    · cases hbytes
      decide
  · rcases List.mem_pair.mp hx with rfl | rfl
    · exact ⟨digitCodec_fits (by decide), fun _ _ => trivial⟩
    · exact ⟨digitCodec_fits (by decide), fun _ _ => trivial⟩

/-- The number with two digits is told, though the nine stands before it: all items are encoded
before any is decoded. Without it the nine is told. Other digits are copied, also in lists of
lists. -/
theorem list_copies_digits :
    (digitCodec.Fits [9, 12] ∧ (list digitCodec).copy [9, 12] =
      .error (.encoding (.told "two digits"))) ∧
    (digitCodec.Fits [7, 9] ∧ (list digitCodec).copy [7, 9] = .error (.decoding (.told "nine"))) ∧
    digitCodec.NestedFits 2 [[7, 0], []] ∧ (digitCodec.nested 2).RoundTrips [[7, 0], []] := by
  have hfit : ∀ a b, digitCodec.Fits [a, b] :=
    fun a b => digitCodec_fits (show 2 < UInt32.size by decide)
  refine ⟨⟨hfit 9 12, ?_⟩, ⟨hfit 7 9, ?_⟩, digits_nestedFits, ?_⟩
  · refine ((list_copies digitCodec [9, 12] (hfit 9 12)).2.1 _).mpr ?_
    exact .encoding rfl (List.forall_mem_singleton.mpr ⟨_, rfl⟩) rfl
  · refine ((list_copies digitCodec [7, 9] (hfit 7 9)).2.1 _).mpr ?_
    have hencodes : ∀ y ∈ [7, 9], ∃ bytes, digitCodec.encode y = .ok bytes := by
      intro y hy
      rcases List.mem_pair.mp hy with rfl | rfl <;> exact ⟨_, rfl⟩
    exact .decoding rfl hencodes (List.forall_mem_singleton.mpr ⟨_, rfl⟩) rfl rfl
  · refine (list_copies digitCodec [7, 0] (hfit 7 0)).2.2.2 2 _ digits_nestedFits ?_
    intro x hx y hy
    rcases List.mem_pair.mp hx with rfl | rfl
    · rcases List.mem_pair.mp hy with rfl | rfl <;> rfl
    · cases hy

end CheckedFlow.Codec
