import CheckedFlow.Proofs.Json.Containers

/-!
# Values in documents

A value without floats is read as it is written, if there are levels enough for the containers that
nest in it, and refused if not. It has to be in the form in which values are read: an object with
keys in another order would be read with its keys in order.

* `FloatFree`, `Exact`: the values that are read as they are written; they are so item by item and
  field by field.
* `within`: a value, if there are levels enough.
* `renderChars_begin`: the first character of a value, which tells `null` from all others.
* `valueWith_scalar`, `valueWith_array`, `valueWith_object`: the forms of a value.
* `value_takes`: all values.
-/

namespace CheckedFlow.Json

/-! ## Values without floats -/

mutual

/-- No number in the value is a float. -/
def FloatFree : Json → Prop
  | float _ => False
  | array items => FloatFreeItems items
  | object fields => FloatFreeFields fields
  | _ => True

/-- No number in an item is a float. -/
def FloatFreeItems : List Json → Prop
  | [] => True
  | x :: xs => FloatFree x ∧ FloatFreeItems xs

/-- No number in the value of a field is a float. -/
def FloatFreeFields : List (String × Json) → Prop
  | [] => True
  | (_, x) :: fs => FloatFree x ∧ FloatFreeFields fs

end

variable {j x : Json} {xs : List Json} {fields : List (String × Json)}

theorem floatFree_array : FloatFree (.array xs) ↔ ∀ x ∈ xs, x.FloatFree := by
  rw [FloatFree]
  induction xs with
  | nil => exact iff_of_true trivial (List.forall_mem_nil _)
  | cons x xs ih => rw [FloatFreeItems, ih, List.forall_mem_cons]

theorem floatFree_object : FloatFree (.object fields) ↔ ∀ f ∈ fields, f.2.FloatFree := by
  rw [FloatFree]
  induction fields with
  | nil => exact iff_of_true trivial (List.forall_mem_nil _)
  | cons f fields ih => rw [FloatFreeFields, ih, List.forall_mem_cons]

theorem canonical_array : Canonical (.array xs) ↔ ∀ x ∈ xs, x.Canonical := by
  rw [Canonical]
  induction xs with
  | nil => exact iff_of_true trivial (List.forall_mem_nil _)
  | cons x xs ih => rw [CanonicalItems, ih, List.forall_mem_cons]

theorem canonical_object : Canonical (.object fields) ↔
    fields.Pairwise (fun f g => f.1 < g.1) ∧ ∀ f ∈ fields, f.2.Canonical := by
  suffices h : CanonicalFields fields ↔ ∀ f ∈ fields, f.2.Canonical by rw [Canonical, h]
  induction fields with
  | nil => exact iff_of_true trivial (List.forall_mem_nil _)
  | cons f fields ih => rw [CanonicalFields, ih, List.forall_mem_cons]

/-- A value without floats, in the form in which values are read. -/
structure Exact (j : Json) : Prop where
  canonical : j.Canonical
  floatFree : j.FloatFree

theorem Exact.item (h : Exact (.array xs)) (hx : x ∈ xs) : Exact x :=
  ⟨canonical_array.mp h.canonical x hx, floatFree_array.mp h.floatFree x hx⟩

theorem Exact.sorted (h : Exact (.object fields)) : fields.Pairwise fun f g => f.1 < g.1 :=
  (canonical_object.mp h.canonical).1

theorem Exact.field {f : String × Json} (h : Exact (.object fields)) (hf : f ∈ fields) :
    Exact f.2 :=
  ⟨(canonical_object.mp h.canonical).2 f hf, floatFree_object.mp h.floatFree f hf⟩

/-! ## Levels -/

section Levels

variable {α β : Type} {need more levels : Nat}

/-- The value `x`, if so many levels are enough. -/
def within (need levels : Nat) (x : α) : Option α := if need ≤ levels then some x else none

theorem within_of_le (h : need ≤ levels) (x : α) : within need levels x = some x := if_pos h

theorem within_of_lt (h : levels < need) (x : α) : within need levels x = none :=
  if_neg (Nat.not_le.mpr h)

theorem within_succ (need levels : Nat) (x : α) :
    within (need + 1) (levels + 1) x = within need levels x := by
  simp only [within, Nat.add_le_add_iff_right]

theorem map_within (f : α → β) (x : α) :
    (within need levels x).map f = within need levels (f x) := by
  rw [within, within]
  split <;> rfl

/-- For two values together the levels that the greater need takes are enough. -/
theorem within_both {γ : Type} (f : α → β → γ) (x : α) (y : β) :
    (do return f (← within need levels x) (← within more levels y)) =
      within (max need more) levels (f x y) := by
  rcases Nat.lt_or_ge levels need with h | h
  · rw [within_of_lt h, within_of_lt (Nat.lt_of_lt_of_le h (Nat.le_max_left ..))]
    rfl
  · rw [within_of_le h]
    rcases Nat.lt_or_ge levels more with h' | h'
    · rw [within_of_lt h', within_of_lt (Nat.lt_of_lt_of_le h' (Nat.le_max_right ..))]
      rfl
    · rw [within_of_le h', within_of_le (Nat.max_le.mpr ⟨h, h'⟩)]
      rfl

/-- For all items together the levels that the greatest need takes are enough. -/
theorem mapM_within (f : α → Json) (levels : Nat) (xs : List α) :
    xs.mapM (fun x => within (f x).nesting levels x) =
      within (nestingItems (xs.map f)) levels xs := by
  induction xs with
  | nil => rfl
  | cons x xs ih =>
    rw [List.mapM_cons, ih, List.map_cons, nestingItems]
    exact within_both List.cons x xs

end Levels

/-! ## Written forms -/

theorem renderChars_null : renderChars .null = ['n', 'u', 'l', 'l'] := by simp [renderChars]

theorem renderChars_true : renderChars (.boolean true) = ['t', 'r', 'u', 'e'] := by
  simp [renderChars]

theorem renderChars_false : renderChars (.boolean false) = ['f', 'a', 'l', 's', 'e'] := by
  simp [renderChars]

theorem renderItems_eq (xs : List Json) : renderItems xs = Reader.allItems renderChars xs := by
  induction xs with
  | nil => rfl
  | cons x xs ih =>
    cases xs with
    | nil => rw [renderItems, Reader.allItems, Reader.moreItems, List.flatMap_nil, List.append_nil]
    | cons y ys =>
      rw [renderItems, ih]
      · rfl
      · exact List.cons_ne_nil _ _

theorem renderFields_eq (fields : List (String × Json)) :
    renderFields fields = Reader.allFields renderChars fields := by
  induction fields with
  | nil => rfl
  | cons f fields ih =>
    obtain ⟨key, x⟩ := f
    cases fields with
    | nil =>
      rw [renderFields, Reader.allFields, Reader.moreFields, List.flatMap_nil, List.append_nil]
    | cons g gs =>
      rw [renderFields, ih]
      · simp only [Reader.allFields, Reader.moreFields, List.flatMap_cons, List.append_assoc,
          List.cons_append]
      · exact List.cons_ne_nil _ _

/-- A value has a first character, and `null` alone begins with an `n`. -/
theorem renderChars_begin (h : j.FloatFree) :
    ∃ c tail, j.renderChars = c :: tail ∧ Reader.Begins c ∧ (c = 'n' → j = .null) := by
  cases j with
  | null => exact ⟨'n', _, renderChars_null, by decide, fun _ => rfl⟩
  | boolean b =>
    cases b with
    | true => exact ⟨'t', _, renderChars_true, by decide, fun h => absurd h (by decide)⟩
    | false => exact ⟨'f', _, renderChars_false, by decide, fun h => absurd h (by decide)⟩
  | integer n =>
    obtain ⟨c, tail, hcs, hc⟩ := signed_begin n
    refine ⟨c, tail, by rw [renderChars, hcs], Reader.begins_numeric hc, ?_⟩
    rintro rfl
    exact absurd hc (by decide)
  | float x => exact absurd h (by simp [FloatFree])
  | text s =>
    have hcs : renderChars (.text s) = '"' :: (s.toList.flatMap renderChar ++ ['"']) := by
      rw [renderChars, renderText, List.cons_append]
    exact ⟨'"', _, hcs, by decide, fun h => absurd h (by decide)⟩
  | array xs =>
    have hcs : renderChars (.array xs) = '[' :: (renderItems xs ++ [']']) := by
      rw [renderChars, List.cons_append]
    exact ⟨'[', _, hcs, by decide, fun h => absurd h (by decide)⟩
  | object fields =>
    have hcs : renderChars (.object fields) = '\x7b' :: (renderFields fields ++ ['\x7d']) := by
      rw [renderChars, List.cons_append]
    exact ⟨'\x7b', _, hcs, by decide, fun h => absurd h (by decide)⟩

theorem FloatFree.begun (h : j.FloatFree) : Reader.Begun j.renderChars := by
  obtain ⟨c, tail, hcs, hc, -⟩ := renderChars_begin h
  exact ⟨c, tail, hcs, hc⟩

namespace Reader

/-! ## Forms of a value -/

/-- A word stands for a value. -/
theorem word_run {α : Type} {word : List Char} (hword : word.all fun c => c.toNat < 0x80) (x : α)
    (rest : Bytes) :
    (do literal word; return x : Reader α).run (Bytes.ofChars word ++ rest) = .ok (x, rest) := by
  rw [run_bind_ok (literal_word hword rest)]
  rfl

/-- A value that holds no other values is read with any number of levels. -/
theorem valueWith_scalar (inner : Option (Reader Json)) (hj : Exact j) (h0 : j.nesting = 0) :
    Takes (valueWith inner) j.renderChars (some j) := by
  intro rest hrest
  unfold valueWith
  cases j with
  | null =>
    rw [renderChars_null, run_bind_ok (peek_char (by decide) _ rest)]
    exact word_run (by decide) _ rest
  | boolean b =>
    cases b with
    | true =>
      rw [renderChars_true, run_bind_ok (peek_char (by decide) _ rest)]
      exact word_run (by decide) _ rest
    | false =>
      rw [renderChars_false, run_bind_ok (peek_char (by decide) _ rest)]
      exact word_run (by decide) _ rest
  | integer n =>
    have hword : IsWord n := by simpa [Canonical] using hj.canonical
    have hnumber := number_takes hword rest hrest
    obtain ⟨c, tail, hcs, hc⟩ := signed_begin n
    rw [hcs] at hnumber
    rw [renderChars, hcs, run_bind_ok (peek_char (begins_numeric hc).1 tail rest)]
    -- no other form of a value begins with a sign or a digit
    split <;> rename_i heq <;> cases heq
    iterate 6 exact absurd hc (by decide)
    rw [if_pos hc, run_bind_ok hnumber]
    rfl
  | float x => exact absurd hj.floatFree (by simp [FloatFree])
  | text s =>
    rw [renderChars, run_bind_ok (peek_text s rest)]
    exact quoted_run s rest fun s => pure (Json.text s)
  | array xs => cases h0
  | object fields => cases h0

/-- Without a level no container is entered. -/
theorem valueWith_outside (hn : j.nesting ≠ 0) : Takes (valueWith none) j.renderChars none := by
  intro rest _
  unfold valueWith
  cases j with
  | array xs =>
    rw [renderChars, List.cons_append, run_bind_ok (peek_char (by decide) _ rest)]
    rfl
  | object fields =>
    rw [renderChars, List.cons_append, run_bind_ok (peek_char (by decide) _ rest)]
    rfl
  | _ => exact absurd rfl hn

/-- An array is accepted with its items. -/
theorem valueWith_array {item : Reader Json} {accept : Json → Option Json}
    (hitem : ∀ x ∈ xs, Takes item x.renderChars (accept x))
    (hbegun : ∀ x ∈ xs, Begun x.renderChars) :
    Takes (valueWith (some item)) (renderChars (.array xs)) ((xs.mapM accept).map array) := by
  intro rest _
  have hitems := items_run hitem hbegun rest
  unfold valueWith
  rw [renderChars, renderItems_eq, List.cons_append, run_bind_ok (peek_char (by decide) _ rest)]
  change StateT.run (skip >>= _) _ = _
  rw [run_bind_ok (skip_char (by decide) _ rest)]
  exact run_bind_outcome hitems fun _ => rfl

/-- The step of a reader of objects: a field at its place among the fields before it. -/
def takeField (item : Reader Json) (fields : List (String × Json)) (key : String) :
    Reader (List (String × Json)) := do
  colon
  return insertField key (← item) fields

/-- An object is accepted with its fields. -/
theorem valueWith_object {item : Reader Json} {fields? : Option (List (String × Json))}
    (h : Folds (takeField item) renderChars [] fields fields?) :
    Takes (valueWith (some item)) (renderChars (.object fields)) (fields?.map object) := by
  intro rest _
  have hfields := foldFields_run h rest
  unfold valueWith
  rw [renderChars, renderFields_eq, List.cons_append, run_bind_ok (peek_char (by decide) _ rest)]
  change StateT.run (skip >>= _) _ = _
  rw [run_bind_ok (skip_char (by decide) _ rest)]
  change StateT.run (foldFields (takeField item) [] >>= _) _ = _
  rw [run_bind_outcome (g := object) hfields]
  intro gs
  rw [run_bind_ok (endObject_run rest)]
  rfl

end Reader

/-- A field with the greatest key comes last. -/
theorem insertField_greatest {key : String} (x : Json) (h : ∀ f ∈ fields, f.1 < key) :
    insertField key x fields = fields ++ [(key, x)] := by
  induction fields with
  | nil => rfl
  | cons f fields ih =>
    have hlt := h f List.mem_cons_self
    have hne : key ≠ f.1 := by
      rintro rfl
      exact String.lt_irrefl _ hlt
    rw [insertField, if_neg (String.lt_asymm hlt), if_neg hne,
      ih fun g hg => h g (List.mem_cons_of_mem f hg), List.cons_append]

namespace Reader

theorem takeField_takes {item : Reader Json} {key : String} {levels : Nat}
    (hitem : Takes item x.renderChars (within x.nesting levels x)) (h : ∀ f ∈ fields, f.1 < key) :
    Takes (takeField item fields key) (':' :: x.renderChars)
      (within x.nesting levels (fields ++ [(key, x)])) := by
  intro rest hrest
  have hx := run_bind_outcome (hitem rest hrest) fun x =>
    run_return (insertField key x fields) rest
  rw [map_within, insertField_greatest x h] at hx
  rw [takeField, run_bind_ok (colon_run x.renderChars rest)]
  exact hx

/-- Fields with increasing keys are put one behind the other. -/
theorem folds_fields {item : Reader Json} {levels : Nat} (taken : List (String × Json))
    (hitem : ∀ f ∈ fields, Takes item f.2.renderChars (within f.2.nesting levels f.2))
    (hsorted : (taken ++ fields).Pairwise fun f g => f.1 < g.1) :
    Folds (takeField item) renderChars taken fields
      (within (nestingFields fields) levels (taken ++ fields)) := by
  induction fields generalizing taken with
  | nil =>
    rw [List.append_nil]
    exact .done taken
  | cons f fields ih =>
    obtain ⟨key, x⟩ := f
    have hlast : ∀ g ∈ taken, g.1 < key :=
      fun g hg => (List.pairwise_append.mp hsorted).2.2 g hg (key, x) List.mem_cons_self
    have htakes := takeField_takes (hitem (key, x) List.mem_cons_self) hlast
    rw [nestingFields]
    rcases Nat.lt_or_ge levels x.nesting with hlt | hle
    · rw [within_of_lt hlt] at htakes
      rw [within_of_lt (Nat.lt_of_lt_of_le hlt (Nat.le_max_left ..))]
      exact .refused htakes
    · rw [within_of_le hle] at htakes
      have hrest := ih (taken ++ [(key, x)])
        (fun g hg => hitem g (List.mem_cons_of_mem _ hg))
        (by rwa [List.append_assoc, List.singleton_append])
      have hmax : within (max x.nesting (nestingFields fields)) levels =
          within (α := List (String × Json)) (nestingFields fields) levels := by
        funext gs
        simp only [within, Nat.max_le, hle, true_and]
      rw [List.append_assoc, List.singleton_append] at hrest
      rw [hmax]
      exact .next htakes hrest

/-- A value is read as it is written, if there are levels enough for it. -/
theorem value_takes (hj : Exact j) (levels : Nat) :
    Takes (value levels) j.renderChars (within j.nesting levels j) := by
  induction levels generalizing j with
  | zero =>
    cases hn : j.nesting with
    | zero => exact valueWith_scalar none hj hn
    | succ n => exact valueWith_outside (by rw [hn]; exact Nat.succ_ne_zero n)
  | succ levels ih =>
    cases j with
    | array xs =>
      have hbegun : ∀ x ∈ xs, Begun x.renderChars := fun x hx => (hj.item hx).floatFree.begun
      have harray := valueWith_array (fun x hx => ih (hj.item hx)) hbegun
      have hitems := mapM_within (fun x => x) levels xs
      rw [List.map_id'] at hitems
      rwa [hitems, map_within, ← within_succ] at harray
    | object fields =>
      have hfields := folds_fields [] (fun f hf => ih (hj.field hf)) hj.sorted
      have hobject := valueWith_object hfields
      rwa [map_within, ← within_succ] at hobject
    | _ => exact valueWith_scalar _ hj rfl

end Reader

end CheckedFlow.Json
