import CheckedFlow.View.Contents

/-!
# What is read from a view

* `ViewContents.read_materialize`: a window reads the value of its own elements, in their order.
  Only the global window can find that it has none.
* `ViewContents.read_global`: the global window of a view whose elements are all in it, also if
  there are none.
* `ViewFn.copied_ok`, `ViewFn.copied_error`: a view of copies that all succeeded, and of copies the
  first failure of which is known.
-/

namespace CheckedFlow

namespace Dictionary

variable {κ α β : Type} [DecidableEq κ]

theorem get?_mapValues (f : α → β) (d : Dictionary κ α) (k : κ) :
    (d.mapValues f).get? k = (d.get? k).map f := by
  simp [get?, mapValues, List.find?_map, Function.comp_def]

theorem group_entries_eq_nil {entries : List (κ × α)} :
    (group entries).entries = [] ↔ entries = [] := by
  cases entries with
  | nil => simp [group, empty]
  | cons e rest => simp [group, addToGroup]

end Dictionary

namespace ViewContents

variable {α β : Type}

/-- A window reads the value of its own elements. The global window does not read the value of no
elements from a view that has some. -/
theorem read_materialize (name : String) (f : ViewFn α β) (xs : List (Windowed α)) (w : Window) :
    let own := (xs.filter fun x => x.window = w).map Windowed.value
    (materialize name f xs).read w =
      if own = [] ∧ w = .global ∧ xs ≠ [] then
        .error (.viewMaterialization name
          (.intervalsOnly (materialize name f xs).perWindow.entries.length))
      else valueOf name f own := by
  intro own
  have hget : (materialize name f xs).perWindow.get? w =
      if own = [] then none else some (valueOf name f own) := by
    have hown : ((xs.map fun e => (e.window, e.value)).filter fun e => e.1 = w).map Prod.snd =
        own := by
      rw [List.filter_map, List.map_map]
      rfl
    simp only [materialize, Dictionary.get?_mapValues, Dictionary.get?_group, hown]
    split <;> rfl
  have hempty : (materialize name f xs).perWindow.entries.isEmpty = true ↔ xs = [] := by
    simp [materialize, Dictionary.mapValues, Dictionary.group_entries_eq_nil]
  rw [read, hget]
  by_cases hown : own = []
  · simp only [hown, if_true, true_and, hempty]
    rfl
  · simp [hown]

/-- The global window of a view without intervals reads the value of all elements. -/
theorem read_global (name : String) (f : ViewFn α β) {xs : List (Windowed α)}
    (h : ∀ x ∈ xs, x.window = .global) :
    (materialize name f xs).read .global = valueOf name f (xs.map Windowed.value) := by
  have hall : (xs.filter fun x => x.window = .global) = xs :=
    List.filter_eq_self.mpr fun x hx => decide_eq_true (h x hx)
  rw [read_materialize, hall, if_neg]
  rintro ⟨hown, -, hxs⟩
  exact hxs (List.map_eq_nil_iff.mp hown)

end ViewContents

namespace ViewFn

variable {α β : Type}

theorem copied_ok (index : Nat) (ys : List α) : copied index (ys.map .ok) = .ok ys := by
  induction ys generalizing index with
  | nil => rfl
  | cons y ys ih =>
    rw [List.map_cons, copied, ih]
    rfl

/-- Only copies that all succeeded have values. -/
theorem eq_of_copied_ok {copies : List (Except SerializationError α)} {index : Nat} {ys : List α}
    (h : copied index copies = .ok ys) : copies = ys.map .ok := by
  induction copies generalizing index ys with
  | nil => cases h; rfl
  | cons c rest ih =>
    cases c with
    | error e => cases h
    | ok y =>
      rw [copied] at h
      cases hrest : copied (index + 1) rest with
      | error e => rw [hrest] at h; cases h
      | ok zs =>
        rw [hrest] at h
        cases h
        rw [List.map_cons, ← ih hrest]

/-- The first copy that failed is told, by its place. -/
theorem copied_error {copies : List (Except SerializationError α)} {index i : Nat}
    {e : SerializationError} (hi : copies[i]? = some (.error e))
    (hfirst : ∀ j < i, ∃ y, copies[j]? = some (.ok y)) :
    copied index copies = .error (.copyFailed (index + i) e) := by
  induction copies generalizing index i with
  | nil => simp at hi
  | cons c rest ih =>
    cases i with
    | zero =>
      rw [List.getElem?_cons_zero, Option.some.injEq] at hi
      rw [hi]
      rfl
    | succ i =>
      obtain ⟨y, hy⟩ := hfirst 0 i.succ_pos
      rw [List.getElem?_cons_zero, Option.some.injEq] at hy
      have hrest : copied (index + 1) rest = .error (.copyFailed (index + 1 + i) e) :=
        ih hi fun j hj => hfirst (j + 1) (Nat.succ_lt_succ hj)
      rw [hy, copied, hrest, Nat.add_right_comm]
      rfl

end ViewFn

end CheckedFlow
