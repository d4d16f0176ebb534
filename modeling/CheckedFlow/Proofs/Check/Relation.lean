import CheckedFlow.Check.Relation
import Mathlib.Data.List.Forall2

/-!
# Comparing collections without order

Taking the first partner that is left is as good as any other choice, if the equality of elements is
an equivalence: the greedy matching leaves nothing exactly if one list is a reordering of the other.

* `IsPartialEquality`, `IsEquality`: what is asked of an equality of elements.
* `Reorders`: one list is the other in some order, up to an equality of elements.
* `reorders_iff_count`, `unmatched_eq_nil_iff`: both are a matter of how often each element occurs.
* `difference?_eq_none_iff`: there is no difference exactly between reorderings.
* `Relation.containsInAnyOrder_passes`, `Relation.isEqualTo_passes`, `Relation.notEqualTo_passes`:
  what the relations accept.
-/

namespace CheckedFlow

variable {α : Type} {same : α → α → Bool}

/-- `xs` is `ys` in some order, up to `same`. -/
def Reorders (same : α → α → Bool) (xs ys : List α) : Prop :=
  ∃ zs : List α, zs.Perm ys ∧ List.Forall₂ (fun x z => same x z = true) xs zs

/-- The equality `same` is symmetric and transitive. -/
structure IsPartialEquality (same : α → α → Bool) : Prop where
  symm : ∀ {x y}, same x y = true → same y x = true
  trans : ∀ {x y z}, same x y = true → same y z = true → same x z = true

namespace IsPartialEquality

variable {x y : α}

theorem refl_right (h : IsPartialEquality same) (hxy : same x y = true) : same y y = true :=
  h.trans (h.symm hxy) hxy

/-- Nothing tells apart two elements that are the same. -/
theorem congr (h : IsPartialEquality same) (hxy : same x y = true) (a : α) :
    same a x = same a y := by
  rw [Bool.eq_iff_iff]
  exact ⟨fun ha => h.trans ha hxy, fun ha => h.trans ha (h.symm hxy)⟩

theorem comm (h : IsPartialEquality same) (x y : α) : same x y = same y x := by
  rw [Bool.eq_iff_iff]
  exact ⟨h.symm, h.symm⟩

theorem countP_congr (h : IsPartialEquality same) (hxy : same x y = true) (l : List α) :
    l.countP (same x) = l.countP (same y) := by
  refine List.countP_congr fun a _ => ?_
  rw [h.comm x, h.comm y, h.congr hxy]

end IsPartialEquality

/-- The equality `same` is an equivalence. -/
def IsEquality (same : α → α → Bool) : Prop := Equivalence fun x y => same x y = true

theorem IsEquality.isPartial (he : IsEquality same) : IsPartialEquality same := ⟨he.symm, he.trans⟩

/-- Elements that are the same are the same as the same elements. -/
theorem IsEquality.congr (he : IsEquality same) {x y : α} (h : same x y = true) (a : α) :
    same a x = same a y := he.isPartial.congr h a

/-- One element more is counted once, wherever it stands. -/
theorem countP_insert (p : α → Bool) (b : α) (l₁ l₂ : List α) :
    (l₁ ++ b :: l₂).countP p = (l₁ ++ l₂).countP p + if p b then 1 else 0 := by
  simp only [List.countP_append, List.countP_cons]
  omega

/-- A reordering has as many copies of every element, and only a reordering has. -/
theorem reorders_iff_count (he : IsEquality same) {xs ys : List α} :
    Reorders same xs ys ↔ ∀ a, xs.countP (same a) = ys.countP (same a) := by
  constructor
  · rintro ⟨zs, hperm, hsame⟩ a
    rw [← hperm.countP_eq]
    clear hperm
    induction hsame with
    | nil => rfl
    | cons h _ ih => rw [List.countP_cons, List.countP_cons, ih, he.congr h]
  · intro hcount
    induction xs generalizing ys with
    | nil =>
      cases ys with
      | nil => exact ⟨[], .nil, .nil⟩
      | cons y ys =>
        have hy := hcount y
        simp [he.refl y] at hy
    | cons x xs ih =>
      have hx : 0 < ys.countP (same x) := by
        rw [← hcount x, List.countP_cons, if_pos (he.refl x)]
        omega
      obtain ⟨b, hb, hxb⟩ := List.countP_pos_iff.mp hx
      obtain ⟨l₁, l₂, rfl⟩ := List.append_of_mem hb
      have hrest : ∀ a, xs.countP (same a) = (l₁ ++ l₂).countP (same a) := by
        intro a
        have ha := hcount a
        rw [countP_insert, List.countP_cons, he.congr hxb] at ha
        omega
      obtain ⟨zs, hperm, hsame⟩ := ih hrest
      exact ⟨b :: zs, (hperm.cons b).trans List.perm_middle.symm, .cons hxb hsame⟩

/-- The greedy matching leaves nothing exactly if every element has as many copies on both sides. -/
theorem unmatched_eq_nil_iff (he : IsEquality same) {expected actual : List α} :
    unmatched same expected actual = ([], []) ↔
      ∀ a, actual.countP (same a) = expected.countP (same a) := by
  induction expected generalizing actual with
  | nil =>
    rw [unmatched, Prod.mk.injEq]
    refine ⟨fun ⟨_, h⟩ a => by rw [h], fun h => ⟨rfl, ?_⟩⟩
    cases actual with
    | nil => rfl
    | cons b actual =>
      have hb := h b
      simp [he.refl b] at hb
  | cons x expected ih =>
    by_cases hany : actual.any (same · x) = true
    · obtain ⟨c, hc, hcx⟩ := List.any_eq_true.mp hany
      obtain ⟨b, l₁, l₂, -, hbx, hl, herase⟩ := List.exists_of_eraseP (p := (same · x)) hc hcx
      rw [unmatched, if_pos hany, ih, herase, hl]
      refine forall_congr' fun a => ?_
      rw [countP_insert, List.countP_cons, he.congr hbx]
      omega
    · simp only [unmatched, if_neg hany, Prod.mk.injEq, reduceCtorEq, false_and, false_iff]
      intro hcount
      have hx := hcount x
      rw [List.countP_cons, if_pos (he.refl x)] at hx
      obtain ⟨b, hb, hxb⟩ := List.countP_pos_iff.mp (show 0 < actual.countP (same x) by omega)
      exact hany (List.any_eq_true.mpr ⟨b, hb, he.symm hxb⟩)

/-- Two lists differ unless one is a reordering of the other. -/
theorem difference?_eq_none_iff (he : IsEquality same) {text : α → String}
    {expected actual : List α} :
    difference? same text expected actual = none ↔ Reorders same actual expected := by
  rw [reorders_iff_count he, ← unmatched_eq_nil_iff he, difference?]
  obtain ⟨missing, unexpected⟩ := unmatched same expected actual
  cases missing <;> cases unexpected <;> simp

/-- A check of the elements in any order passes reorderings and finds a mismatch in everything
else. -/
theorem Relation.containsInAnyOrder_passes (he : IsEquality same) (text : α → String)
    (expected actual : List α) :
    (((containsInAnyOrder same text).bind expected actual).verdict = .passed ↔
        Reorders same actual expected) ∧
      (¬ Reorders same actual expected →
        ∃ d, ((containsInAnyOrder same text).bind expected actual).verdict =
          .failed (.mismatch d)) := by
  rw [← @difference?_eq_none_iff α same he text expected actual]
  simp only [containsInAnyOrder]
  cases difference? same text expected actual with
  | none => simp
  | some d => simp

/-- A check for equality passes exactly the values that are the same. -/
theorem Relation.isEqualTo_passes (text : α → String) (expected actual : α) :
    ((isEqualTo same text).bind expected actual).verdict = .passed ↔ same actual expected = true := by
  simp only [isEqualTo]
  split <;> simp [*]

/-- A check for inequality passes exactly the other values. -/
theorem Relation.notEqualTo_passes (text : α → String) (expected actual : α) :
    ((notEqualTo same text).bind expected actual).verdict = .passed ↔
      ¬ same actual expected = true := by
  simp only [notEqualTo]
  split <;> simp [*]

end CheckedFlow
