import CheckedFlow.Failure.Difference
import Mathlib.Data.List.Induction
import Mathlib.Data.List.Nodup

/-!
# What a tally says

A tally of texts lists each text once, in order of first occurrence, with the number of its copies.

* `ofTexts_eq`: the entries of a tally.
* `count_ofTexts`, `total_ofTexts`: the copies of one text, and of all texts together.
-/

namespace CheckedFlow.Tally

/-- The copies of all texts together. -/
def total : Tally → Nat
  | [] => 0
  | (_, n) :: tally => n + total tally

theorem total_add (t : String) (tally : Tally) : total (add t tally) = total tally + 1 := by
  induction tally with
  | nil => rfl
  | cons e tally ih =>
    obtain ⟨u, n⟩ := e
    by_cases h : u = t
    · simp only [add, if_pos h, total]
      omega
    · simp only [add, if_neg h, total, ih]
      omega

theorem ofTexts_concat (texts : List String) (t : String) :
    ofTexts (texts ++ [t]) = add t (ofTexts texts) := List.foldl_concat ..

/-- One more text at the end is a new one only if it did not occur before. -/
theorem eraseDups_concat (texts : List String) (t : String) :
    (texts ++ [t]).eraseDups = if t ∈ texts then texts.eraseDups else texts.eraseDups ++ [t] := by
  rw [List.eraseDups_append]
  by_cases h : t ∈ texts <;> simp [List.removeAll, List.eraseDups_cons, h]

theorem nodup_eraseDups (texts : List String) : texts.eraseDups.Nodup := by
  induction texts using List.reverseRecOn with
  | nil => exact List.nodup_nil
  | append_singleton texts t ih =>
    rw [eraseDups_concat]
    split
    · exact ih
    · rename_i h
      refine List.nodup_append.mpr ⟨ih, List.nodup_singleton t, fun u hu v hv => ?_⟩
      rw [List.mem_singleton] at hv
      rintro rfl
      exact h (hv ▸ List.mem_eraseDups.mp hu)

/-- One more copy of a text among the texts of a tally, or of a new one. -/
theorem add_counts {texts : List String} (hnodup : texts.Nodup) (n : String → Nat) (t : String) :
    add t (texts.map fun u => (u, n u)) =
      if t ∈ texts then texts.map fun u => (u, if u = t then n u + 1 else n u)
      else texts.map (fun u => (u, n u)) ++ [(t, 1)] := by
  induction texts with
  | nil => rfl
  | cons u texts ih =>
    obtain ⟨hu, hrest⟩ := List.nodup_cons.mp hnodup
    rw [List.map_cons, add]
    by_cases h : u = t
    · subst h
      have hsame : texts.map (fun v => (v, n v)) =
          texts.map fun v => (v, if v = u then n v + 1 else n v) := by
        refine List.map_congr_left fun v hv => ?_
        have hvu : v ≠ u := ne_of_mem_of_not_mem hv hu
        rw [if_neg hvu]
      simp [hsame]
    · rw [if_neg h, ih hrest]
      by_cases ht : t ∈ texts
      · simp [h, ht]
      · simp [Ne.symm h, ht]

/-- A tally lists each text once, in order of first occurrence, with the number of its copies. -/
theorem ofTexts_eq (texts : List String) :
    ofTexts texts = texts.eraseDups.map fun t => (t, texts.count t) := by
  induction texts using List.reverseRecOn with
  | nil => rfl
  | append_singleton texts t ih =>
    rw [ofTexts_concat, ih, add_counts (nodup_eraseDups texts), eraseDups_concat]
    by_cases h : t ∈ texts
    · simp only [List.mem_eraseDups, h, if_true]
      refine List.map_congr_left fun u _ => ?_
      by_cases hu : u = t
      · simp [hu]
      · simp [hu, Ne.symm hu]
    · simp only [List.mem_eraseDups, h, if_false, List.map_append, List.map_cons, List.map_nil]
      congr 1
      · refine List.map_congr_left fun u hu => ?_
        have hne : t ≠ u := fun htu => h (htu ▸ List.mem_eraseDups.mp hu)
        simp [hne]
      · simp [List.count_eq_zero_of_not_mem h]

/-- The copies of a text. -/
theorem count_ofTexts (texts : List String) (t : String) :
    count t (ofTexts texts) = texts.count t := by
  have hlookup : ∀ keys : List String, (keys.map fun u => (u, texts.count u)).lookup t =
      if t ∈ keys then some (texts.count t) else none := by
    intro keys
    induction keys with
    | nil => rfl
    | cons u keys ih =>
      by_cases h : t = u
      · simp [h]
      · have hbeq : (t == u) = false := beq_eq_false_iff_ne.mpr h
        simp [List.lookup_cons, h, hbeq, ih]
  rw [count, ofTexts_eq, hlookup]
  by_cases h : t ∈ texts
  · simp [h]
  · simp [h, List.count_eq_zero_of_not_mem h]

/-- All copies are counted. -/
theorem total_ofTexts (texts : List String) : total (ofTexts texts) = texts.length := by
  induction texts using List.reverseRecOn with
  | nil => rfl
  | append_singleton texts t ih =>
    rw [ofTexts_concat, total_add, ih, List.length_append, List.length_singleton]

end CheckedFlow.Tally
