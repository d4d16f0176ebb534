import CheckedFlow.Proofs.Json.Front
import Mathlib.Data.String.Basic
import Mathlib.Tactic.SplitIfs

/-!
# The order of texts is the order of their bytes

Texts are compared by their characters. UTF-8 keeps that order: of two characters the one with the
smaller number has the smaller bytes, whatever follows, as a longer form starts with a greater byte.

* `Bytes.ofChars_lt`, `Bytes.ofText_lt_iff`: comparing texts and comparing their bytes is the same.
-/

namespace CheckedFlow.Bytes

theorem cons_ofNat_lt {m n : Nat} {bs bs' : Bytes} (hm : m < 256) (hn : n < 256) :
    UInt8.ofNat m :: bs < UInt8.ofNat n :: bs' ↔ m < n ∨ m = n ∧ bs < bs' := by
  rw [List.cons_lt_cons_iff, UInt8.lt_iff_toNat_lt, ← UInt8.toNat_inj, UInt8.toNat_ofNat_of_lt' hm,
    UInt8.toNat_ofNat_of_lt' hn]

/-- A smaller character has smaller bytes, whatever stands behind. -/
theorem utf8EncodeChar_lt {c d : Char} (h : c < d) (bs bs' : Bytes) :
    String.utf8EncodeChar c ++ bs < String.utf8EncodeChar d ++ bs' := by
  have hlt : c.val.toNat < d.val.toNat := UInt32.lt_iff_toNat_lt.mp h
  have hd : d.val.toNat < 0x110000 := by
    have hvalid := d.valid
    simp only [UInt32.isValidChar, Nat.isValidChar] at hvalid
    omega
  unfold String.utf8EncodeChar
  dsimp only
  generalize c.val.toNat = m at *
  generalize d.val.toNat = n at *
  -- the digits to the base 64, each from the one before
  have hm₁ : m / 4096 = m / 64 / 64 := by omega
  have hm₂ : m / 262144 = m / 64 / 64 / 64 := by omega
  have hn₁ : n / 4096 = n / 64 / 64 := by omega
  have hn₂ : n / 262144 = n / 64 / 64 / 64 := by omega
  rw [hm₁, hm₂, hn₁, hn₂]
  clear hm₁ hm₂ hn₁ hn₂
  split_ifs <;> simp (disch := omega) only [List.cons_append, List.nil_append, cons_ofNat_lt] <;>
    omega

theorem ofChars_lt {cs ds : List Char} (h : cs < ds) : ofChars cs < ofChars ds := by
  induction cs generalizing ds with
  | nil =>
    cases ds with
    | nil => exact absurd h (List.lt_irrefl _)
    | cons d ds =>
      obtain ⟨b, bs, hb⟩ := List.exists_cons_of_ne_nil (String.utf8EncodeChar_ne_nil (c := d))
      rw [ofChars_nil, ofChars, List.flatMap_cons, hb]
      exact List.nil_lt_cons ..
  | cons c cs ih =>
    cases ds with
    | nil => exact absurd h (List.not_lt_nil _)
    | cons d ds =>
      rcases List.cons_lt_cons_iff.mp h with hcd | ⟨rfl, hcs⟩
      · exact utf8EncodeChar_lt hcd _ _
      · exact List.append_left_lt (ih hcs)

/-- Texts are in the order of their bytes. -/
theorem ofText_lt_iff {s t : String} : ofText s < ofText t ↔ s < t := by
  have hlt : ∀ {s t : String}, s < t → ofText s < ofText t := by
    intro s t h
    rw [ofText_eq_ofChars, ofText_eq_ofChars]
    exact ofChars_lt (String.lt_iff_toList_lt.mp h)
  refine ⟨fun h => ?_, hlt⟩
  rcases lt_trichotomy s t with hst | rfl | hst
  · exact hst
  · exact absurd h (List.lt_irrefl _)
  · exact absurd (List.lt_trans h (hlt hst)) (List.lt_irrefl _)

end CheckedFlow.Bytes
