import CheckedFlow.Element.Document
import CheckedFlow.Proofs.Json.Value

/-!
# Values of known types in documents

Where the type of a value is known, its reader takes the written form of a value of that type off
the front. Containers of any type are read if there is a level left for them and levels enough for
what they hold.

* `found_null`, `found_boolean`, `found_text`, `found_integer`: what stands at the front, and the
  readers of scalars.
* `array_takes`: arrays, if the items are taken. `itemAt_first`, `itemAt_next`: the items of an array
  of fixed length.
* `record_takes`: records from objects, if the fields lead to a state that is complete.
-/

namespace CheckedFlow.Json.Reader

open Decoding

variable {α β σ : Type} {r : Reader α} {cs : List Char} {x : α} {x? : Option α} {rest : Bytes}

theorem Takes.into (h : Takes r cs x?) (f : α → β) :
    Takes (do return f (← r)) cs (x?.map f) := by
  intro rest hrest
  exact run_bind_outcome (h rest hrest) fun _ => rfl

theorem Takes.map (h : Takes r cs x?) (f : α → β) : Takes (f <$> r) cs (x?.map f) := by
  rw [map_eq_pure_bind]
  exact h.into f

/-! ## Scalars -/

theorem found_null : Takes found (renderChars .null) (some .nothing) := by
  intro rest _
  unfold found
  rw [renderChars_null, run_bind_ok (peek_char (by decide) _ rest)]
  exact word_run (by decide) _ rest

theorem found_boolean (b : Bool) : Takes found (renderChars (.boolean b)) (some (.boolean b)) := by
  intro rest _
  unfold found
  cases b with
  | true =>
    rw [renderChars_true, run_bind_ok (peek_char (by decide) _ rest)]
    exact word_run (by decide) _ rest
  | false =>
    rw [renderChars_false, run_bind_ok (peek_char (by decide) _ rest)]
    exact word_run (by decide) _ rest

theorem found_text (s : String) : Takes found (renderChars (.text s)) (some (.text s)) := by
  intro rest _
  unfold found
  rw [renderChars, run_bind_ok (peek_text s rest)]
  exact quoted_run s rest fun s => pure (Found.text s)

theorem found_integer {n : Int} (h : IsWord n) :
    Takes found (renderChars (.integer n)) (some (.integer n)) := by
  intro rest hrest
  have hnumber := number_takes h rest hrest
  obtain ⟨c, tail, hcs, hc⟩ := signed_begin n
  rw [hcs] at hnumber
  unfold found
  rw [renderChars, hcs, run_bind_ok (peek_char (begins_numeric hc).1 tail rest)]
  split <;> rename_i heq <;> cases heq
  iterate 6 exact absurd hc (by decide)
  rw [if_pos hc, run_bind_ok hnumber]
  rfl

theorem nothing_takes : Takes nothing (renderChars .null) (some ()) := by
  intro rest hrest
  rw [nothing, run_bind_ok (found_null rest hrest)]
  rfl

theorem truth_takes (b : Bool) : Takes truth (renderChars (.boolean b)) (some b) := by
  intro rest hrest
  rw [truth, run_bind_ok (found_boolean b rest hrest)]
  rfl

theorem anyText_takes (wanted s : String) :
    Takes (anyText wanted) (renderChars (.text s)) (some s) := by
  intro rest hrest
  rw [anyText, run_bind_ok (found_text s rest hrest)]
  rfl

theorem wholeBetween_takes {low high n : Int} (wanted : String) (h : IsWord n) (hlow : low ≤ n)
    (hhigh : n ≤ high) :
    Takes (wholeBetween low high wanted) (renderChars (.integer n)) (some n) := by
  intro rest hrest
  rw [wholeBetween, run_bind_ok (found_integer h rest hrest)]
  simp only [hlow, hhigh, and_self, if_true]
  rfl

theorem isWord_int64 (n : Int64) : IsWord n.toInt := by
  have hlow := n.le_toInt
  have hhigh := n.toInt_lt
  exact ⟨hlow, Int.lt_trans hhigh (by decide)⟩

theorem isWord_natCast {n : Nat} (h : n < UInt64.size) : IsWord n :=
  ⟨Int.le_trans (by decide) (Int.natCast_nonneg n), Int.ofNat_lt.mpr h⟩

theorem int64_takes (n : Int64) : Takes int64 (renderChars (.integer n.toInt)) (some n) := by
  have h := (wholeBetween_takes "i64" (isWord_int64 n) n.minValue_le_toInt n.toInt_le).map Int64.ofInt
  rwa [Option.map_some, Int64.ofInt_toInt] at h

theorem uint32_takes (n : UInt32) : Takes uint32 (renderChars (.integer n.toNat)) (some n) := by
  have hsize : n.toNat < UInt32.size := n.toNat_lt
  have h := (wholeBetween_takes "u32" (isWord_natCast (Nat.lt_trans hsize (by decide)))
    (Int.natCast_nonneg _) (Int.le_sub_one_of_lt (Int.ofNat_lt.mpr hsize))).map
    fun n : Int => UInt32.ofNat n.toNat
  rwa [Option.map_some, Int.toNat_natCast, UInt32.ofNat_toNat] at h

/-! ## Containers -/

/-- An array is read if a level is left for it and levels enough for its items. -/
theorem array_takes {body : Nat → Reader α} {need : Nat} (wanted : String)
    (hbody : ∀ inner rest, (body inner).run (Bytes.ofChars cs ++ (Bytes.ofChars [']'] ++ rest)) =
      outcome (within need inner x) (Bytes.ofChars [']'] ++ rest)) (levels : Nat) :
    Takes (array levels wanted body) ('[' :: (cs ++ [']'])) (within (need + 1) levels x) := by
  intro rest _
  rw [array, run_bind_ok (peek_char (by decide) _ rest), if_pos rfl]
  cases levels with
  | zero => rfl
  | succ inner =>
    have hinner := hbody inner rest
    change StateT.run (skip >>= _) _ = _
    rw [run_bind_ok (skip_char (by decide) _ rest), within_succ, Bytes.ofChars_append,
      List.append_assoc]
    rw [run_bind_outcome (g := id) hinner, Option.map_id_apply]
    intro y
    rw [run_bind_ok (endArray_run rest)]
    rfl

theorem itemAt_first (wanted : String) (h : Takes r cs x?) (hcs : Begun cs) (hrest : Stops rest) :
    (itemAt 0 wanted r).run (Bytes.ofChars cs ++ rest) = outcome x? rest := by
  rw [itemAt]
  change StateT.run (nextItem true >>= _) _ = _
  rw [run_bind_ok (nextItem_first hcs rest), if_pos rfl]
  exact h rest hrest

theorem itemAt_next (index : Nat) (wanted : String) (h : Takes r cs x?) (hcs : Begun cs)
    (hrest : Stops rest) :
    (itemAt (index + 1) wanted r).run (Bytes.ofChars (',' :: cs) ++ rest) = outcome x? rest := by
  rw [itemAt]
  change StateT.run (nextItem false >>= _) _ = _
  rw [run_bind_ok (nextItem_comma hcs rest), if_pos rfl]
  exact h rest hrest

theorem once_takes (name : String) (h : Takes r cs (some x)) :
    Takes (once name none r) (':' :: cs) (some (some x)) := by
  intro rest hrest
  rw [once, if_neg nofun]
  change StateT.run (colon >>= _) _ = _
  rw [run_bind_ok (colon_run cs rest), run_bind_ok (h rest hrest)]
  rfl

/-- A record is read from an object if a level is left for it. -/
theorem record_takes {items : Reader α} {step : σ → String → Reader σ} {start s : σ}
    {finish : σ → Reader α} {fields : List (String × Json)} (wanted : String)
    (hfields : Folds step renderChars start fields (some s))
    (hfinish : ∀ bs, (finish s).run bs = .ok (x, bs)) (levels : Nat) :
    Takes (record levels wanted items step start finish) (renderChars (.object fields))
      (within 1 levels x) := by
  intro rest _
  unfold record
  rw [renderChars, renderFields_eq, List.cons_append, run_bind_ok (peek_char (by decide) _ rest)]
  cases levels with
  | zero => rfl
  | succ inner =>
    change StateT.run (skip >>= _) _ = _
    rw [run_bind_ok (skip_char (by decide) _ rest)]
    change StateT.run (foldFields step start >>= _) _ = _
    rw [run_bind_ok (foldFields_run hfields rest), run_bind_ok (hfinish _),
      run_bind_ok (endObject_run rest)]
    rfl

/-- A whole document holds what its reader takes. -/
theorem document_takes (h : Takes r cs x?) :
    document r (Bytes.ofChars cs) = (outcome x? []).map Prod.fst := by
  have hr := h [] stops_nil
  rw [List.append_nil] at hr
  rw [document, hr]
  cases x? <;> rfl

end CheckedFlow.Json.Reader
