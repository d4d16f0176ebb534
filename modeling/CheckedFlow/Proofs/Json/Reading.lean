import CheckedFlow.Proofs.Json.Value

/-!
# Values that were read

Whatever bytes a reader is given, the values it produces have a form of their own: a whole number
that is read has at most 64 bits, the keys of an object increase, and no more containers nest than
there are levels. So a value that was read and has no floats is written and read back as it was.

* `Yields`: what holds of all values that a reader produces. `Yields.bind`, `items_yields`,
  `foldFields_yields` go through the steps of a reader.
* `number_yields`, `value_yields`: numbers and values.
* `exact_of_read`: whole documents.
-/

namespace CheckedFlow.Json

/-! ## Fields in order -/

variable {fields : List (String × Json)} {key : String} {x : Json}

theorem mem_insertField {f : String × Json} (hf : f ∈ insertField key x fields) :
    f = (key, x) ∨ f ∈ fields := by
  induction fields with
  | nil => exact .inl (List.mem_singleton.mp hf)
  | cons g fields ih =>
    rw [insertField] at hf
    split at hf
    · exact List.mem_cons.mp hf
    split at hf
    · exact (List.mem_cons.mp hf).imp_right (List.mem_cons_of_mem g)
    · rcases List.mem_cons.mp hf with rfl | hf
      · exact .inr List.mem_cons_self
      · exact (ih hf).imp_right (List.mem_cons_of_mem g)

/-- A field is put at its place. -/
theorem pairwise_insertField (x : Json) (h : fields.Pairwise fun f g => f.1 < g.1) :
    (insertField key x fields).Pairwise fun f g => f.1 < g.1 := by
  induction fields with
  | nil => exact List.pairwise_singleton ..
  | cons g fields ih =>
    obtain ⟨hg, hfields⟩ := List.pairwise_cons.mp h
    rw [insertField]
    split
    · rename_i hlt
      refine List.pairwise_cons.mpr ⟨fun f hf => ?_, h⟩
      rcases List.mem_cons.mp hf with rfl | hf
      · exact hlt
      · exact String.lt_trans hlt (hg f hf)
    split
    · rename_i heq
      subst heq
      exact List.pairwise_cons.mpr ⟨hg, hfields⟩
    · rename_i hnot hne
      refine List.pairwise_cons.mpr ⟨fun f hf => ?_, ih hfields⟩
      rcases mem_insertField hf with rfl | hf
      · exact Std.lt_of_le_of_ne (String.not_lt.mp hnot) (Ne.symm hne)
      · exact hg f hf

namespace Reader

variable {α β σ : Type} {r : Reader α} {f : α → Reader β} {P : β → Prop} {Q : α → Prop}

/-! ## What readers produce -/

/-- Every value that the reader produces has the property `Q`. -/
def Yields (r : Reader α) (Q : α → Prop) : Prop := ∀ bs x rest, r.run bs = .ok (x, rest) → Q x

theorem yields_any (r : Reader α) : Yields r fun _ => True := fun _ _ _ _ => trivial

theorem yields_return {x : α} (h : Q x) : Yields (pure x : Reader α) Q := by
  intro bs y rest hy
  obtain rfl : x = y := congrArg Prod.fst (Except.ok.inj hy)
  exact h

theorem yields_malformed (Q : α → Prop) : Yields (malformed : Reader α) Q := by
  intro bs x rest hx
  cases hx

theorem Yields.bind (hr : Yields r Q) (hf : ∀ x, Q x → Yields (f x) P) : Yields (r >>= f) P := by
  intro bs y rest hy
  rw [StateT.run_bind] at hy
  cases hx : r.run bs with
  | error e =>
    rw [hx] at hy
    cases hy
  | ok p =>
    rw [hx] at hy
    exact hf p.1 (hr bs p.1 p.2 hx) p.2 y rest hy

/-- Behind a step that only moves on. -/
theorem yields_behind (r : Reader α) (hf : ∀ x, Yields (f x) P) : Yields (r >>= f) P :=
  (yields_any r).bind fun x _ => hf x

theorem itemsFrom_yields (h : Yields r Q) (rounds : Bytes) (first : Bool) :
    Yields (itemsFrom r rounds first) fun xs => ∀ x ∈ xs, Q x := by
  induction rounds generalizing first with
  | nil => exact yields_malformed _
  | cons b rounds ih =>
    rw [itemsFrom]
    refine yields_behind _ fun more => ?_
    split
    · refine h.bind fun x hx => (ih false).bind fun xs hxs => yields_return ?_
      exact List.forall_mem_cons.mpr ⟨hx, hxs⟩
    · exact yields_return (List.forall_mem_nil _)

theorem items_yields (h : Yields r Q) : Yields (items r) fun xs => ∀ x ∈ xs, Q x := by
  refine yields_behind _ fun bs => (itemsFrom_yields h bs true).bind fun xs hxs => ?_
  exact yields_behind _ fun _ => yields_return hxs

theorem foldFieldsFrom_yields {step : σ → String → Reader σ} {I : σ → Prop}
    (hstep : ∀ s key, I s → Yields (step s key) I) (rounds : Bytes) (first : Bool) {s : σ}
    (hs : I s) : Yields (foldFieldsFrom step rounds first s) I := by
  induction rounds generalizing first s with
  | nil => exact yields_malformed _
  | cons b rounds ih =>
    rw [foldFieldsFrom]
    refine yields_behind _ fun key? => ?_
    split
    · exact (hstep s _ hs).bind fun s' hs' => ih false hs'
    · exact yields_return hs

theorem foldFields_yields {step : σ → String → Reader σ} {I : σ → Prop}
    (hstep : ∀ s key, I s → Yields (step s key) I) {s : σ} (hs : I s) :
    Yields (foldFields step s) I :=
  yields_behind _ fun bs => foldFieldsFrom_yields hstep bs true hs

end Reader

/-! ## Numbers and values -/

theorem isWord_of_value? {n : Numeral} {w : Int} (h : n.value? = some (.whole w)) : IsWord w := by
  simp only [Numeral.value?] at h
  split at h
  · rename_i hfits
    obtain rfl := Number.whole.inj (Option.some.inj h)
    exact ⟨Int.le_trans (by decide) (Int.natCast_nonneg _), Int.ofNat_lt.mpr hfits.2.2⟩
  split at h
  · rename_i hfits
    obtain rfl := Number.whole.inj (Option.some.inj h)
    have hle := Int.ofNat_le.mpr hfits.2.2.2
    exact ⟨Int.neg_le_neg hle, Int.lt_of_le_of_lt (Int.neg_nonpos_of_nonneg (Int.natCast_nonneg _))
      (by decide)⟩
  · cases hsize : n.size? with
    | none =>
      rw [hsize] at h
      cases h
    | some x =>
      rw [hsize] at h
      cases h

namespace Reader

theorem number_yields : Yields number fun n => ∀ w, n = .whole w → IsWord w := by
  refine yields_behind _ fun bs => yields_behind _ fun p => ?_
  obtain ⟨n, rest⟩ := p
  dsimp only
  split
  · rename_i x hn
    refine yields_behind _ fun _ => yields_return ?_
    rintro w rfl
    exact isWord_of_value? hn
  · exact yields_malformed _

/-- A value as it is read with so many levels. -/
structure Tidy (levels : Nat) (j : Json) : Prop where
  exact : j.FloatFree → j.Exact
  nesting : j.nesting ≤ levels

theorem nesting_array_le {xs : List Json} {levels : Nat} (h : ∀ x ∈ xs, x.nesting ≤ levels) :
    (Json.array xs).nesting ≤ levels + 1 := by
  rw [Json.nesting]
  refine Nat.succ_le_succ ?_
  induction xs with
  | nil => exact Nat.zero_le _
  | cons x xs ih =>
    obtain ⟨hx, hxs⟩ := List.forall_mem_cons.mp h
    exact Nat.max_le.mpr ⟨hx, ih hxs⟩

theorem nesting_object_le {fields : List (String × Json)} {levels : Nat}
    (h : ∀ f ∈ fields, f.2.nesting ≤ levels) : (Json.object fields).nesting ≤ levels + 1 := by
  rw [Json.nesting]
  refine Nat.succ_le_succ ?_
  induction fields with
  | nil => exact Nat.zero_le _
  | cons f fields ih =>
    obtain ⟨hf, hfields⟩ := List.forall_mem_cons.mp h
    exact Nat.max_le.mpr ⟨hf, ih hfields⟩

theorem Tidy.scalar {j : Json} {levels : Nat} (hj : j.FloatFree → j.Canonical)
    (h0 : j.nesting = 0) : Tidy levels j :=
  ⟨fun hfree => ⟨hj hfree, hfree⟩, h0 ▸ Nat.zero_le levels⟩

theorem Tidy.array {xs : List Json} {levels : Nat} (h : ∀ x ∈ xs, Tidy levels x) :
    Tidy (levels + 1) (.array xs) where
  exact hfree := by
    have hitems := floatFree_array.mp hfree
    exact ⟨canonical_array.mpr fun x hx => ((h x hx).exact (hitems x hx)).canonical, hfree⟩
  nesting := nesting_array_le fun x hx => (h x hx).nesting

theorem Tidy.object {fields : List (String × Json)} {levels : Nat}
    (hsorted : fields.Pairwise fun f g => f.1 < g.1) (h : ∀ f ∈ fields, Tidy levels f.2) :
    Tidy (levels + 1) (.object fields) where
  exact hfree := by
    have hvalues := floatFree_object.mp hfree
    exact ⟨canonical_object.mpr ⟨hsorted, fun f hf => ((h f hf).exact (hvalues f hf)).canonical⟩,
      hfree⟩
  nesting := nesting_object_le fun f hf => (h f hf).nesting

/-- A step of a reader of objects keeps the fields in order. -/
theorem takeField_yields {item : Reader Json} {levels : Nat} (hitem : Yields item (Tidy levels))
    (fields : List (String × Json)) (key : String)
    (hfields : fields.Pairwise (fun f g => f.1 < g.1) ∧ ∀ f ∈ fields, Tidy levels f.2) :
    Yields (takeField item fields key) fun fields =>
      fields.Pairwise (fun f g => f.1 < g.1) ∧ ∀ f ∈ fields, Tidy levels f.2 := by
  refine yields_behind _ fun _ => hitem.bind fun x hx => yields_return ?_
  refine ⟨pairwise_insertField x hfields.1, fun f hf => ?_⟩
  rcases mem_insertField hf with rfl | hf
  · exact hx
  · exact hfields.2 f hf

/-- Without a level no container is entered, and with one what is inside has a level less. -/
theorem valueWith_yields {inner : Option (Reader Json)} {levels : Nat}
    (hinner : ∀ item ∈ inner, ∃ n, levels = n + 1 ∧ Yields item (Tidy n)) :
    Yields (valueWith inner) (Tidy levels) := by
  have hnull : Tidy levels .null := .scalar (fun _ => trivial) rfl
  have hboolean (b : Bool) : Tidy levels (.boolean b) := .scalar (fun _ => trivial) rfl
  have htext (s : String) : Tidy levels (.text s) := .scalar (fun _ => trivial) rfl
  have hfloat (x : Float) : Tidy levels (.float x) := .scalar (fun h => h.elim) rfl
  have hinteger {n : Int} (h : IsWord n) : Tidy levels (.integer n) := .scalar (fun _ => h) rfl
  unfold valueWith
  refine yields_behind _ fun c? => ?_
  split
  · exact yields_behind _ fun _ => yields_return hnull
  · exact yields_behind _ fun _ => yields_return (hboolean true)
  · exact yields_behind _ fun _ => yields_return (hboolean false)
  · exact yields_behind _ fun _ => yields_behind _ fun s => yields_return (htext s)
  · cases inner with
    | none => exact yields_malformed _
    | some item =>
      obtain ⟨n, rfl, hitem⟩ := hinner item rfl
      exact yields_behind _ fun _ => (items_yields hitem).bind fun xs hxs =>
        yields_return (.array hxs)
  · cases inner with
    | none => exact yields_malformed _
    | some item =>
      obtain ⟨n, rfl, hitem⟩ := hinner item rfl
      have hfields := foldFields_yields (takeField_yields hitem) ⟨.nil, List.forall_mem_nil _⟩
      exact yields_behind _ fun _ => hfields.bind fun fields h => yields_behind _ fun _ =>
        yields_return (.object h.1 h.2)
  · split
    · refine number_yields.bind fun n hn => ?_
      cases n with
      | whole w => exact yields_return (hinteger (hn w rfl))
      | float x => exact yields_return (hfloat x)
    · exact yields_malformed _
  · exact yields_malformed _

theorem value_yields (levels : Nat) : Yields (value levels) (Tidy levels) := by
  induction levels with
  | zero => exact valueWith_yields fun _ h => by cases h
  | succ levels ih =>
    refine valueWith_yields fun item hitem => ⟨levels, rfl, ?_⟩
    obtain rfl := Option.some.inj hitem
    exact ih

end Reader

/-- What a document without floats holds can be written and read again. -/
theorem exact_of_read {bs : Bytes} {j : Json} (h : read bs = .ok j) :
    (j.FloatFree → j.Exact) ∧ j.nesting ≤ maxLevels := by
  rw [read, Reader.document] at h
  cases hrun : (Reader.value maxLevels).run bs with
  | error e =>
    rw [hrun] at h
    cases h
  | ok p =>
    rw [hrun] at h
    change (if _ then _ else _) = _ at h
    split at h
    · obtain rfl := Except.ok.inj h
      have htidy := Reader.value_yields maxLevels bs p.1 p.2 hrun
      exact ⟨htidy.exact, htidy.nesting⟩
    · cases h

end CheckedFlow.Json
