import CheckedFlow.Proofs.Codec.Copies
import CheckedFlow.Proofs.Element.Dictionary

/-!
# Copies of dictionaries of lists

A dictionary of lists goes through its single entries, one for each value of a list. They are
gathered again by their keys, so every key gets its values in their order, whatever the order in
which the keys were enumerated. A key without values has no entry, and the copy does not know it.

* `values_flatEntries`: the single entries of one key.
* `get?_group_flatEntries`: what the entries are gathered to.
* `grouped_roundTrips_iff`: the dictionaries that are their own copies.
* `grouped_drops_key`: a dictionary that is not.
-/

namespace CheckedFlow.Codec

variable {κ α : Type} {entries : List (κ × List α)} {k : κ} {v : α}

/-! ## Single entries -/

/-- The single entries of dictionaries with the same entries are the same, in another order. -/
theorem flatEntries_perm {entries' : List (κ × List α)} (h : entries.Perm entries') :
    (flatEntries entries).Perm (flatEntries entries') := h.flatMap_right _

variable [DecidableEq κ] {entry : Codec (κ × α)} {d : Dictionary κ (List α)}

/-- The single entries with a key hold the values of that key, in their order. -/
theorem values_flatEntries (hnodup : (entries.map Prod.fst).Nodup) (k : κ) :
    ((flatEntries entries).filter fun e => e.1 = k).map Prod.snd =
      ((entries.find? fun e => e.1 = k).map Prod.snd).getD [] := by
  induction entries with
  | nil => rfl
  | cons e rest ih =>
    obtain ⟨j, values⟩ := e
    obtain ⟨hj, hrest⟩ := List.nodup_cons.mp hnodup
    have hsplit : flatEntries ((j, values) :: rest) =
        (values.map fun v => (j, v)) ++ flatEntries rest := rfl
    rw [hsplit, List.filter_append, List.map_append, ih hrest]
    by_cases h : j = k
    · subst h
      have hnone : rest.find? (fun e => e.1 = j) = none := by
        rw [List.find?_eq_none]
        rintro ⟨i, w⟩ he hi
        obtain rfl : i = j := by simpa using hi
        exact hj (List.mem_map.mpr ⟨_, he, rfl⟩)
      simp [hnone, List.filter_map, Function.comp_def]
    · simp [h, List.filter_map, Function.comp_def]

/-- The single entries of a dictionary are gathered to its lists, but for the empty ones. -/
theorem get?_group_flatEntries (d : Dictionary κ (List α)) (k : κ) :
    (Dictionary.group (flatEntries d.entries)).get? k =
      (d.get? k).filter fun values => !values.isEmpty := by
  rw [Dictionary.get?_group, values_flatEntries d.nodup]
  change (let values := (d.get? k).getD []; if values = [] then none else some values) = _
  cases d.get? k with
  | none => rfl
  | some values => cases values <;> rfl

/-! ## Copies -/

/-- A copy gathers the single entries, if they are their own copies and fit. -/
theorem grouped_copy (hround : ∀ e ∈ flatEntries d.entries, entry.RoundTrips e)
    (hfit : entry.Fits (flatEntries d.entries)) :
    (grouped entry).copy d = .ok (Dictionary.group (flatEntries d.entries)) := by
  obtain ⟨payload, hpayload⟩ := encodeFrames_ok_iff.mpr
    ⟨hfit, fun e he => encodes_of_copy (hround e he)⟩
  have hencode : (grouped entry).encode d = .ok payload := hpayload
  rw [copy_of_encode hencode]
  simp only [grouped, decodeFrames_roundTrips hround hpayload]
  rfl

/-- In whatever order the keys are enumerated, the copy has the same lists, but for empty ones. -/
theorem grouped_copy_perm (hround : ∀ e ∈ flatEntries d.entries, entry.RoundTrips e)
    (hfit : entry.Fits (flatEntries d.entries)) {order : Dictionary κ (List α)}
    (horder : order.entries.Perm d.entries) :
    ∃ copy, (grouped entry).copy order = .ok copy ∧
      ∀ k, copy.get? k = (d.get? k).filter fun values => !values.isEmpty := by
  have hflat := flatEntries_perm horder
  refine ⟨_, grouped_copy (fun e he => hround e (hflat.subset he)) (hfit.perm hflat), fun k => ?_⟩
  rw [get?_group_flatEntries, Dictionary.get?_of_perm horder]

/-- A dictionary of lists with single entries that are their own copies is its own copy exactly if
the single entries fit and no list is empty. In whatever order its keys are enumerated, a dictionary
whose single entries fit has a copy, in which every key has its values in their order, but keys
without values are missing. -/
theorem grouped_roundTrips_iff (hround : ∀ e ∈ flatEntries d.entries, entry.RoundTrips e)
    {order : Dictionary κ (List α)} (horder : order.entries.Perm d.entries) :
    ((∃ copy, (grouped entry).copy order = .ok copy ∧ ∀ k, copy.get? k = d.get? k) ↔
      entry.Fits (flatEntries d.entries) ∧ ∀ e ∈ d.entries, e.2 ≠ []) ∧
    (entry.Fits (flatEntries d.entries) → ∃ copy, (grouped entry).copy order = .ok copy ∧
      ∀ k, copy.get? k = (d.get? k).filter fun values => !values.isEmpty) := by
  have hflat := flatEntries_perm horder
  have hcopy := fun hfit => grouped_copy_perm hround hfit horder
  refine ⟨⟨?_, ?_⟩, hcopy⟩
  · rintro ⟨copy, hc, hsame⟩
    obtain ⟨payload, hpayload, -⟩ := Except.bind_ok hc
    have hfit : entry.Fits (flatEntries d.entries) :=
      (encodeFrames_ok_iff.mp ⟨payload, hpayload⟩).1.perm hflat.symm
    refine ⟨hfit, fun e he hempty => ?_⟩
    obtain ⟨copy', hc', hfilter⟩ := hcopy hfit
    obtain rfl : copy = copy' := Except.ok.inj (hc.symm.trans hc')
    have hget : d.get? e.1 = some [] := Dictionary.get?_eq_some_iff.mpr (hempty ▸ he)
    have hlost := hfilter e.1
    rw [hsame, hget] at hlost
    cases hlost
  · rintro ⟨hfit, hfull⟩
    obtain ⟨copy, hc, hfilter⟩ := hcopy hfit
    refine ⟨copy, hc, fun k => ?_⟩
    rw [hfilter]
    cases hget : d.get? k with
    | none => rfl
    | some values =>
      have hne : values ≠ [] := hfull (k, values) (Dictionary.get?_eq_some_iff.mp hget)
      simp [hne]

/-- Pairs of bytes as two bytes. -/
def bytePairCodec : Codec (UInt8 × UInt8) where
  encode e := .ok [e.1, e.2]
  decode
    | [a, b] => .ok (a, b)
    | _ => .error (.decoding (.told "no pair"))

theorem bytePairCodec_fits {xs : List (UInt8 × UInt8)} (h : xs.length < UInt32.size) :
    bytePairCodec.Fits xs := by
  refine ⟨h, fun x _ bytes hbytes => ?_⟩
  cases hbytes
  exact (show 2 < UInt32.size by decide)

/-- Two lists of bytes. -/
def byteLists : Dictionary UInt8 (List UInt8) := ⟨[(1, [5, 4, 5]), (2, [5])], by decide⟩

/-- The same, enumerated the other way round. -/
def byteListsReversed : Dictionary UInt8 (List UInt8) := ⟨[(2, [5]), (1, [5, 4, 5])], by decide⟩

theorem grouped_roundTrips_bytes :
    (∀ e ∈ flatEntries byteLists.entries, bytePairCodec.RoundTrips e) ∧
    byteListsReversed.entries.Perm byteLists.entries ∧
    ∃ copy, (grouped bytePairCodec).copy byteListsReversed = .ok copy ∧
      ∀ k, copy.get? k = byteLists.get? k := by
  have hround : ∀ e ∈ flatEntries byteLists.entries, bytePairCodec.RoundTrips e := fun _ _ => rfl
  have hperm : byteListsReversed.entries.Perm byteLists.entries := List.Perm.swap _ _ _
  refine ⟨hround, hperm, (grouped_roundTrips_iff hround hperm).1.mpr ⟨?_, ?_⟩⟩
  · exact bytePairCodec_fits (show 4 < UInt32.size by decide)
  · intro e he
    rcases List.mem_pair.mp he with rfl | rfl <;> exact List.cons_ne_nil _ _

/-- A text with the empty list. -/
def emptyList : Dictionary String (List Int64) := ⟨[("a", [])], by decide⟩

/-- A key without values is lost, whatever codec the entries have: there is no entry to round-trip,
and the copy does not know the key. -/
theorem grouped_drops_key :
    let entry := Codec.json (.entry .text .integer)
    (∀ e ∈ flatEntries emptyList.entries, entry.RoundTrips e) ∧
    entry.Fits (flatEntries emptyList.entries) ∧
    emptyList.get? "a" = some [] ∧
    (∃ copy, (grouped entry).copy emptyList = .ok copy ∧ copy.get? "a" = none) ∧
    ¬ ∃ copy, (grouped entry).copy emptyList = .ok copy ∧ ∀ k, copy.get? k = emptyList.get? k := by
  intro entry
  have hround : ∀ e ∈ flatEntries emptyList.entries, entry.RoundTrips e := nofun
  have hfit : entry.Fits (flatEntries emptyList.entries) :=
    ⟨show 0 < UInt32.size by decide, nofun⟩
  have hcopy := grouped_copy hround hfit
  refine ⟨hround, hfit, rfl, ⟨_, hcopy, rfl⟩, ?_⟩
  rintro ⟨copy, hc, hsame⟩
  obtain rfl := Except.ok.inj (hc.symm.trans hcopy)
  cases hsame "a"

end CheckedFlow.Codec
