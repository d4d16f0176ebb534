import CheckedFlow.Proofs.Codec.Grouping

/-!
# Copies of dictionaries in any order of their entries

The entries of a dictionary may be enumerated in any order, and its encoding is that of the entries
in that order. A codec of entries may change them, also so that two keys become one. Nevertheless
the order decides neither whether there is a copy nor what the copy maps to: each entry is copied by
itself, and whether two copies have the same key is a question about the two.

The number of entries and the length of each entry stand in front of them in four bytes. That is the
only limit on the dictionaries that have copies at all: `Codec.Fits` says that the length prefixes
can hold what they have to. It stands in the condition for a copy and in that for a round trip, and
in no statement about what a copy maps to.

* `dictionary_copy_eq_ok`: the copy of a dictionary holds the copies of its entries.
* `CopiesApart`: entries whose copies have keys of their own; `exists_dictionary_copy`.
* `dictionary_copies`: when there is a copy, and what it maps to, in any order of the entries.
-/

namespace CheckedFlow.Codec

/-! ## Copies with keys of their own -/

section Apart

variable {κ α β : Type} {f : β → Except SerializationError (κ × α)} {xs : List β}
  {ys : List (κ × α)}

/-- Outcomes of different items have different keys exactly if no key occurs twice among all. -/
theorem nodup_keys_iff (hxs : xs.Nodup) (hall : List.Forall₂ (fun x y => f x = .ok y) xs ys) :
    (ys.map Prod.fst).Nodup ↔ ∀ x ∈ xs, ∀ x' ∈ xs, ∀ y y', f x = .ok y → f x' = .ok y' →
      y.1 = y'.1 → x = x' := by
  have hlen := hall.length_eq
  constructor
  · intro hkeys x hx x' hx' y y' hy hy' hkey
    obtain ⟨i, hi, rfl⟩ := List.getElem_of_mem hx
    obtain ⟨j, hj, rfl⟩ := List.getElem_of_mem hx'
    obtain rfl := Except.ok.inj (hy.symm.trans (hall.get hi (hlen ▸ hi)))
    obtain rfl := Except.ok.inj (hy'.symm.trans (hall.get hj (hlen ▸ hj)))
    have hi' : i < (ys.map Prod.fst).length := by rw [List.length_map, ← hlen]; exact hi
    have hj' : j < (ys.map Prod.fst).length := by rw [List.length_map, ← hlen]; exact hj
    have hkey' : (ys.map Prod.fst)[i] = (ys.map Prod.fst)[j] := by simpa using hkey
    have hij : i = j := hkeys.getElem_inj_iff.mp hkey'
    simp only [hij]
  · intro hapart
    rw [List.nodup_iff_injective_getElem]
    rintro ⟨i, hi⟩ ⟨j, hj⟩ hkey
    rw [List.length_map, ← hlen] at hi hj
    have hx := hapart _ (List.getElem_mem hi) _ (List.getElem_mem hj) _ _
      (hall.get hi (hlen ▸ hi)) (hall.get hj (hlen ▸ hj)) (by simpa using hkey)
    exact Fin.ext (hxs.getElem_inj_iff.mp hx)

/-- The outcomes of some items are those of each of them. -/
theorem mem_outcomes_iff (hall : List.Forall₂ (fun x y => f x = .ok y) xs ys) {y : κ × α} :
    y ∈ ys ↔ ∃ x ∈ xs, f x = .ok y := by
  have hmap : xs.map f = ys.map .ok := by
    rw [← List.forall₂_eq_eq_eq, List.forall₂_map_left_iff, List.forall₂_map_right_iff]
    exact hall
  have hy : y ∈ ys ↔ .ok y ∈ ys.map (Except.ok (ε := SerializationError)) := by simp
  rw [hy, ← hmap, List.mem_map]

/-- Every entry has an encoding, every encoding can be decoded, and the keys of the copies of
different entries are different. -/
structure CopiesApart (entry : Codec (κ × α)) (entries : List (κ × α)) : Prop where
  encodes : ∀ e ∈ entries, ∃ bytes, entry.encode e = .ok bytes
  decodes : ∀ e ∈ entries, ∀ bytes, entry.encode e = .ok bytes → ∃ y, entry.decode bytes = .ok y
  apart : ∀ e ∈ entries, ∀ e' ∈ entries, ∀ y y', entry.copy e = .ok y → entry.copy e' = .ok y' →
    y.1 = y'.1 → e = e'

end Apart

/-! ## The entries of a copy -/

/-- A list has a copy exactly if it fits and its items have copies, which are then those of the
list. -/
theorem list_copy_eq_ok {α : Type} {item : Codec α} {xs ys : List α} :
    (list item).copy xs = .ok ys ↔
      item.Fits xs ∧ List.Forall₂ (fun x y => item.copy x = .ok y) xs ys := by
  constructor
  · intro h
    have hfit : item.Fits xs := (encodeFrames_ok_iff.mp (encodes_of_copy h)).1
    exact ⟨hfit, (list_copy_ok_iff hfit).mp h⟩
  · rintro ⟨hfit, hall⟩
    exact (list_copy_ok_iff hfit).mpr hall

variable {κ α : Type} [DecidableEq κ] {describe : κ → String} {entry : Codec (κ × α)}
  {d order c : Dictionary κ α}

/-- A dictionary is copied by copying the list of its entries. -/
theorem dictionary_copy_eq_ok_list :
    (dictionary describe entry).copy d = .ok c ↔ (list entry).copy d.entries = .ok c.entries := by
  constructor
  · intro h
    obtain ⟨payload, hencode, hdecode⟩ := Except.bind_ok h
    obtain ⟨copies, hcopies, hc⟩ := Except.bind_ok hdecode
    have hlist : (list entry).encode d.entries = .ok payload := hencode
    split at hc
    · rename_i c' hc'
      cases hc
      rw [copy_of_encode hlist, Dictionary.ofEntries_eq_ok.mp hc']
      exact hcopies
    · cases hc
  · intro h
    obtain ⟨payload, hencode, hframes⟩ := Except.bind_ok h
    have hdictionary : (dictionary describe entry).encode d = .ok payload := hencode
    rw [copy_of_encode hdictionary]
    exact dictionary_decode_entries hframes

/-- The copy of a dictionary holds the copies of its entries, in their order. -/
theorem dictionary_copy_eq_ok :
    (dictionary describe entry).copy d = .ok c ↔ entry.Fits d.entries ∧
      List.Forall₂ (fun x y => entry.copy x = .ok y) d.entries c.entries :=
  dictionary_copy_eq_ok_list.trans list_copy_eq_ok

/-- In another order of the entries there is a copy as well, with the same entries in another
order. -/
theorem dictionary_copy_perm (horder : order.entries.Perm d.entries)
    (h : (dictionary describe entry).copy d = .ok c) :
    ∃ c', (dictionary describe entry).copy order = .ok c' ∧ c'.entries.Perm c.entries := by
  obtain ⟨hfit, hall⟩ := dictionary_copy_eq_ok.mp h
  obtain ⟨copies, hcopies, hperm⟩ := List.perm_comp_forall₂ horder hall
  have hnodup : (copies.map Prod.fst).Nodup := (hperm.map Prod.fst).nodup_iff.mpr c.nodup
  exact ⟨⟨copies, hnodup⟩, dictionary_copy_eq_ok.mpr ⟨hfit.perm horder, hcopies⟩, hperm⟩

/-- A dictionary has a copy exactly if its entries fit and have copies with keys of their own. -/
theorem exists_dictionary_copy :
    (∃ c, (dictionary describe entry).copy d = .ok c) ↔
      entry.Fits d.entries ∧ entry.CopiesApart d.entries := by
  have hnodup : d.entries.Nodup := List.Nodup.of_map _ d.nodup
  constructor
  · rintro ⟨c, hc⟩
    obtain ⟨hfit, hall⟩ := dictionary_copy_eq_ok.mp hc
    have hcopies := exists_mapM_ok.mp ⟨_, mapM_eq_ok_iff.mpr hall⟩
    refine ⟨hfit, fun e he => ?_, fun e he bytes hbytes => ?_,
      (nodup_keys_iff hnodup hall).mp c.nodup⟩
    · obtain ⟨y, hy⟩ := hcopies e he
      exact encodes_of_copy hy
    · obtain ⟨y, hy⟩ := hcopies e he
      exact ⟨y, copy_of_encode hbytes ▸ hy⟩
  · rintro ⟨hfit, happart⟩
    have hcopies : ∀ e ∈ d.entries, ∃ y, entry.copy e = .ok y := by
      intro e he
      obtain ⟨bytes, hbytes⟩ := happart.encodes e he
      rw [copy_of_encode hbytes]
      exact happart.decodes e he bytes hbytes
    obtain ⟨copies, hm⟩ := exists_mapM_ok.mpr hcopies
    have hall := mapM_eq_ok_iff.mp hm
    exact ⟨⟨copies, (nodup_keys_iff hnodup hall).mpr happart.apart⟩,
      dictionary_copy_eq_ok.mpr ⟨hfit, hall⟩⟩

/-- In whatever order the entries of a dictionary are enumerated, there is a copy or there is none,
and all copies map the same keys to the same values. There is one exactly if the entries fit, every
entry has an encoding, every encoding can be decoded and the copies have different keys; it holds
the copies of the entries and nothing else. If the entries are their own copies, so is the
dictionary. -/
theorem dictionary_copies (describe : κ → String) (entry : Codec (κ × α)) {d order : Dictionary κ α}
    (horder : order.entries.Perm d.entries) :
    ((∃ c, (dictionary describe entry).copy order = .ok c) ↔
      ∃ c, (dictionary describe entry).copy d = .ok c) ∧
    (∀ c c', (dictionary describe entry).copy order = .ok c →
      (dictionary describe entry).copy d = .ok c' → ∀ k, c.get? k = c'.get? k) ∧
    ((∃ c, (dictionary describe entry).copy d = .ok c) ↔
      entry.Fits d.entries ∧ entry.CopiesApart d.entries) ∧
    (∀ c, (dictionary describe entry).copy d = .ok c → ∀ k v,
      c.get? k = some v ↔ ∃ e ∈ d.entries, entry.copy e = .ok (k, v)) ∧
    (entry.Fits d.entries → (∀ e ∈ d.entries, entry.RoundTrips e) →
      ∃ c, (dictionary describe entry).copy order = .ok c ∧ ∀ k, c.get? k = d.get? k) := by
  refine ⟨?_, fun c c' hc hc' k => ?_, exists_dictionary_copy, fun c hc k v => ?_,
    fun hfit hround => ?_⟩
  · constructor
    · rintro ⟨c, hc⟩
      obtain ⟨c', hc', -⟩ := dictionary_copy_perm horder.symm hc
      exact ⟨c', hc'⟩
    · rintro ⟨c, hc⟩
      obtain ⟨c', hc', -⟩ := dictionary_copy_perm horder hc
      exact ⟨c', hc'⟩
  · obtain ⟨c'', hc'', hperm⟩ := dictionary_copy_perm horder hc'
    obtain rfl := Except.ok.inj (hc.symm.trans hc'')
    exact Dictionary.get?_of_perm hperm k
  · rw [Dictionary.get?_eq_some_iff, mem_outcomes_iff (dictionary_copy_eq_ok.mp hc).2]
  · have hown : (dictionary describe entry).copy d = .ok d :=
      dictionary_copy_eq_ok.mpr ⟨hfit, List.forall₂_same.mpr hround⟩
    obtain ⟨c, hc, hperm⟩ := dictionary_copy_perm horder hown
    exact ⟨c, hc, Dictionary.get?_of_perm hperm⟩

/-- Pairs of bytes as two bytes; the first is halved when it is read back. -/
def halvingCodec : Codec (UInt8 × UInt8) :=
  { bytePairCodec with
    decode := fun bytes => (fun e => (e.1 / 2, e.2)) <$> bytePairCodec.decode bytes }

/-- Two keys with different halves, in both orders. -/
def apartBytes : Dictionary UInt8 UInt8 := ⟨[(2, 5), (4, 6)], by decide⟩

def apartBytesReversed : Dictionary UInt8 UInt8 := ⟨[(4, 6), (2, 5)], by decide⟩

/-- Two keys with the same half, in both orders. -/
def mergedBytes : Dictionary UInt8 UInt8 := ⟨[(2, 5), (3, 6)], by decide⟩

def mergedBytesReversed : Dictionary UInt8 UInt8 := ⟨[(3, 6), (2, 5)], by decide⟩

/-- Keys that stay apart are copied in both orders to the same dictionary, through different bytes.
Keys that become one are refused in both orders. -/
theorem dictionary_copies_halved :
    let codec := dictionary (fun k : UInt8 => Text.decimal k.toNat) halvingCodec
    (apartBytesReversed.entries.Perm apartBytes.entries ∧
      codec.encode apartBytesReversed ≠ codec.encode apartBytes ∧
      ∃ c c', codec.copy apartBytesReversed = .ok c ∧ codec.copy apartBytes = .ok c' ∧
        c.get? 1 = some 5 ∧ ∀ k, c.get? k = c'.get? k) ∧
    mergedBytesReversed.entries.Perm mergedBytes.entries ∧
      (¬ ∃ c, codec.copy mergedBytes = .ok c) ∧ ¬ ∃ c, codec.copy mergedBytesReversed = .ok c := by
  intro codec
  have happart : apartBytesReversed.entries.Perm apartBytes.entries := List.Perm.swap _ _ _
  have hmerged : mergedBytesReversed.entries.Perm mergedBytes.entries := List.Perm.swap _ _ _
  refine ⟨⟨happart, ?_, ?_⟩, hmerged, ?_⟩
  · have hfirst : codec.encode apartBytesReversed =
        .ok [0, 0, 0, 2, 0, 0, 0, 2, 4, 6, 0, 0, 0, 2, 2, 5] := rfl
    have hsecond : codec.encode apartBytes =
        .ok [0, 0, 0, 2, 0, 0, 0, 2, 2, 5, 0, 0, 0, 2, 4, 6] := rfl
    rw [hfirst, hsecond]
    exact fun h => absurd (Except.ok.inj h) (by decide)
  · have hlaw := dictionary_copies (fun k : UInt8 => Text.decimal k.toNat) halvingCodec happart
    have hcopy : codec.copy apartBytes = .ok ⟨[(1, 5), (2, 6)], by decide⟩ := rfl
    obtain ⟨c, hc⟩ := hlaw.1.mpr ⟨_, hcopy⟩
    have hsame := hlaw.2.1 c _ hc hcopy
    exact ⟨c, _, hc, hcopy, hsame 1, hsame⟩
  · have hlaw := dictionary_copies (fun k : UInt8 => Text.decimal k.toNat) halvingCodec hmerged
    have hnone : ¬ ∃ c, codec.copy mergedBytes = .ok c := by
      rw [hlaw.2.2.1]
      rintro ⟨-, happart⟩
      have hequal := happart.apart (2, 5) (by decide) (3, 6) (by decide) (1, 5) (1, 6) rfl rfl rfl
      exact absurd hequal (by decide)
    exact ⟨hnone, fun h => hnone (hlaw.1.mp h)⟩

end CheckedFlow.Codec
