import CheckedFlow.Codec.Keyed
import CheckedFlow.Proofs.Check.Relation
import CheckedFlow.Proofs.Codec.Frames
import Mathlib.Data.List.Nodup
import Mathlib.Data.List.Perm.Subperm

/-!
# Dictionaries and the entries they are made of

A dictionary is made of entries with distinct keys and keeps them as they are; other entries are
refused with the first key that is met again. What a dictionary maps to does not depend on the order
of its entries, neither when dictionaries are compared nor when one is encoded and decoded.

* `FirstRepeated`: the key of the first entry whose key occurred before.
* `ofEntries_eq_ok`, `ofEntries_error`: the dictionary of some entries, or the key in its way.
* `equal_iff_reorders`: equal dictionaries have the same entries, in any order.
* `Codec.dictionary_decode`: frames are decoded to the dictionary of their entries.
* `Codec.dictionary_copy`: a dictionary whose entries round-trip and that has an encoding is its own
  copy.
-/

namespace CheckedFlow

namespace Dictionary

variable {κ α : Type}

/-- `key` is the key of the first of `entries` whose key occurred before. -/
def FirstRepeated (key : κ) (entries : List (κ × α)) : Prop :=
  ∃ before value after, entries = before ++ (key, value) :: after ∧
    (before.map Prod.fst).Nodup ∧ key ∈ before.map Prod.fst

/-- Only entries among which a key occurs twice have a first repeated key. -/
theorem FirstRepeated.not_nodup {key : κ} {entries : List (κ × α)}
    (h : FirstRepeated key entries) : ¬ (entries.map Prod.fst).Nodup := by
  obtain ⟨before, value, after, rfl, -, hkey⟩ := h
  rw [List.map_append, List.map_cons, List.nodup_append]
  exact fun hn => hn.2.2 key hkey key List.mem_cons_self rfl

theorem ext_entries {d e : Dictionary κ α} (h : d.entries = e.entries) : d = e := by
  obtain ⟨entries, nodup⟩ := d
  cases h
  rfl

variable [DecidableEq κ]

/-! ## Making a dictionary -/

/-- Adding entries one by one keeps all of them in their order, or stops at the first repeated
key. -/
theorem addEntries_spec (d : Dictionary κ α) (entries : List (κ × α)) :
    match d.addEntries entries with
    | .ok d' => d'.entries = d.entries ++ entries
    | .error key => FirstRepeated key (d.entries ++ entries) := by
  induction entries generalizing d with
  | nil => simp [addEntries]
  | cons e rest ih =>
    obtain ⟨k, v⟩ := e
    by_cases hk : k ∈ d.keys
    · simp only [addEntries, dif_pos hk]
      exact ⟨d.entries, v, rest, rfl, d.nodup, hk⟩
    · have hrest := ih (d.insertNew k v hk)
      rw [insertNew, List.append_assoc, List.singleton_append] at hrest
      simp only [addEntries, dif_neg hk]
      exact hrest

/-- A key in the way of a dictionary is the first repeated one. -/
theorem ofEntries_error {entries : List (κ × α)} {key : κ} (h : ofEntries entries = .error key) :
    FirstRepeated key entries := by
  have hspec := addEntries_spec empty entries
  rw [← ofEntries, h] at hspec
  exact hspec

/-- The dictionary of some entries holds them in their order. There is one exactly if the entries
are those of some dictionary. -/
theorem ofEntries_eq_ok {entries : List (κ × α)} {d : Dictionary κ α} :
    ofEntries entries = .ok d ↔ d.entries = entries := by
  have hspec := addEntries_spec empty entries
  rw [← ofEntries] at hspec
  cases hr : ofEntries entries with
  | ok e =>
    have he : e.entries = entries := by rw [hr] at hspec; exact hspec
    refine ⟨fun h => ?_, fun h => congrArg _ (ext_entries (he.trans h.symm))⟩
    cases h
    exact he
  | error key =>
    refine ⟨nofun, ?_⟩
    rintro rfl
    exact absurd d.nodup (ofEntries_error hr).not_nodup

/-! ## Comparing dictionaries -/

/-- A key maps to the value of its entry. -/
theorem get?_eq_some_iff {d : Dictionary κ α} {k : κ} {v : α} :
    d.get? k = some v ↔ (k, v) ∈ d.entries := by
  obtain ⟨entries, nodup⟩ := d
  simp only [get?]
  induction entries with
  | nil => simp
  | cons e rest ih =>
    obtain ⟨j, w⟩ := e
    obtain ⟨hj, hrest⟩ := List.nodup_cons.mp nodup
    have hih := ih hrest
    by_cases hjk : j = k
    · subst hjk
      have hnew : (j, v) ∉ rest := fun hv => hj (List.mem_map.mpr ⟨(j, v), hv, rfl⟩)
      simp [hnew, eq_comm]
    · have hne : ¬ k = j := fun h => hjk h.symm
      simpa [List.find?_cons, hjk, hne] using hih

/-- Dictionaries with the same entries, in any order, map the same keys to the same values. -/
theorem get?_of_perm {d e : Dictionary κ α} (h : d.entries.Perm e.entries) (k : κ) :
    d.get? k = e.get? k := by
  apply Option.ext
  intro v
  rw [get?_eq_some_iff, get?_eq_some_iff, h.mem_iff]

/-- Lists of which the first is matched item by item with items of the second. -/
theorem exists_matches {β γ : Type} {P : β → γ → Prop} {xs : List β} {ys : List γ}
    (h : ∀ x ∈ xs, ∃ y ∈ ys, P x y) : ∃ zs : List γ, zs ⊆ ys ∧ List.Forall₂ P xs zs := by
  induction xs with
  | nil => exact ⟨[], List.nil_subset ys, .nil⟩
  | cons x xs ih =>
    obtain ⟨y, hy, hxy⟩ := h x List.mem_cons_self
    obtain ⟨zs, hzs, hall⟩ := ih fun z hz => h z (List.mem_cons_of_mem x hz)
    exact ⟨y :: zs, List.cons_subset.mpr ⟨hy, hzs⟩, .cons hxy hall⟩

/-- Entries are the same if their keys are equal and their values are the same. -/
def sameEntry (same : α → α → Bool) (x y : κ × α) : Bool := x.1 == y.1 && same x.2 y.2

/-- Entries that are pairwise the same have the same keys. -/
theorem keys_of_sameEntries {same : α → α → Bool} {xs zs : List (κ × α)}
    (h : List.Forall₂ (fun x z => sameEntry same x z = true) xs zs) :
    xs.map Prod.fst = zs.map Prod.fst := by
  induction h with
  | nil => rfl
  | cons hx _ ih =>
    simp only [sameEntry, Bool.and_eq_true, beq_iff_eq] at hx
    rw [List.map_cons, List.map_cons, hx.1, ih]

/-- An entry finds its key with the same value exactly if it is the same as some entry. -/
theorem get?_same_iff {same : α → α → Bool} {e : Dictionary κ α} {x : κ × α} :
    (match e.get? x.1 with
      | some v => same x.2 v
      | none => false) = true ↔ ∃ y ∈ e.entries, sameEntry same x y = true := by
  constructor
  · intro h
    split at h
    · rename_i v hv
      exact ⟨(x.1, v), get?_eq_some_iff.mp hv, by simpa [sameEntry] using h⟩
    · cases h
  · rintro ⟨⟨k, v⟩, hy, hxy⟩
    simp only [sameEntry, Bool.and_eq_true, beq_iff_eq] at hxy
    obtain ⟨hk, hv⟩ := hxy
    rw [hk, get?_eq_some_iff.mpr hy]
    exact hv

/-- Dictionaries are equal exactly if their entries are the same in some order. -/
theorem equal_iff_reorders {same : α → α → Bool} {d e : Dictionary κ α} :
    Dictionary.equal same d e = true ↔ Reorders (sameEntry same) d.entries e.entries := by
  rw [Dictionary.equal, Bool.and_eq_true, beq_iff_eq, List.all_eq_true]
  constructor
  · rintro ⟨hlen, hall⟩
    obtain ⟨zs, hsub, hsame⟩ := exists_matches fun x hx => get?_same_iff.mp (hall x hx)
    have hkeys : (zs.map Prod.fst).Nodup := keys_of_sameEntries hsame ▸ d.nodup
    have hnodup : zs.Nodup := List.Nodup.of_map _ hkeys
    have hle : e.entries.length ≤ zs.length := Nat.le_of_eq (hlen.symm.trans hsame.length_eq)
    exact ⟨zs, (List.subperm_of_subset hnodup hsub).perm_of_length_le hle, hsame⟩
  · rintro ⟨zs, hperm, hsame⟩
    refine ⟨hsame.length_eq.trans hperm.length_eq, fun x hx => get?_same_iff.mpr ?_⟩
    obtain ⟨i, hi, rfl⟩ := List.getElem_of_mem hx
    have hi' : i < zs.length := hsame.length_eq ▸ hi
    exact ⟨zs[i], hperm.subset (List.getElem_mem hi'), hsame.get hi hi'⟩

end Dictionary

/-! ## Copies of a dictionary -/

section Copies

variable {κ α : Type} [DecidableEq κ] {describe : κ → String} {entry : Codec (κ × α)}
  {payload : Bytes}

/-- Frames are decoded to the dictionary of their entries, or the key in its way is told. -/
theorem Codec.dictionary_decode {entries : List (κ × α)}
    (h : decodeFrames entry.decode payload = .ok entries) :
    (Codec.dictionary describe entry).decode payload =
      match Dictionary.ofEntries entries with
      | .ok d => .ok d
      | .error key => .error (.decoding (.repeatedKey (describe key))) := by
  simp only [dictionary, decodeDictionary, h, bind, Except.bind]
  cases Dictionary.ofEntries entries <;> rfl

/-- The frames of a dictionary's entries are decoded to the dictionary. -/
theorem Codec.dictionary_decode_entries {d : Dictionary κ α}
    (h : decodeFrames entry.decode payload = .ok d.entries) :
    (Codec.dictionary describe entry).decode payload = .ok d := by
  rw [dictionary_decode h, Dictionary.ofEntries_eq_ok.mpr rfl]

/-- A dictionary whose entries are their own copies decodes from its own encoding, if it has one.
The encoding lists the entries in the order in which they are enumerated; decoding gives the same
dictionary whatever that order was. -/
theorem Codec.dictionary_copy {d : Dictionary κ α} (hround : ∀ e ∈ d.entries, entry.RoundTrips e)
    (h : (Codec.dictionary describe entry).encode d = .ok payload) :
    (Codec.dictionary describe entry).RoundTrips d := by
  rw [RoundTrips, copy_of_encode h]
  exact dictionary_decode_entries (decodeFrames_roundTrips hround h)

end Copies

end CheckedFlow
