/-!
# Dictionaries

A dictionary maps finitely many keys to values. Its entries are kept in the order in which they were
added, but that order is no part of its value: `Dictionary.equal` compares what the keys map to, and
whatever enumerates the entries may do so in any order.

* `ofEntries`: the dictionary of entries with distinct keys, or the first key that is met again.
* `group`: the values of each key, in the order of the entries (`get?_group`).
-/

namespace CheckedFlow

/-- Finitely many entries with distinct keys. -/
structure Dictionary (κ α : Type) where
  entries : List (κ × α)
  nodup : (entries.map Prod.fst).Nodup

namespace Dictionary

variable {κ α : Type}

/-- The keys, in the order of the entries. -/
def keys (d : Dictionary κ α) : List κ := d.entries.map Prod.fst

/-- No entry. -/
def empty : Dictionary κ α := ⟨[], List.nodup_nil⟩

section Lookup

variable [DecidableEq κ]

/-- The value of a key. -/
def get? (d : Dictionary κ α) (k : κ) : Option α := (d.entries.find? fun e => e.1 = k).map Prod.snd

/-- An entry with a new key, after the others. -/
def insertNew (d : Dictionary κ α) (k : κ) (v : α) (h : k ∉ d.keys) : Dictionary κ α :=
  ⟨d.entries ++ [(k, v)], by
    simp only [List.map_append, List.map_cons, List.map_nil]
    exact List.nodup_append.2 ⟨d.nodup, by simp, by
      intro a ha b hb
      simp only [List.mem_singleton] at hb
      rintro rfl
      exact h (hb ▸ ha)⟩⟩

/-- The entries with the value of `k` changed by `f`; the keys stay. -/
def modifyEntries (k : κ) (f : α → α) (entries : List (κ × α)) : List (κ × α) :=
  entries.map fun e => if e.1 = k then (e.1, f e.2) else e

theorem keys_modifyEntries (k : κ) (f : α → α) (entries : List (κ × α)) :
    (modifyEntries k f entries).map Prod.fst = entries.map Prod.fst := by
  simp only [modifyEntries, List.map_map]
  apply List.map_congr_left
  intro e _
  simp only [Function.comp_apply]
  split <;> rfl

/-- The value of `k` changed by `f`, if there is one. -/
def modify (d : Dictionary κ α) (k : κ) (f : α → α) : Dictionary κ α :=
  ⟨modifyEntries k f d.entries, by rw [keys_modifyEntries]; exact d.nodup⟩

/-- `d` with an entry put in, instead of one with its key. -/
def insert (d : Dictionary κ α) (k : κ) (v : α) : Dictionary κ α :=
  if h : k ∈ d.keys then d.modify k fun _ => v else d.insertNew k v h

/-- `d` with `entries` added one by one; a key that is there already is returned instead. -/
def addEntries (d : Dictionary κ α) : List (κ × α) → Except κ (Dictionary κ α)
  | [] => .ok d
  | (k, v) :: rest => if h : k ∈ d.keys then .error k else addEntries (d.insertNew k v h) rest

/-- The dictionary of `entries`, or the first key among them that occurred before. -/
def ofEntries (entries : List (κ × α)) : Except κ (Dictionary κ α) := addEntries empty entries

/-- The entries with another key than `k`. -/
def otherEntries (d : Dictionary κ α) (k : κ) : List (κ × α) :=
  d.entries.filter fun e => e.1 ≠ k

theorem nodup_cons_otherEntries (d : Dictionary κ α) (k : κ) (v : α) :
    (((k, v) :: d.otherEntries k).map Prod.fst).Nodup := by
  simp only [List.map_cons, List.nodup_cons, List.mem_map, otherEntries]
  refine ⟨?_, (List.filter_sublist.map Prod.fst).nodup d.nodup⟩
  rintro ⟨e, he, rfl⟩
  simpa using (List.mem_filter.1 he).2

theorem find?_otherEntries (d : Dictionary κ α) {k j : κ} (h : j ≠ k) :
    ((d.otherEntries k).find? fun e => e.1 = j) = d.entries.find? fun e => e.1 = j := by
  simp only [otherEntries, List.find?_filter]
  congr 1
  funext e
  by_cases he : e.1 = j
  · simp [he, h]
  · simp [he]

/-- `d` with `v` before the values of `k`, and `k` before the other keys. -/
def addToGroup (d : Dictionary κ (List α)) (k : κ) (v : α) : Dictionary κ (List α) :=
  ⟨(k, v :: (d.get? k).getD []) :: d.otherEntries k, d.nodup_cons_otherEntries k _⟩

/-- The values of each key, in the order of the entries; the keys are in the order of their first
entries. -/
def group : List (κ × α) → Dictionary κ (List α)
  | [] => empty
  | (k, v) :: rest => (group rest).addToGroup k v

/-- The values of a key are those of its entries; a key without entries has none. -/
theorem get?_group (entries : List (κ × α)) (k : κ) :
    (group entries).get? k =
      let values := (entries.filter fun e => e.1 = k).map Prod.snd
      if values = [] then none else some values := by
  induction entries with
  | nil => rfl
  | cons e rest ih =>
    obtain ⟨j, v⟩ := e
    by_cases h : j = k
    · subst h
      simp only [group, addToGroup, get?, List.find?_cons, decide_true, Option.map_some] at ih ⊢
      rw [ih]
      by_cases hv : (rest.filter fun e => e.1 = j).map Prod.snd = [] <;> simp [hv]
    · have others := find?_otherEntries (group rest) (Ne.symm h)
      simp only [group, addToGroup, get?, List.find?_cons, h, decide_false] at ih ⊢
      rw [others, ih, List.filter_cons_of_neg (by simpa using h)]

/-- The two have the same keys, and `same` relates their values. -/
def equal (same : α → α → Bool) (d e : Dictionary κ α) : Bool :=
  d.entries.length == e.entries.length && d.entries.all fun x =>
    match e.get? x.1 with
    | some v => same x.2 v
    | none => false

end Lookup

end Dictionary

end CheckedFlow
