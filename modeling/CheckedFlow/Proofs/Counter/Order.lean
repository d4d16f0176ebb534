import CheckedFlow.Proofs.Counter.Cells
import Mathlib.Data.List.Perm.Basic
import Mathlib.Data.String.Basic

/-!
# The order of counting does not show

Stages count at the same time, so their counts come in any order. The cells of the counters come to
be in that order too, but a table of the counters does not show it: its keys are sorted, and counts
are sums.

* `CounterKey.before_trans`, `CounterKey.before_of_ne`: keys are in a strict order.
* `Counters.Sorted`: the keys are in that order; adding keeps it.
* `Counters.Agree`: the same keys are asked for and the same counts are kept. `Agree.table`: sorted
  counters that agree have the same table.
* `Agree.addAll`, `agree_add_comm`, `agree_addAll`: counters that agree still do after the same
  counts, and the same counts may come in any order. `mem_keys_addAll`: the keys after them.
-/

namespace CheckedFlow

namespace CounterKey

variable {a b c : CounterKey}

theorem before_iff :
    a.before b = true ↔ a.counter < b.counter ∨ a.counter = b.counter ∧ a.stage < b.stage := by
  simp [before]

theorem before_irrefl (a : CounterKey) : a.before a = false := by
  simp [before]

theorem before_trans (hab : a.before b = true) (hbc : b.before c = true) : a.before c = true := by
  rw [before_iff] at hab hbc ⊢
  rcases hab with hab | ⟨hab, hab'⟩ <;> rcases hbc with hbc | ⟨hbc, hbc'⟩
  · exact .inl (hab.trans hbc)
  · exact .inl (hbc ▸ hab)
  · exact .inl (hab ▸ hbc)
  · exact .inr ⟨hab.trans hbc, hab'.trans hbc'⟩

/-- Of two different keys one comes first. -/
theorem before_of_ne (h : a ≠ b) (hab : a.before b = false) : b.before a = true := by
  rw [← Bool.not_eq_true, before_iff] at hab
  rw [before_iff]
  rcases lt_trichotomy a.counter b.counter with hc | hc | hc
  · exact absurd (.inl hc) hab
  · rcases lt_trichotomy a.stage b.stage with hs | hs | hs
    · exact absurd (.inr ⟨hc, hs⟩) hab
    · obtain ⟨ac, as⟩ := a
      obtain ⟨bc, bs⟩ := b
      exact absurd (congrArg₂ CounterKey.mk hc hs) h
    · exact .inr ⟨hc.symm, hs⟩
  · exact .inl hc

/-- A key is put at its place. -/
theorem pairwise_insert {keys : List CounterKey} (h : keys.Pairwise fun a b => a.before b) :
    (a.insert keys).Pairwise fun a b => a.before b := by
  induction keys with
  | nil => exact List.pairwise_singleton ..
  | cons k keys ih =>
    obtain ⟨hk, hkeys⟩ := List.pairwise_cons.mp h
    rw [insert]
    split
    · rename_i hak
      refine List.pairwise_cons.mpr ⟨fun b hb => ?_, h⟩
      rcases List.mem_cons.mp hb with rfl | hb
      · exact hak
      · exact before_trans hak (hk b hb)
    split
    · exact h
    · rename_i hak hne
      refine List.pairwise_cons.mpr ⟨fun b hb => ?_, ih hkeys⟩
      rcases Counters.mem_insert.mp hb with rfl | hb
      · exact before_of_ne hne (by simpa using hak)
      · exact hk b hb

theorem nodup_of_pairwise {keys : List CounterKey} (h : keys.Pairwise fun a b => a.before b) :
    keys.Nodup :=
  h.imp fun {a b} hab he => by
    rw [he, before_irrefl] at hab
    cases hab

/-- Keys in order are known by their members. -/
theorem eq_of_pairwise {keys keys' : List CounterKey} (h : keys.Pairwise fun a b => a.before b)
    (h' : keys'.Pairwise fun a b => a.before b) (hmem : ∀ k, k ∈ keys ↔ k ∈ keys') :
    keys = keys' := by
  have hperm : keys.Perm keys' :=
    (List.perm_ext_iff_of_nodup (nodup_of_pairwise h) (nodup_of_pairwise h')).mpr hmem
  refine hperm.eq_of_pairwise (fun a b _ _ hab hba => ?_) h h'
  have haa := before_trans hab hba
  rw [before_irrefl] at haa
  cases haa

end CounterKey

namespace Counters

/-- The keys are in order. -/
def Sorted (c : Counters) : Prop := c.keys.Pairwise fun a b => a.before b

theorem sorted_empty : empty.Sorted := List.Pairwise.nil

theorem Sorted.add {c : Counters} (h : c.Sorted) (key : CounterKey) (n : UInt64) :
    (c.add key n).Sorted :=
  CounterKey.pairwise_insert h

/-- The same counters were asked for, and the same counts are kept for all keys. -/
structure Agree (c c' : Counters) : Prop where
  keys : ∀ key, key ∈ c.keys ↔ key ∈ c'.keys
  count : ∀ key, c.count key = c'.count key

namespace Agree

variable {c c' c'' : Counters}

theorem refl (c : Counters) : c.Agree c := ⟨fun _ => Iff.rfl, fun _ => rfl⟩

theorem trans (h : c.Agree c') (h' : c'.Agree c'') : c.Agree c'' :=
  ⟨fun key => (h.keys key).trans (h'.keys key), fun key => (h.count key).trans (h'.count key)⟩

theorem table (h : c.Agree c') (hs : c.Sorted) (hs' : c'.Sorted) : c.table = c'.table := by
  have hcount : (fun key => (key, c.count key)) = fun key => (key, c'.count key) :=
    funext fun key => by rw [h.count]
  rw [Counters.table, Counters.table, CounterKey.eq_of_pairwise hs hs' h.keys, hcount]

theorem add (h : c.Agree c') (key : CounterKey) (n : UInt64) : (c.add key n).Agree (c'.add key n) :=
  ⟨fun k => by rw [mem_keys_add, mem_keys_add, h.keys],
    fun k => by rw [count_add, count_add, h.count]⟩

end Agree

/-- Two counts may change places. -/
theorem agree_add_comm (c : Counters) (key key' : CounterKey) (n n' : UInt64) :
    ((c.add key n).add key' n').Agree ((c.add key' n').add key n) := by
  refine ⟨fun k => ?_, fun k => ?_⟩
  · simp only [mem_keys_add]
    exact or_left_comm
  · simp only [count_add]
    split <;> split
    · rw [UInt64.add_assoc, UInt64.add_comm n, ← UInt64.add_assoc]
    all_goals rfl

/-- The counters after some counts. -/
def addAll (c : Counters) (counts : List (CounterKey × UInt64)) : Counters :=
  counts.foldl (fun c e => c.add e.1 e.2) c

theorem mem_keys_addAll {c : Counters} {counts : List (CounterKey × UInt64)} {key : CounterKey} :
    key ∈ (c.addAll counts).keys ↔ key ∈ c.keys ∨ ∃ n, (key, n) ∈ counts := by
  induction counts generalizing c with
  | nil => simp [addAll]
  | cons e counts ih =>
    refine (ih (c := c.add e.1 e.2)).trans ?_
    simp only [mem_keys_add, List.mem_cons, exists_or, Prod.ext_iff, exists_and_left, exists_eq,
      and_true]
    rw [or_comm (a := key = e.1), or_assoc]

theorem Agree.addAll {c c' : Counters} (h : c.Agree c') (counts : List (CounterKey × UInt64)) :
    (c.addAll counts).Agree (c'.addAll counts) := by
  induction counts generalizing c c' with
  | nil => exact h
  | cons e counts ih => exact ih (h.add e.1 e.2)

/-- The same counts in another order lead to counters that agree. -/
theorem agree_addAll {c : Counters} {counts counts' : List (CounterKey × UInt64)}
    (hp : counts.Perm counts') : (c.addAll counts).Agree (c.addAll counts') := by
  induction hp generalizing c with
  | nil => exact Agree.refl c
  | cons e _ ih => exact ih
  | swap e e' counts => exact (agree_add_comm c e'.1 e.1 e'.2 e.2).addAll counts
  | trans _ _ ih₁ ih₂ => exact ih₁.trans ih₂

end Counters

end CheckedFlow
