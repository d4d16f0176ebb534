import CheckedFlow.Check.Stage
import CheckedFlow.Counter.Cells

/-!
# Counts and the cells they are kept in

Adding to a counter changes the count of every counter that shares its cell, and no other count.

* `Counters.count_add`, `Counters.table_get`, `Counters.get_add`: what is counted, and what a table
  shows of it. `Counters.total_of_ones`: the total of counters that count one each.
* `digest_append_inj`: digests that differ still differ after more bytes, because mixing in a byte
  can be undone.
* `success_digest_ne_failure`: the two counters of a check stage never share a cell.
-/

namespace CheckedFlow

namespace Counters

/-- Only the count for the digest changes. -/
theorem find?_updateCells (key : CounterKey) (d d' : UInt64) (f : UInt64 → UInt64)
    (cells : List CounterCell) :
    (((updateCells key d f cells).find? fun c => c.digest = d').map CounterCell.count).getD 0 =
      let n := ((cells.find? fun c => c.digest = d').map CounterCell.count).getD 0
      if d' = d then f n else n := by
  induction cells with
  | nil =>
    by_cases h : d' = d
    · simp [updateCells, h]
    · simp [updateCells, h, Ne.symm h]
  | cons c cells ih =>
    rw [updateCells]
    split
    · rename_i hc
      by_cases h : d' = d
      · simp [hc, h]
      · simp [hc, h, Ne.symm h]
    · rename_i hc
      by_cases h : c.digest = d'
      · have hd : d' ≠ d := fun he => hc (h.trans he)
        simp [h, hd]
      · simpa [List.find?_cons, h] using ih

theorem count_update (c : Counters) (key key' : CounterKey) (f : UInt64 → UInt64) :
    (c.update key f).count key' =
      if key'.digest = key.digest then f (c.count key') else c.count key' :=
  find?_updateCells ..

/-- Adding changes the counts that are kept in the same cell. -/
theorem count_add (c : Counters) (key key' : CounterKey) (n : UInt64) :
    (c.add key n).count key' =
      if key'.digest = key.digest then c.count key' + n else c.count key' :=
  count_update ..

theorem mem_insert {key key' : CounterKey} {keys : List CounterKey} :
    key' ∈ key.insert keys ↔ key' = key ∨ key' ∈ keys := by
  induction keys with
  | nil => simp [CounterKey.insert]
  | cons k keys ih =>
    rw [CounterKey.insert]
    split
    · simp
    split
    · rename_i h
      simp [h]
    · rw [List.mem_cons, List.mem_cons, ih, or_left_comm]

theorem mem_keys_add {c : Counters} {key key' : CounterKey} {n : UInt64} :
    key' ∈ (c.add key n).keys ↔ key' = key ∨ key' ∈ c.keys :=
  mem_insert

/-- A table shows the counters that were asked for. -/
theorem table_get (c : Counters) (key : CounterKey) :
    c.table.get key = if key ∈ c.keys then c.count key else 0 := by
  rw [CounterTable.get, table]
  generalize c.keys = keys
  induction keys with
  | nil => simp
  | cons k keys ih =>
    by_cases h : key = k
    · simp [h]
    · have hb : (key == k) = false := beq_eq_false_iff_ne.mpr h
      simpa [List.lookup_cons, hb, h] using ih

/-- After adding to `key`, a table shows `key` and more in the other counters of its cell. -/
theorem get_add (c : Counters) (key key' : CounterKey) (n : UInt64) :
    (c.add key n).table.get key' =
      if key' = key then c.count key + n
      else c.table.get key' + if key' ∈ c.keys ∧ key'.digest = key.digest then n else 0 := by
  rw [table_get, table_get, count_add]
  by_cases hk : key' = key
  · simp [hk, mem_keys_add]
  by_cases hmem : key' ∈ c.keys
  · by_cases hd : key'.digest = key.digest
    · simp [hk, hmem, hd, mem_keys_add]
    · simp [hk, hmem, hd, mem_keys_add]
  · simp [hk, hmem, mem_keys_add]

/-- If all counters of a name count one, their total is their number. -/
theorem total_of_ones {c : Counters} {counter : String}
    (h : ∀ key ∈ c.keys, key.counter = counter → c.count key = 1) :
    c.table.total counter = UInt64.ofNat (c.keys.countP fun key => key.counter = counter) := by
  have hsum : ∀ (keys : List CounterKey) (sum : UInt64), (∀ key ∈ keys, key ∈ c.keys) →
      ((keys.map fun key => (key, c.count key)).filter fun e => e.1.counter = counter).foldl
        (fun sum e => sum + e.2) sum =
      sum + UInt64.ofNat (keys.countP fun key => key.counter = counter) := by
    intro keys
    induction keys with
    | nil => simp
    | cons key keys ih =>
      intro sum hkeys
      have hrest := fun sum => ih sum fun k hk => hkeys k (List.mem_cons_of_mem key hk)
      by_cases hk : key.counter = counter
      · have hone := h key (hkeys key List.mem_cons_self) hk
        simp only [List.map_cons, hk, decide_true, List.filter_cons_of_pos, List.foldl_cons,
          hrest, hone, List.countP_cons_of_pos, UInt64.ofNat_add, UInt64.add_assoc]
        exact congrArg (sum + ·) (UInt64.add_comm ..)
      · simp [hk, hrest]
  rw [CounterTable.total, CounterTable.named, table, hsum c.keys 0 fun _ hk => hk, UInt64.zero_add]

end Counters

/-! ## Digests -/

/-- The multiplier of a digest has an inverse, so mixing in a byte loses nothing. -/
theorem mix_inj {h h' : UInt64} {b : UInt8}
    (e : (h ^^^ b.toUInt64) * 0x100000001B3 = (h' ^^^ b.toUInt64) * 0x100000001B3) : h = h' := by
  have hinv : (0x100000001B3 : UInt64) * 0xCE965057AFF6957B = 1 := by decide
  have hx : h ^^^ b.toUInt64 = h' ^^^ b.toUInt64 := by
    have := congrArg (· * (0xCE965057AFF6957B : UInt64)) e
    simpa only [UInt64.mul_assoc, hinv, UInt64.mul_one] using this
  have := congrArg (· ^^^ b.toUInt64) hx
  simpa only [UInt64.xor_assoc, UInt64.xor_self, UInt64.xor_zero] using this

/-- More bytes keep different digests apart. -/
theorem digest_append_inj {bs bs' more : Bytes} (h : digest (bs ++ more) = digest (bs' ++ more)) :
    digest bs = digest bs' := by
  simp only [digest, List.foldl_append] at h ⊢
  generalize List.foldl _ _ bs = x at h ⊢
  generalize List.foldl _ _ bs' = y at h ⊢
  induction more generalizing x y with
  | nil => exact h
  | cons b more ih => exact mix_inj (ih _ _ h)

/-- The counters of successes and of failures of one stage have cells of their own. -/
theorem success_digest_ne_failure (stage : String) :
    (CounterKey.mk successCounter stage).digest ≠ (CounterKey.mk failureCounter stage).digest := by
  intro h
  have hnames : digest (Bytes.ofText successCounter) ≠ digest (Bytes.ofText failureCounter) := by
    decide +kernel
  exact hnames (digest_append_inj h)

end CheckedFlow
