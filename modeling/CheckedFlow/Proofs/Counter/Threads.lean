import CheckedFlow.Proofs.Counter.Order
import Mathlib.Algebra.Ring.Nat
import Mathlib.Data.List.Infix
import Mathlib.Logic.Function.Basic

/-!
# Threads that share counters

Threads ask for counters, add to them through the handles that they get, hand these on to each
other, and take snapshots. None of this happens at once: a call for a handle first notes the key and
then finds the cell, and a snapshot first reads the keys and then the cells, one after the other.
Between two such steps of a thread any other threads take theirs. A step works on the keys or on one
cell, as the steps before left them.

* `Counters.note`, `Counters.fetch`, `Counters.bump`: the steps that change the counters. `touch_eq`
  and `add_eq` put asking and counting together from them.
* `SharedCounters`, `Step`, `Run`: the counters with what the threads are doing, one step of a
  thread, and any number of steps with what happened in them.
* `Run.keys`, `Run.handles`, `Run.count`: what a run leaves behind is told by what happened in it.
* `Sound`: the keys and the cells stay in step. `Run.sound`: every run keeps that.
* `run_add`, `run_snapshot`: what a thread does that nobody disturbs.
-/

namespace CheckedFlow

/-! ## Steps on counters -/

namespace Counters

variable {c : Counters} {key key' : CounterKey} {n : UInt64}

/-- The counters after `key` was noted as asked for. -/
def note (c : Counters) (key : CounterKey) : Counters := { c with keys := key.insert c.keys }

/-- The counters after the cell of `key` was found, or made if there was none. -/
def fetch (c : Counters) (key : CounterKey) : Counters :=
  { c with cells := updateCells key key.digest id c.cells }

/-- The counters after `n` was added to the cell of `key`. -/
def bump (c : Counters) (key : CounterKey) (n : UInt64) : Counters :=
  { c with cells := updateCells key key.digest (· + n) c.cells }

/-- Asking for a counter notes its key and fetches its cell. -/
theorem touch_eq (c : Counters) (key : CounterKey) : c.touch key = (c.note key).fetch key := rfl

/-- Counting is asking for the counter and adding to its cell. -/
theorem add_eq (c : Counters) (key : CounterKey) (n : UInt64) :
    c.add key n = (c.touch key).bump key n := by
  suffices h : ∀ cells, updateCells key key.digest (· + n) cells =
      updateCells key key.digest (· + n) (updateCells key key.digest id cells) by
    rw [add, update, touch, update, bump, h]
  intro cells
  induction cells with
  | nil => simp [updateCells]
  | cons cell cells ih =>
    by_cases hd : cell.digest = key.digest
    · simp [updateCells, hd]
    · simp [updateCells, hd, ih]

@[simp] theorem count_note : (c.note key).count key' = c.count key' := rfl

@[simp] theorem count_fetch : (c.fetch key).count key' = c.count key' :=
  (find?_updateCells ..).trans (by simp [count])

theorem count_bump : (c.bump key n).count key' =
    if key'.digest = key.digest then c.count key' + n else c.count key' :=
  find?_updateCells ..

@[simp] theorem mem_keys_note : key' ∈ (c.note key).keys ↔ key' = key ∨ key' ∈ c.keys := mem_insert

/-- What does not change about cells: the digest that they are found by, and the owner. -/
def labels (cells : List CounterCell) : List (UInt64 × CounterKey) :=
  cells.map fun cell => (cell.digest, cell.owner)

/-- Cells stay as they are, apart from their counts. One more is made if there is none for the
digest. -/
theorem labels_updateCells (key : CounterKey) (d : UInt64) (f : UInt64 → UInt64)
    (cells : List CounterCell) :
    labels (updateCells key d f cells) =
      if d ∈ (labels cells).map Prod.fst then labels cells else labels cells ++ [(d, key)] := by
  induction cells with
  | nil => rfl
  | cons cell cells ih =>
    rw [updateCells]
    by_cases hd : cell.digest = d
    · simp [labels, hd]
    · have hcons : ∀ cells, labels (cell :: cells) = (cell.digest, cell.owner) :: labels cells :=
        fun _ => rfl
      have hmem : d ∈ (labels (cell :: cells)).map Prod.fst ↔ d ∈ (labels cells).map Prod.fst := by
        simp [hcons, Ne.symm hd]
      rw [if_neg hd, hcons, ih]
      by_cases hold : d ∈ (labels cells).map Prod.fst
      · rw [if_pos hold, if_pos (hmem.mpr hold), hcons]
      · rw [if_neg hold, if_neg (mt hmem.mp hold), hcons, List.cons_append]

/-- There is a cell for the digest of `key`. -/
def HasCell (c : Counters) (key : CounterKey) : Prop :=
  key.digest ∈ (labels c.cells).map Prod.fst

theorem labels_fetch (c : Counters) (key : CounterKey) :
    c.HasCell key ∧ labels (c.fetch key).cells = labels c.cells ∨
      labels (c.fetch key).cells = labels c.cells ++ [(key.digest, key)] := by
  have h := labels_updateCells key key.digest id c.cells
  split at h
  · exact .inl ⟨‹_›, h⟩
  · exact .inr h

theorem hasCell_fetch (c : Counters) (key : CounterKey) : (c.fetch key).HasCell key := by
  rcases labels_fetch c key with ⟨hcell, h⟩ | h
  · rwa [HasCell, h]
  · simp [HasCell, h]

/-- Where there is a cell, adding makes none. -/
theorem labels_bump (h : c.HasCell key) (n : UInt64) :
    labels (c.bump key n).cells = labels c.cells :=
  (labels_updateCells ..).trans (if_pos h)

end Counters

/-! ## Threads -/

/-- Where the call of a thread stands. -/
inductive CounterCall where
  | idle
  /-- The key was noted. The cell comes next. -/
  | asking (key : CounterKey)
  /-- A snapshot, with the keys whose cells are to be read and what was read. -/
  | reading (left : List CounterKey) (read : List (CounterKey × UInt64))
  /-- The same, when the cell of `key` was found. Its count comes next. -/
  | loading (key : CounterKey) (left : List CounterKey) (read : List (CounterKey × UInt64))

/-- The keys that a call has still to do with. -/
def CounterCall.ahead : CounterCall → List CounterKey
  | idle => []
  | asking key => [key]
  | reading left _ => left
  | loading key left _ => key :: left

/-- What a step of a thread is. -/
inductive CounterEvent where
  /-- A call for a handle notes the key. -/
  | asks (key : CounterKey)
  /-- The call finds the cell and returns the handle. -/
  | obtains (key : CounterKey)
  /-- `n` is added through a handle. -/
  | adds (key : CounterKey) (n : UInt64)
  /-- A snapshot begins with the keys. -/
  | begins
  /-- It finds the cell of a key. -/
  | finds (key : CounterKey)
  /-- It reads the count of that cell. -/
  | loads (key : CounterKey)
  /-- It is returned. -/
  | takes (t : CounterTable)

/-- A step of a call for a handle, or one that adds to a counter. -/
def CounterEvent.updates : CounterEvent → Bool
  | asks _ | obtains _ | adds .. => true
  | begins | finds _ | loads _ | takes _ => false

/-- What happened, by which thread, the last step at the end. -/
abbrev CounterHistory := List (Nat × CounterEvent)

/-- The amount that is added to counters with the property `p`. -/
def CounterEvent.amount (p : CounterKey → Bool) : CounterEvent → Nat
  | adds key n => if p key then n.toNat else 0
  | _ => 0

namespace CounterHistory

/-- The sum of what was added to counters with the property `p`. -/
def added (p : CounterKey → Bool) (events : CounterHistory) : Nat :=
  (events.map fun e => e.2.amount p).sum

/-- A thread asked for the counter. -/
def Asked (events : CounterHistory) (key : CounterKey) : Prop := ∃ i, (i, .asks key) ∈ events

/-- A thread obtained a handle to the counter. -/
def Obtained (events : CounterHistory) (key : CounterKey) : Prop := ∃ i, (i, .obtains key) ∈ events

/-- Nobody did anything to the counters. -/
def Quiet (events : CounterHistory) : Prop := ∀ e ∈ events, e.2.updates = false

end CounterHistory

/-- Counters with what threads are doing. -/
structure SharedCounters where
  counters : Counters := .empty
  /-- The calls of the threads, by their numbers. -/
  calls : Nat → CounterCall := fun _ => .idle
  /-- The counters whose handles were returned. -/
  handles : List CounterKey := []
  /-- The snapshots that were returned. -/
  snapshots : List CounterTable := []

namespace SharedCounters

/-- A step of a thread. Any thread may use any handle that was returned to one of them. -/
inductive Step : SharedCounters → Nat × CounterEvent → SharedCounters → Prop
  | asks {s : SharedCounters} {i : Nat} (key : CounterKey) (h : s.calls i = .idle) :
      Step s (i, .asks key) { s with
        counters := s.counters.note key
        calls := Function.update s.calls i (.asking key) }
  | obtains {s : SharedCounters} {i : Nat} {key : CounterKey} (h : s.calls i = .asking key) :
      Step s (i, .obtains key) { s with
        counters := s.counters.fetch key
        calls := Function.update s.calls i .idle
        handles := key :: s.handles }
  | adds {s : SharedCounters} {i : Nat} (key : CounterKey) (n : UInt64) (h : s.calls i = .idle)
      (hkey : key ∈ s.handles) :
      Step s (i, .adds key n) { s with counters := s.counters.bump key n }
  | begins {s : SharedCounters} {i : Nat} (h : s.calls i = .idle) :
      Step s (i, .begins) { s with
        calls := Function.update s.calls i (.reading s.counters.keys []) }
  | finds {s : SharedCounters} {i : Nat} {key : CounterKey} {left : List CounterKey}
      {read : List (CounterKey × UInt64)} (h : s.calls i = .reading (key :: left) read) :
      Step s (i, .finds key) { s with
        counters := s.counters.fetch key
        calls := Function.update s.calls i (.loading key left read) }
  | loads {s : SharedCounters} {i : Nat} {key : CounterKey} {left : List CounterKey}
      {read : List (CounterKey × UInt64)} (h : s.calls i = .loading key left read) :
      Step s (i, .loads key) { s with
        calls := Function.update s.calls i
          (.reading left (read ++ [(key, s.counters.count key)])) }
  | takes {s : SharedCounters} {i : Nat} {read : List (CounterKey × UInt64)}
      (h : s.calls i = .reading [] read) :
      Step s (i, .takes ⟨read⟩) { s with
        calls := Function.update s.calls i .idle
        snapshots := s.snapshots ++ [⟨read⟩] }

/-- Any number of steps, by any threads in any order. -/
inductive Run (s : SharedCounters) : CounterHistory → SharedCounters → Prop
  | refl : Run s [] s
  | step {events : CounterHistory} {s' s'' : SharedCounters} {e : Nat × CounterEvent}
      (h : Run s events s') (he : Step s' e s'') : Run s (events ++ [e]) s''

variable {s s' s'' : SharedCounters} {e : Nat × CounterEvent} {events later : CounterHistory}
  {key : CounterKey} {i j : Nat}

theorem Run.trans (h : Run s events s') (h' : Run s' later s'') : Run s (events ++ later) s'' := by
  induction h' with
  | refl => rwa [List.append_nil]
  | step _ he ih =>
    rw [← List.append_assoc]
    exact ih.step he

/-! ## What a step does -/

theorem Step.keys (h : Step s e s') :
    key ∈ s'.counters.keys ↔ key ∈ s.counters.keys ∨ e.2 = .asks key := by
  cases h <;> simp [Counters.fetch, Counters.bump, or_comm, eq_comm]

theorem Step.sorted (h : Step s e s') (hs : s.counters.Sorted) : s'.counters.Sorted := by
  cases h with
  | asks key => exact CounterKey.pairwise_insert hs
  | _ => exact hs

theorem Step.handles (h : Step s e s') :
    key ∈ s'.handles ↔ key ∈ s.handles ∨ e.2 = .obtains key := by
  cases h <;> simp [or_comm, eq_comm]

theorem Step.count (h : Step s e s') : s'.counters.count key =
    s.counters.count key + UInt64.ofNat (e.2.amount fun k => k.digest = key.digest) := by
  cases h with
  | adds k n =>
    rw [Counters.count_bump]
    by_cases hd : k.digest = key.digest
    · simp [CounterEvent.amount, hd]
    · simp [CounterEvent.amount, hd, Ne.symm hd]
  | _ => simp [CounterEvent.amount]

/-- A snapshot that was returned stays as it is. -/
theorem Step.snapshots (h : Step s e s') : s.snapshots <+: s'.snapshots := by
  cases h with
  | takes => exact List.prefix_append ..
  | _ => exact List.prefix_rfl

theorem Step.calls (h : Step s e s') (hj : j ≠ e.1) : s'.calls j = s.calls j := by
  cases h <;> first | rfl | exact Function.update_of_ne hj ..

/-! ## Keys and cells -/

/-- The keys that were noted and the cells are in step: a handle is to a counter that was noted, and
its cell is there; nothing else is noted, apart from calls on their way; and every cell belongs to a
counter that was noted. -/
structure Sound (s : SharedCounters) : Prop where
  sorted : s.counters.Sorted
  handles : ∀ key ∈ s.handles, key ∈ s.counters.keys ∧ s.counters.HasCell key
  ahead : ∀ i, ∀ key ∈ (s.calls i).ahead, key ∈ s.counters.keys
  keys : ∀ key ∈ s.counters.keys, key ∈ s.handles ∨ ∃ i, s.calls i = .asking key
  cells : ∀ l ∈ Counters.labels s.counters.cells, l.2 ∈ s.counters.keys ∧ l.1 = l.2.digest

theorem sound_new : Sound {} where
  sorted := Counters.sorted_empty
  handles _ h := nomatch h
  ahead _ _ h := nomatch h
  keys _ h := nomatch h
  cells _ h := nomatch h

/-- A cell is made only by a call that looks for it, for a counter that was noted. -/
theorem Step.labels (h : Step s e s') (hs : s.Sound) :
    Counters.labels s'.counters.cells = Counters.labels s.counters.cells ∨
      ∃ key ∈ s.counters.keys, (e.2 = .obtains key ∨ e.2 = .finds key) ∧
        Counters.labels s'.counters.cells =
          Counters.labels s.counters.cells ++ [(key.digest, key)] := by
  cases h with
  | @obtains i key h =>
    have hkey := hs.ahead i key (by simp [h, CounterCall.ahead])
    exact (Counters.labels_fetch s.counters key).imp And.right fun hl => ⟨key, hkey, .inl rfl, hl⟩
  | @finds i key left read h =>
    have hkey := hs.ahead i key (by simp [h, CounterCall.ahead])
    exact (Counters.labels_fetch s.counters key).imp And.right fun hl => ⟨key, hkey, .inr rfl, hl⟩
  | adds _ n _ hkey => exact .inl (Counters.labels_bump (hs.handles _ hkey).2 n)
  | _ => exact .inl rfl

theorem Step.hasCell (h : Step s e s') (hs : s.Sound) (hcell : s.counters.HasCell key) :
    s'.counters.HasCell key := by
  rcases h.labels hs with hl | ⟨_, -, -, hl⟩
  · rwa [Counters.HasCell, hl]
  · rw [Counters.HasCell, hl, List.map_append]
    exact List.mem_append_left _ hcell

/-- What a thread has still to do with was noted. -/
theorem Step.ahead (h : Step s e s') (hs : s.Sound) (i : Nat) :
    ∀ key ∈ (s'.calls i).ahead, key ∈ s'.counters.keys := by
  intro key hkey
  by_cases hi : i = e.1
  · have hold := hs.ahead i key
    cases h <;> simp_all [CounterCall.ahead, Counters.fetch]
  · rw [h.calls hi] at hkey
    exact h.keys.mpr (.inl (hs.ahead i key hkey))

/-- A call for a handle stays on its way, or returns the handle. -/
theorem Step.asking (h : Step s e s') (hi : s.calls i = .asking key) :
    s'.calls i = .asking key ∨ e.2 = .obtains key := by
  by_cases hei : i = e.1
  · cases h <;> simp_all
  · exact .inl ((h.calls hei).trans hi)

theorem Step.sound (h : Step s e s') (hs : s.Sound) : s'.Sound where
  sorted := h.sorted hs.sorted
  handles key hkey := by
    rcases h.handles.mp hkey with hold | hnew
    · obtain ⟨hmem, hcell⟩ := hs.handles key hold
      exact ⟨h.keys.mpr (.inl hmem), h.hasCell hs hcell⟩
    · cases h <;> cases hnew
      rename_i i hcall
      exact ⟨hs.ahead i key (by simp [hcall, CounterCall.ahead]), Counters.hasCell_fetch ..⟩
  ahead := h.ahead hs
  keys key hkey := by
    rcases h.keys.mp hkey with hold | hnew
    · rcases hs.keys key hold with hhandle | ⟨i, hi⟩
      · exact .inl (h.handles.mpr (.inl hhandle))
      · rcases h.asking hi with hi | hobtains
        · exact .inr ⟨i, hi⟩
        · exact .inl (h.handles.mpr (.inr hobtains))
    · cases h <;> cases hnew
      rename_i i hcall
      exact .inr ⟨i, Function.update_self ..⟩
  cells l hl := by
    rcases h.labels hs with hsame | ⟨key, hkey, -, hmore⟩
    · obtain ⟨howner, hdigest⟩ := hs.cells l (hsame ▸ hl)
      exact ⟨h.keys.mpr (.inl howner), hdigest⟩
    · rcases List.mem_append.mp (hmore ▸ hl) with hl | hl
      · obtain ⟨howner, hdigest⟩ := hs.cells l hl
        exact ⟨h.keys.mpr (.inl howner), hdigest⟩
      · obtain rfl := List.mem_singleton.mp hl
        exact ⟨h.keys.mpr (.inl hkey), rfl⟩

/-! ## What a run leaves behind -/

theorem Run.sound (h : Run s events s') (hs : s.Sound) : s'.Sound := by
  induction h with
  | refl => exact hs
  | step _ he ih => exact he.sound ih

theorem Run.keys (h : Run s events s') :
    key ∈ s'.counters.keys ↔ key ∈ s.counters.keys ∨ events.Asked key := by
  induction h with
  | refl => simp [CounterHistory.Asked]
  | @step events s' s'' e _ he ih =>
    obtain ⟨j, ev⟩ := e
    rw [he.keys, ih]
    simp [CounterHistory.Asked, exists_or, or_assoc, eq_comm]

theorem Run.handles (h : Run s events s') :
    key ∈ s'.handles ↔ key ∈ s.handles ∨ events.Obtained key := by
  induction h with
  | refl => simp [CounterHistory.Obtained]
  | @step events s' s'' e _ he ih =>
    obtain ⟨j, ev⟩ := e
    rw [he.handles, ih]
    simp [CounterHistory.Obtained, exists_or, or_assoc, eq_comm]

theorem Run.count (h : Run s events s') : s'.counters.count key = s.counters.count key +
    UInt64.ofNat (events.added fun k => k.digest = key.digest) := by
  induction h with
  | refl => simp [CounterHistory.added]
  | @step events s' s'' e _ he ih =>
    rw [he.count, ih]
    simp [CounterHistory.added, UInt64.ofNat_add, UInt64.add_assoc]

theorem Run.snapshots (h : Run s events s') : s.snapshots <+: s'.snapshots := by
  induction h with
  | refl => exact List.prefix_rfl
  | step _ he ih => exact ih.trans he.snapshots

theorem Run.takes (h : Run s events s') {t : CounterTable} (ht : (i, .takes t) ∈ events) :
    t ∈ s'.snapshots := by
  induction h with
  | refl => cases ht
  | step _ he ih =>
    rcases List.mem_append.mp ht with ht | ht
    · exact he.snapshots.subset (ih ht)
    · obtain rfl := List.mem_singleton.mp ht
      cases he
      exact List.mem_append_right _ List.mem_cons_self

/-- Nothing is added but through a handle. -/
theorem Run.adds (h : Run s events s') {n : UInt64} (hadds : (i, .adds key n) ∈ events) :
    key ∈ s'.handles := by
  induction h with
  | refl => cases hadds
  | step _ he ih =>
    rcases List.mem_append.mp hadds with hadds | hadds
    · exact he.handles.mpr (.inl (ih hadds))
    · obtain rfl := List.mem_singleton.mp hadds
      cases he
      assumption

/-! ## Runs from the beginning -/

theorem Run.asked_iff (h : Run {} events s) : events.Asked key ↔ key ∈ s.counters.keys :=
  (h.keys.trans (or_iff_right List.not_mem_nil)).symm

theorem Run.obtained_iff (h : Run {} events s) : events.Obtained key ↔ key ∈ s.handles :=
  (h.handles.trans (or_iff_right List.not_mem_nil)).symm

/-- When no call for a handle is on its way, all that was asked for was obtained. -/
theorem Run.asked_iff_obtained (h : Run {} events s) (hcalls : ∀ i key, s.calls i ≠ .asking key) :
    events.Asked key ↔ events.Obtained key := by
  have hsound := h.sound sound_new
  rw [h.asked_iff, h.obtained_iff]
  refine ⟨fun hkey => ?_, fun hkey => (hsound.handles key hkey).1⟩
  rcases hsound.keys key hkey with hkey | ⟨i, hi⟩
  · exact hkey
  · exact absurd hi (hcalls i key)

/-! ## A thread that nobody disturbs -/

/-- Asking for a counter and adding to it, one step after the other, is counting. -/
theorem run_add (h : s.calls i = .idle) (key : CounterKey) (n : UInt64) :
    ∃ s', Run s [(i, .asks key), (i, .obtains key), (i, .adds key n)] s' ∧
      s'.counters = s.counters.add key n := by
  have hasks := Run.refl.step (Step.asks key h)
  have hobtains := hasks.step (Step.obtains (Function.update_self ..))
  have hadds := hobtains.step (Step.adds key n (Function.update_self ..) List.mem_cons_self)
  exact ⟨_, hadds, (Counters.add_eq ..).symm⟩

/-- What is left to read is read, with the counts as they are. -/
theorem run_reading {left : List CounterKey} {read : List (CounterKey × UInt64)}
    (h : s.calls i = .reading left read) :
    ∃ later s', Run s later s' ∧
      (i, .takes ⟨read ++ left.map fun key => (key, s.counters.count key)⟩) ∈ later ∧
      later.Quiet ∧ ∀ e ∈ later, e.1 = i := by
  induction left generalizing s read with
  | nil =>
    refine ⟨_, _, Run.refl.step (.takes h), ?_, ?_, ?_⟩
    · simp
    · simp [CounterHistory.Quiet, CounterEvent.updates]
    · simp
  | cons key left ih =>
    obtain ⟨s₁, hloads, hcall, hcount⟩ : ∃ s₁, Run s [(i, .finds key), (i, .loads key)] s₁ ∧
        s₁.calls i = .reading left (read ++ [(key, s.counters.count key)]) ∧
        ∀ key, s₁.counters.count key = s.counters.count key := by
      have hfinds := Run.refl.step (Step.finds h)
      have hloads := hfinds.step (Step.loads (Function.update_self ..))
      refine ⟨_, hloads, ?_, fun _ => Counters.count_fetch⟩
      exact (Function.update_self ..).trans (by rw [Counters.count_fetch])
    obtain ⟨later, s', hrun, htakes, hquiet, hthread⟩ := ih hcall
    refine ⟨_, s', hloads.trans hrun, List.mem_append_right _ ?_, ?_, ?_⟩
    · simpa [hcount] using htakes
    · simpa [CounterHistory.Quiet, CounterEvent.updates] using hquiet
    · simpa using hthread

/-- A snapshot is a table of the counters. -/
theorem run_snapshot (h : s.calls i = .idle) :
    ∃ later s', Run s later s' ∧ (i, .takes s.counters.table) ∈ later ∧
      later.Quiet ∧ ∀ e ∈ later, e.1 = i := by
  obtain ⟨s₁, hbegins, hcall, hcounters⟩ : ∃ s₁, Run s [(i, .begins)] s₁ ∧
      s₁.calls i = .reading s.counters.keys [] ∧ s₁.counters = s.counters :=
    ⟨_, Run.refl.step (Step.begins h), Function.update_self .., rfl⟩
  obtain ⟨later, s', hrun, htakes, hquiet, hthread⟩ := run_reading hcall
  rw [hcounters] at htakes
  refine ⟨_, s', hbegins.trans hrun, List.mem_append_right _ htakes, ?_, ?_⟩
  · simpa [CounterHistory.Quiet, CounterEvent.updates] using hquiet
  · simpa using hthread

end SharedCounters

end CheckedFlow
