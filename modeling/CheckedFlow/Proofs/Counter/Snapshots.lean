import CheckedFlow.Proofs.Counter.Threads
import CheckedFlow.Proofs.Text.ByteOrder

/-!
# What snapshots show

A snapshot is not taken in one moment: between its reads other threads ask for more counters and add
to those that there are. It shows the counters that were asked for when it began, each with its
count at the moment when it was read. So it shows everything that was over when it began, and
nothing but that if no thread does anything more to the counters.

* `CounterTable.Lists`: what a table shows of the counters that it has. `lists_of_pairwise`: it does
  so when its keys are in order.
* `OwnCell`: no other counter of a run shares the cell of a counter. `Run.added_digest`: then only
  what was added to the counter is in its count.
* `ReadSince`: what a snapshot has read. `Run.reading`, `Run.taken`: at every moment of it, and when
  it is returned.
* `CounterTable.ShowsSince`, `CounterTable.Exact`: what a snapshot shows that others disturb, and
  one that begins when all is over. `SharedCounters.snapshots_exact`: what snapshots show, for all
  runs.
-/

namespace CheckedFlow

/-! ## Tables -/

namespace CounterTable

variable {t : CounterTable} {key : CounterKey} {counter : String}

/-- The counters of a table. -/
def keys (t : CounterTable) : List CounterKey := t.entries.map Prod.fst

/-- What a table shows when it has the counters `touched`. -/
structure Lists (t : CounterTable) (touched : CounterKey → Prop) : Prop where
  stages : ∀ counter stage, stage ∈ t.stages counter ↔ touched ⟨counter, stage⟩
  ordered : ∀ counter, (t.stages counter).Pairwise fun a b => Bytes.ofText a < Bytes.ofText b
  total : ∀ counter,
    ((t.stages counter).map fun stage => (t.get ⟨counter, stage⟩).toNat).sum < 2 ^ 64 →
      (t.total counter).toNat =
        ((t.stages counter).map fun stage => (t.get ⟨counter, stage⟩).toNat).sum
  isEmpty : t.isEmpty = true ↔ ∀ key, ¬ touched key
  untouched : ∀ key, ¬ touched key → t.get key = 0

theorem Lists.congr {touched touched' : CounterKey → Prop} (h : t.Lists touched)
    (he : ∀ key, touched key ↔ touched' key) : t.Lists touched' := by
  rwa [← funext fun key => propext (he key)]

theorem get_of_not_mem (h : key ∉ t.keys) : t.get key = 0 := by
  have hnone : t.entries.lookup key = none := by
    rw [List.lookup_eq_none_iff]
    intro e he
    exact bne_iff_ne.mpr fun hkey => h (hkey ▸ List.mem_map_of_mem he)
  rw [get, hnone, Option.getD_none]

/-- An entry is found under its key when there is no other with that key. -/
theorem get_of_mem {e : CounterKey × UInt64} (hd : t.keys.Nodup) (he : e ∈ t.entries) :
    t.get e.1 = e.2 := by
  obtain ⟨before, after, hentries⟩ := List.append_of_mem he
  rw [keys, hentries, List.map_append, List.map_cons, List.nodup_append] at hd
  have hfound : t.entries.lookup e.1 = some e.2 := by
    refine List.lookup_eq_some_iff.mpr ⟨before, after, hentries, fun e' he' => ?_⟩
    exact bne_iff_ne.mpr (hd.2.2 _ (List.mem_map_of_mem he') _ List.mem_cons_self).symm
  rw [get, hfound, Option.getD_some]

theorem mem_stages {stage : String} : stage ∈ t.stages counter ↔ ⟨counter, stage⟩ ∈ t.keys := by
  simp only [stages, named, keys, List.mem_map, List.mem_filter, decide_eq_true_eq]
  refine exists_congr fun e => ?_
  obtain ⟨⟨c, st⟩, n⟩ := e
  rw [and_assoc, CounterKey.mk.injEq]

/-- Under one name keys are in the order of the bytes of their stages. -/
theorem pairwise_stages (h : t.keys.Pairwise fun a b => a.before b) (counter : String) :
    (t.stages counter).Pairwise fun a b => Bytes.ofText a < Bytes.ofText b := by
  rw [stages, List.pairwise_map, named, List.pairwise_filter]
  refine (List.pairwise_map.mp h).imp fun {a b} hab ha hb => ?_
  have ha : a.1.counter = counter := of_decide_eq_true ha
  have hb : b.1.counter = counter := of_decide_eq_true hb
  rcases CounterKey.before_iff.mp hab with hlt | ⟨-, hlt⟩
  · exact absurd hlt (by rw [ha, hb]; exact lt_irrefl _)
  · exact Bytes.ofText_lt_iff.mpr hlt

theorem toNat_total (t : CounterTable) (counter : String) :
    (t.total counter).toNat = ((t.named counter).map fun e => e.2.toNat).sum % 2 ^ 64 := by
  have hfold : ∀ (entries : List (CounterKey × UInt64)) (sum : UInt64),
      (entries.foldl (fun sum e => sum + e.2) sum).toNat =
        (sum.toNat + (entries.map fun e => e.2.toNat).sum) % 2 ^ 64 := by
    intro entries
    induction entries with
    | nil => exact fun sum => (Nat.mod_eq_of_lt sum.toNat_lt).symm
    | cons e entries ih =>
      intro sum
      rw [List.foldl_cons, ih, UInt64.toNat_add, List.map_cons, List.sum_cons, Nat.mod_add_mod,
        Nat.add_assoc]
  rw [total, hfold, UInt64.toNat_zero, Nat.zero_add]

/-- The sum over the stages of a name is the sum over its entries. -/
theorem sum_stages (hd : t.keys.Nodup) (counter : String) :
    ((t.stages counter).map fun stage => (t.get ⟨counter, stage⟩).toNat).sum =
      ((t.named counter).map fun e => e.2.toNat).sum := by
  rw [stages, List.map_map]
  refine congrArg List.sum (List.map_congr_left fun e he => ?_)
  obtain ⟨hentry, hcounter⟩ := List.mem_filter.mp he
  have hkey : (⟨counter, e.1.stage⟩ : CounterKey) = e.1 := by
    rw [← of_decide_eq_true hcounter]
  rw [Function.comp_apply, hkey, get_of_mem hd hentry]

/-- A table whose keys are in order shows the counters that it has. -/
theorem lists_of_pairwise (h : t.keys.Pairwise fun a b => a.before b) : t.Lists (· ∈ t.keys) where
  stages _ _ := mem_stages
  ordered := pairwise_stages h
  total counter hsum := by
    rw [toNat_total, ← sum_stages (CounterKey.nodup_of_pairwise h), Nat.mod_eq_of_lt hsum]
  isEmpty := by
    rw [isEmpty, List.isEmpty_iff, keys, ← List.map_eq_nil_iff (f := Prod.fst),
      List.eq_nil_iff_forall_not_mem]
  untouched _ := get_of_not_mem

end CounterTable

/-! ## Cells of their own -/

namespace CounterHistory

variable {events later : CounterHistory} {key : CounterKey} {p q : CounterKey → Bool}

/-- No other counter of a run shares the cell of `key`. -/
def OwnCell (events : CounterHistory) (key : CounterKey) : Prop :=
  ∀ key', events.Obtained key' → key'.digest = key.digest → key' = key

theorem added_append (p : CounterKey → Bool) (events later : CounterHistory) :
    added p (events ++ later) = events.added p + later.added p := by
  rw [added, List.map_append, List.sum_append, added, added]

theorem added_congr (h : ∀ i key n, (i, .adds key n) ∈ events → p key = q key) :
    events.added p = events.added q := by
  refine congrArg List.sum (List.map_congr_left fun e he => ?_)
  obtain ⟨i, event⟩ := e
  cases event with
  | adds key n => simp only [CounterEvent.amount, h i key n he]
  | _ => rfl

theorem added_eq_zero (h : ∀ i key n, (i, .adds key n) ∈ events → p key = false) :
    events.added p = 0 := by
  refine List.sum_eq_zero_iff_forall_eq_nat.mpr fun n hn => ?_
  obtain ⟨⟨i, event⟩, he, rfl⟩ := List.mem_map.mp hn
  cases event with
  | adds key n => simp [CounterEvent.amount, h i key n he]
  | _ => rfl

/-- Where nobody does anything to the counters, what was done stays the same. -/
theorem added_quiet (h : later.Quiet) (p : CounterKey → Bool) :
    added p (events ++ later) = events.added p := by
  have hlater : later.added p = 0 := added_eq_zero fun i key n hadds => Bool.noConfusion (h _ hadds)
  rw [added_append, hlater, Nat.add_zero]

theorem mem_quiet {i : Nat} {event : CounterEvent} (h : later.Quiet)
    (hupdates : event.updates = true) : (i, event) ∈ events ++ later ↔ (i, event) ∈ events := by
  have hnot : (i, event) ∉ later := fun hmem => Bool.noConfusion (hupdates.symm.trans (h _ hmem))
  rw [List.mem_append, or_iff_left hnot]

theorem asked_quiet (h : later.Quiet) : Asked (events ++ later) key ↔ events.Asked key :=
  exists_congr fun _ => mem_quiet h rfl

theorem obtained_quiet (h : later.Quiet) :
    Obtained (events ++ later) key ↔ events.Obtained key :=
  exists_congr fun _ => mem_quiet h rfl

/-- From then on nobody did anything either. -/
theorem quiet_of_between {moment : CounterHistory} (h : later.Quiet) (hmoment : events <+: moment)
    (hnow : moment <+: events ++ later) :
    ∃ part : CounterHistory, moment = events ++ part ∧ part.Quiet := by
  obtain ⟨part, rfl⟩ := hmoment
  have hlater := (List.prefix_append_right_inj events).mp hnow
  exact ⟨part, rfl, fun e he => h e (hlater.subset he)⟩

end CounterHistory

/-! ## Reading -/

/-- The call takes a snapshot of the counters `keys` and has read the counts `read`. -/
inductive CounterCall.Reads : CounterCall → List CounterKey → List (CounterKey × UInt64) → Prop
  | reading {left : List CounterKey} {read : List (CounterKey × UInt64)} :
      Reads (.reading left read) (read.map Prod.fst ++ left) read
  | loading {key : CounterKey} {left : List CounterKey} {read : List (CounterKey × UInt64)} :
      Reads (.loading key left read) (read.map Prod.fst ++ key :: left) read

/-- What a snapshot of `keys` that began after `begun` has read until `now`. -/
structure ReadSince (begun now : CounterHistory) (keys : List CounterKey)
    (read : List (CounterKey × UInt64)) : Prop where
  began : begun <+: now
  ordered : keys.Pairwise fun a b => a.before b
  keys : ∀ key, key ∈ keys ↔ begun.Asked key
  counts : ∀ e ∈ read, ∃ moment : CounterHistory, begun <+: moment ∧ moment <+: now ∧
    e.2 = UInt64.ofNat (moment.added fun k => k.digest = e.1.digest)

theorem ReadSince.mono {begun now : CounterHistory} {keys : List CounterKey}
    {read : List (CounterKey × UInt64)} (h : ReadSince begun now keys read)
    (later : CounterHistory) : ReadSince begun (now ++ later) keys read where
  began := h.began.trans (List.prefix_append ..)
  ordered := h.ordered
  keys := h.keys
  counts e he := by
    obtain ⟨moment, hbegun, hnow, hcount⟩ := h.counts e he
    exact ⟨moment, hbegun, hnow.trans (List.prefix_append ..), hcount⟩

namespace SharedCounters

variable {s s' : SharedCounters} {e : Nat × CounterEvent} {events later begun : CounterHistory}
  {key : CounterKey} {keys : List CounterKey} {read : List (CounterKey × UInt64)} {i : Nat}
  {t : CounterTable}

/-- The keys of a snapshot are those at its beginning. Each step leaves what was read as it is or
reads one more count. -/
theorem Step.reads (h : Step s e s') (hreads : (s'.calls i).Reads keys read) :
    (s.calls i).Reads keys read ∨ keys = s.counters.keys ∧ read = [] ∨
      ∃ key read', (s.calls i).Reads keys read' ∧
        read = read' ++ [(key, s.counters.count key)] := by
  obtain ⟨j, event⟩ := e
  by_cases hi : i = j
  · subst hi
    cases h with
    | asks | obtains | takes =>
      simp only [Function.update_self] at hreads
      cases hreads
    | adds => exact .inl hreads
    | begins =>
      simp only [Function.update_self] at hreads
      cases hreads
      exact .inr (.inl ⟨rfl, rfl⟩)
    | finds hcall =>
      simp only [Function.update_self] at hreads
      cases hreads
      rw [hcall]
      exact .inl .reading
    | @loads _ key left read hcall =>
      simp only [Function.update_self] at hreads
      cases hreads
      rw [hcall]
      refine .inr (.inr ⟨key, read, ?_, rfl⟩)
      rw [List.map_append, List.append_assoc]
      exact .loading
  · rw [h.calls hi] at hreads
    exact .inl hreads

/-- What is returned was read to the end. -/
theorem Step.takes_reads (h : Step s (i, .takes t) s') : (s.calls i).Reads t.keys t.entries := by
  cases h with
  | takes hcall =>
    rw [hcall, CounterTable.keys, ← List.append_nil (List.map ..)]
    exact .reading

/-- What a thread that was idle after `events` has read of its snapshot, at any moment. -/
theorem Run.reading (hs : Run {} events s) (hi : s.calls i = .idle) (h : Run s later s')
    (hreads : (s'.calls i).Reads keys read) :
    ∃ begun : CounterHistory, events <+: begun ∧ ReadSince begun (events ++ later) keys read := by
  induction h generalizing keys read with
  | refl =>
    rw [hi] at hreads
    cases hreads
  | @step later s' s'' e h he ih =>
    rw [← List.append_assoc]
    have hnow := hs.trans h
    rcases he.reads hreads with hold | ⟨rfl, rfl⟩ | ⟨key, read', hold, rfl⟩
    · obtain ⟨begun, hevents, hread⟩ := ih hold
      exact ⟨begun, hevents, hread.mono _⟩
    -- the snapshot begins: its keys are those that were asked for until here
    · refine ⟨events ++ later, List.prefix_append .., List.prefix_append .., ?_, ?_, ?_⟩
      · exact (hnow.sound sound_new).sorted
      · exact fun key => hnow.asked_iff.symm
      · exact fun e he => absurd he List.not_mem_nil
    -- a count is read: here is its moment
    · obtain ⟨begun, hevents, hread⟩ := ih hold
      refine ⟨begun, hevents, { hread.mono [e] with counts := fun e' he' => ?_ }⟩
      rcases List.mem_append.mp he' with he' | he'
      · exact (hread.mono [e]).counts e' he'
      · obtain rfl := List.mem_singleton.mp he'
        refine ⟨events ++ later, hread.began, List.prefix_append .., ?_⟩
        exact hnow.count.trans (UInt64.zero_add _)

/-- What it has read when the snapshot is returned. -/
theorem Run.taken (hs : Run {} events s) (hi : s.calls i = .idle) (h : Run s later s')
    (ht : (i, .takes t) ∈ later) :
    ∃ begun : CounterHistory, events <+: begun ∧
      ReadSince begun (events ++ later) t.keys t.entries := by
  induction h with
  | refl => cases ht
  | @step later s' s'' e h he ih =>
    rw [← List.append_assoc]
    suffices hread : ∃ begun : CounterHistory, events <+: begun ∧
        ReadSince begun (events ++ later) t.keys t.entries by
      obtain ⟨begun, hevents, hread⟩ := hread
      exact ⟨begun, hevents, hread.mono [e]⟩
    rcases List.mem_append.mp ht with ht | ht
    · exact ih ht
    · obtain rfl := List.mem_singleton.mp ht
      exact hs.reading hi h he.takes_reads

end SharedCounters

/-! ## Tables of snapshots -/

/-- A table of a snapshot that began after `begun` and was returned before `now`: it has the
counters that were asked for when it began, each with its count at some moment since. -/
structure CounterTable.ShowsSince (t : CounterTable) (begun now : CounterHistory) : Prop where
  began : begun <+: now
  lists : t.Lists begun.Asked
  counts : ∀ key, now.OwnCell key → begun.Asked key →
    ∃ moment : CounterHistory, begun <+: moment ∧ moment <+: now ∧
      (t.get key).toNat = moment.added (· = key) % 2 ^ 64

/-- A table with all counters that a handle was obtained to, each with the sum of what was added to
it. -/
structure CounterTable.Exact (t : CounterTable) (events : CounterHistory) : Prop where
  lists : t.Lists events.Obtained
  counts : ∀ key, events.OwnCell key → (t.get key).toNat = events.added (· = key) % 2 ^ 64

namespace SharedCounters

variable {s s' : SharedCounters} {events later begun now : CounterHistory} {key : CounterKey}
  {t : CounterTable}

/-- A count that no other counter adds to is the sum of what was added to the counter. -/
theorem Run.added_digest (h : Run {} now s) (hown : now.OwnCell key) {moment : CounterHistory}
    (hmoment : moment <+: now) :
    moment.added (fun k => k.digest = key.digest) = moment.added (· = key) := by
  refine CounterHistory.added_congr fun i k n hadds => ?_
  have hobtained : now.Obtained k := h.obtained_iff.mpr (h.adds (hmoment.subset hadds))
  exact decide_eq_decide.mpr ⟨hown k hobtained, fun hk => hk ▸ rfl⟩

theorem Run.showsSince (h : Run {} now s) (hread : ReadSince begun now t.keys t.entries) :
    t.ShowsSince begun now where
  began := hread.began
  lists := (CounterTable.lists_of_pairwise hread.ordered).congr hread.keys
  counts key hown hasked := by
    obtain ⟨e, he, rfl⟩ := List.mem_map.mp ((hread.keys key).mpr hasked)
    obtain ⟨moment, hbegun, hnow, hcount⟩ := hread.counts e he
    refine ⟨moment, hbegun, hnow, ?_⟩
    rw [CounterTable.get_of_mem (CounterKey.nodup_of_pairwise hread.ordered) he, hcount,
      h.added_digest hown hnow, UInt64.toNat_ofNat']

/-- A snapshot is exact when it begins after everything that is done to the counters. -/
theorem Run.exact (h : Run {} events s) (hcalls : ∀ i key, s.calls i ≠ .asking key)
    (hquiet : later.Quiet) (hbegun : events <+: begun)
    (hshows : t.ShowsSince begun (events ++ later)) : t.Exact events := by
  have htouched : ∀ key, begun.Asked key ↔ events.Obtained key := by
    intro key
    obtain ⟨part, rfl, hpart⟩ := CounterHistory.quiet_of_between hquiet hbegun hshows.began
    rw [CounterHistory.asked_quiet hpart, h.asked_iff_obtained hcalls]
  refine ⟨hshows.lists.congr htouched, fun key hown => ?_⟩
  by_cases hkey : events.Obtained key
  · have hown' : CounterHistory.OwnCell (events ++ later) key := fun key' hkey' =>
      hown key' ((CounterHistory.obtained_quiet hquiet).mp hkey')
    obtain ⟨moment, hmoment, hnow, hcount⟩ := hshows.counts key hown' ((htouched key).mpr hkey)
    obtain ⟨part, rfl, hpart⟩ :=
      CounterHistory.quiet_of_between hquiet (hbegun.trans hmoment) hnow
    rw [hcount, CounterHistory.added_quiet hpart]
  -- nothing is added but through a handle
  · have hnone : events.added (· = key) = 0 := by
      refine CounterHistory.added_eq_zero fun i key' n hadds => decide_eq_false ?_
      rintro rfl
      exact hkey (h.obtained_iff.mpr (h.adds hadds))
    rw [hshows.lists.untouched key (mt (htouched key).mp hkey), hnone]
    rfl

/-- For all threads and all orders of their steps: keys and cells stay in step. Asking for a counter
and adding to it is counting, and a snapshot is a table of the counters, if nobody disturbs the
thread. If others do, a snapshot shows the counters that were asked for when it began, each with its
count at a moment since. If it begins when everything is over that is done to the counters, it shows
exactly that. The snapshots that were returned earlier stay as they are. -/
theorem snapshots_exact (h : Run {} events s) :
    s.Sound ∧
    (∀ i key n, s.calls i = .idle →
      ∃ s', Run s [(i, .asks key), (i, .obtains key), (i, .adds key n)] s' ∧
        s'.counters = s.counters.add key n) ∧
    (∀ i, s.calls i = .idle →
      ∃ later s', Run s later s' ∧ (i, .takes s.counters.table) ∈ later ∧ later.Quiet ∧
        ∀ e ∈ later, e.1 = i) ∧
    ∀ later s', Run s later s' →
      s.snapshots <+: s'.snapshots ∧
      ∀ i t, s.calls i = .idle → (i, .takes t) ∈ later →
        t ∈ s'.snapshots ∧
        (∃ begun : CounterHistory, events <+: begun ∧ t.ShowsSince begun (events ++ later)) ∧
        ((∀ j key, s.calls j ≠ .asking key) → later.Quiet → t.Exact events) := by
  refine ⟨h.sound sound_new, fun i key n hi => run_add hi key n, fun i hi => run_snapshot hi, ?_⟩
  intro later s' hlater
  refine ⟨hlater.snapshots, fun i t hi ht => ?_⟩
  obtain ⟨begun, hbegun, hread⟩ := h.taken hi hlater ht
  have hshows := (h.trans hlater).showsSince hread
  exact ⟨hlater.takes ht, ⟨begun, hbegun, hshows⟩, fun hcalls hquiet =>
    h.exact hcalls hquiet hbegun hshows⟩

/-- Two threads ask for counters at the same time. Both add to one of them, which wraps, while a
third takes a snapshot. -/
def wrapping : CounterHistory :=
  [(0, .asks ⟨"n", "a"⟩), (1, .asks ⟨"n", "b"⟩), (1, .obtains ⟨"n", "b"⟩), (2, .begins),
    (0, .obtains ⟨"n", "a"⟩), (1, .adds ⟨"n", "a"⟩ 2), (2, .finds ⟨"n", "a"⟩),
    (0, .adds ⟨"n", "a"⟩ 0xFFFFFFFFFFFFFFFF), (2, .loads ⟨"n", "a"⟩)]

theorem run_wrapping :
    ∃ s, Run {} wrapping s ∧ s.calls 0 = .idle ∧ ∀ i key, s.calls i ≠ .asking key := by
  refine ⟨_, Run.refl
    |>.step (.asks ⟨"n", "a"⟩ rfl) |>.step (.asks ⟨"n", "b"⟩ rfl) |>.step (.obtains rfl)
    |>.step (.begins rfl) |>.step (.obtains rfl) |>.step (.adds ⟨"n", "a"⟩ 2 rfl (by decide))
    |>.step (.finds rfl) |>.step (.adds ⟨"n", "a"⟩ 0xFFFFFFFFFFFFFFFF rfl (by decide))
    |>.step (.loads rfl), rfl, fun i key => ?_⟩
  simp only [Function.update_apply]
  split_ifs <;> simp

theorem obtained_wrapping (key : CounterKey) :
    wrapping.Obtained key ↔ key = ⟨"n", "a"⟩ ∨ key = ⟨"n", "b"⟩ := by
  simp [CounterHistory.Obtained, wrapping, exists_or, or_comm]

theorem snapshots_exact_wrapping : ∃ s, Run {} wrapping s ∧
    (s.counters.table.get ⟨"n", "a"⟩).toNat = 1 ∧
    ∀ stage, stage ∈ s.counters.table.stages "n" ↔ stage = "a" ∨ stage = "b" := by
  obtain ⟨s, h, hidle, hcalls⟩ := run_wrapping
  obtain ⟨-, -, htake, hsnapshots⟩ := snapshots_exact h
  obtain ⟨later, s', hrun, htakes, hquiet, -⟩ := htake 0 hidle
  obtain ⟨-, -, hexact⟩ := (hsnapshots later s' hrun).2 0 _ hidle htakes
  obtain ⟨hlists, hcounts⟩ := hexact hcalls hquiet
  refine ⟨s, h, (hcounts _ fun key hkey hd => ?_).trans (by decide), fun stage => ?_⟩
  · rcases (obtained_wrapping key).mp hkey with rfl | rfl
    · rfl
    · exact absurd hd (by decide +kernel)
  · rw [hlists.stages, obtained_wrapping, CounterKey.mk.injEq, CounterKey.mk.injEq]
    simp

end SharedCounters

end CheckedFlow
