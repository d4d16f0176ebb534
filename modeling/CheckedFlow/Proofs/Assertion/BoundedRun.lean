import CheckedFlow.Proofs.Build.Assembled
import CheckedFlow.Proofs.Run.Evaluations
import CheckedFlow.Proofs.Run.Parallelism

/-!
# What a bounded run tells of its checks

In a bounded run every check fires once, and a check that fails is a stage that fails: the run ends
there. So the counters of checks tell how far a run came: the checks before the stage that it ended
at count a success each, that stage counts a failure if it runs a check, and the stages behind it
count nothing. This is what a table shows as long as no other counter shares a cell with one of a
check.

* `Operation.Plain.evaluate`, `Stage.RunsCheck.evaluate`: what plain stages and stages that run checks
  are evaluated to; `Evaluated.Fired`: one firing of a check.
* `CounterTable.Apart`: the tables in which the counters of checks share no cell.
* `BoundedRun`: a bounded run of plain stages and checks. `BoundedRun.mem_keys_checks`,
  `BoundedRun.perm_keys`, `BoundedRun.count_eq_one`: the counters of checks that it asks for, how many
  they are, and what they count.
* `CounterTable.Tells`: what the table of such a run tells; `BoundedRun.tells`.
-/

namespace CheckedFlow

variable {options : PipelineOptions} {ss : List Stage} {checks : List NodeId} {stage : Stage}
  {n : NodeId} {e : Evaluated} {g : Graph} {key : CounterKey} {outputs : Outputs} {s : RunState}
  {stop : Option Stop}

/-! ## What a stage does -/

/-- A plain stage counts in no counter of checks. -/
theorem Operation.Plain.evaluate {op : Operation} (h : op.Plain) (hfit : options.FitsTasks)
    {stage counter : String} {amount : UInt64}
    (hmem : .count counter amount ∈ (op.evaluate options stage outputs).effects) :
    ¬ OfChecks counter := by
  rw [Operation.evaluate_effects hfit] at hmem
  cases op with
  | parDo source target input declared doFn =>
    rw [workers] at hmem
    split at hmem
    · cases hmem
    · obtain ⟨effects, heffects, hmem⟩ := List.mem_flatten.mp hmem
      obtain ⟨chunk, -, rfl⟩ := List.mem_map.mp heffects
      obtain ⟨x, -, hx⟩ := runChunk_mem_effects hmem
      exact h _ _ _ _ hx
  | _ => cases hmem

/-- The stage `stage` was evaluated to `e`: the check that it runs was run once, and found `i`. -/
structure Evaluated.Fired (e : Evaluated) (options : PipelineOptions) (stage : Stage)
    (i : Inspection) : Prop where
  /-- The check looked at the views that were found for it, in the global window. -/
  looked : ∃ (body : CheckBody) (declared : List SideInput) (name : String) (trigger : NodeId)
    (found : List (NodeId × Output)), stage = checkStage .propagate body declared name trigger ∧
      i = body (surround options stage.name found (.unstamped ()))
  /-- The stage did what this firing does. -/
  evaluated : e = ⟨(fire .propagate stage.name i).effects,
    (fire .propagate stage.name i).output (k := .unit) stage.name⟩

/-- Behind its trigger and its views, a check is run once in a bounded run. -/
theorem checkStage_fired (hmode : options.runMode = .bounded) (hfit : options.FitsTasks)
    {body : CheckBody} {declared : List SideInput} {name : String} {trigger : NodeId}
    {found : List (NodeId × Output)} (htrigger : outputs[trigger]? = some (firingsOf options))
    (hfound : outputs.sideInputs (name ++ "/RunChecks") declared = .ok found) :
    ((checkStage .propagate body declared name trigger).operation.evaluate options
      (name ++ "/RunChecks") outputs).Fired options
        (checkStage .propagate body declared name trigger)
        (body (surround options (name ++ "/RunChecks") found (.unstamped ()))) := by
  have hstage := checkStage_finds body htrigger hfound
  rw [hmode] at hstage
  exact ⟨⟨body, declared, name, trigger, found, rfl, rfl⟩, hstage.once hmode hfit⟩

/-- A stage that runs a check and is evaluated in a bounded run runs it once. -/
theorem Stage.RunsCheck.evaluate (h : stage.RunsCheck .bounded (ss.take n))
    (hmode : options.runMode = .bounded) (hfit : options.FitsTasks)
    (he : Evaluates options [] ss n stage e) : ∃ i, e.Fired options stage i := by
  obtain ⟨body, declared, name, impulse, trigger, rfl, htrigger, hdeclared⟩ := h
  obtain ⟨s, hrun, rfl⟩ := Evaluates.run (s := { graph := {} }) he
  obtain ⟨o, ho, hfires⟩ := runStages_getElem?
    (P := fun st o => st.operation = .impulse → o = firingsOf options)
    (fun st outputs o ho hop => by
      rw [hop] at ho
      cases ho
      rfl) hrun htrigger
  obtain rfl := hfires rfl
  have houtputs : ∀ v ∈ declared, ∃ o, s.outputs[v.node]? = some o := by
    intro v hv
    have hlt : v.node < s.outputs.length := by
      rw [runStages_length hrun]
      exact Nat.lt_of_lt_of_eq (hdeclared v hv) (Nat.zero_add _).symm
    exact ⟨_, List.getElem?_eq_getElem hlt⟩
  obtain ⟨found, hfound⟩ := Outputs.sideInputs_ok (name ++ "/RunChecks") houtputs
  exact ⟨_, checkStage_fired hmode hfit ho hfound⟩

theorem Evaluated.Fired.counts {i : Inspection} (h : e.Fired options stage i) :
    Effect.counts stage.name e.effects = [(⟨i.counter, stage.name⟩, 1)] := by
  have hnotes : Effect.counts stage.name (i.notes.map fun n => .note n.1 n.2) = [] :=
    List.filterMap_eq_nil_iff.mpr fun eff heff => by
      obtain ⟨m, -, rfl⟩ := List.mem_map.mp heff
      rfl
  rw [h.evaluated, fire_effects]
  simp only [Effect.counts, List.cons_append, List.filterMap_cons, List.filterMap_append] at hnotes ⊢
  rw [hnotes]
  rfl

theorem Evaluated.Fired.result {i : Inspection} (h : e.Fired options stage i) :
    e.result = match i.verdict.failure? with
      | none => .ok (.elements .unit [])
      | some failure => .error (.failed (.stageFailed stage.name (.check failure))) :=
  (congrArg Evaluated.result h.evaluated).trans (fire_output stage.name i)

/-! ## What a run tells of its checks -/

/-- The counter that a check counts in whose stage has the number `n`, if `passed` stages have left
outputs: it passed if it is one of these. -/
def checkCounter (passed n : Nat) : String := if n < passed then successCounter else failureCounter

theorem checkCounter_ofChecks (passed n : Nat) : OfChecks (checkCounter passed n) := by
  unfold checkCounter
  split
  · exact .inl rfl
  · exact .inr rfl

/-- The counter that the check of the stage with the number `n` counts in, by its name and the name of
the stage. -/
def checkKey (ss : List Stage) (passed n : Nat) : CounterKey :=
  ⟨checkCounter passed n, ((ss.map Stage.name)[n]?).getD ""⟩

theorem checkKey_eq {passed : Nat} (hat : ss[n]? = some stage) :
    checkKey ss passed n = ⟨checkCounter passed n, stage.name⟩ := by
  simp [checkKey, hat]

/-- A counter of checks counts successes or failures, not both. -/
theorem countP_ofChecks (keys : List CounterKey) :
    keys.countP (fun k => OfChecks k.counter) =
      keys.countP (fun k => k.counter = successCounter) +
        keys.countP (fun k => k.counter = failureCounter) := by
  have hne : successCounter ≠ failureCounter := by decide
  induction keys with
  | nil => rfl
  | cons k keys ih =>
    have hk : (if decide (OfChecks k.counter) = true then 1 else 0) =
        (if decide (k.counter = successCounter) = true then 1 else 0) +
          if decide (k.counter = failureCounter) = true then 1 else 0 := by
      by_cases hs : k.counter = successCounter
      · simp [OfChecks, hs, hne]
      · simp [OfChecks, hs]
    rw [List.countP_cons, List.countP_cons, List.countP_cons, ih, hk]
    omega

/-- In the table no other counter shares a cell with a counter of checks. -/
def CounterTable.Apart (t : CounterTable) : Prop :=
  ∀ e ∈ t.entries, OfChecks e.1.counter → ∀ e' ∈ t.entries, e'.1.digest = e.1.digest → e'.1 = e.1

instance (t : CounterTable) : Decidable t.Apart :=
  inferInstanceAs (Decidable (∀ e ∈ t.entries, OfChecks e.1.counter → ∀ e' ∈ t.entries,
    e'.1.digest = e.1.digest → e'.1 = e.1))

theorem CounterTable.Apart.alone {c : Counters} (h : c.table.Apart) (hmem : key ∈ c.keys)
    (hkey : OfChecks key.counter) : c.Alone key :=
  fun _ hk hd => h _ (List.mem_map_of_mem hmem) hkey _ (List.mem_map_of_mem hk) hd

/-- A bounded run of `ss`, which ends in the state `s` by `stop`. -/
structure BoundedRun (options : PipelineOptions) (ss : List Stage) (checks : List NodeId) (g : Graph)
    (s : RunState) (stop : Option Stop) : Prop where
  mode : options.runMode = .bounded
  fits : options.FitsTasks
  names : (ss.map Stage.name).Nodup
  stages : Assembled .bounded ss checks
  run : runStages options ss { graph := g } = (s, stop)

namespace BoundedRun

variable (h : BoundedRun options ss checks g s stop)

include h

/-- Stages with the same name have the same number. -/
theorem number_eq {m : Nat} {stage' : Stage} (hn : ss[n]? = some stage) (hm : ss[m]? = some stage')
    (hname : stage.name = stage'.name) : n = m := by
  have hlt : n < (ss.map Stage.name).length := by
    rw [List.length_map]
    exact (List.getElem?_eq_some_iff.mp hn).1
  refine (List.getElem?_inj hlt h.names).mp ?_
  rw [List.getElem?_map, List.getElem?_map, hn, hm]
  exact congrArg some hname

/-- A stage that the run got to was evaluated. -/
theorem evaluated (hat : ss[n]? = some stage) (hle : n ≤ s.outputs.length) :
    ∃ e, Evaluates options [] ss n stage e := by
  obtain ⟨stage', e, he⟩ := @runStages_evaluated options ss n { graph := g }
    (List.getElem?_eq_some_iff.mp hat).1
    (by rw [h.run]; exact Nat.le_trans (Nat.le_of_eq (Nat.zero_add n)) hle)
  cases hat.symm.trans he.getElem?
  exact ⟨e, he⟩

theorem le (he : Evaluates options [] ss n stage e) : n ≤ s.outputs.length := by
  simpa [h.run] using Evaluates.le (s := { graph := g }) he

theorem passed {o : Output} (he : Evaluates options [] ss n stage e) (hr : e.result = .ok o) :
    n < s.outputs.length := by
  simpa [h.run] using Evaluates.passed (s := { graph := g }) he hr

theorem failed {stop' : Stop} (he : Evaluates options [] ss n stage e)
    (hr : e.result = .error stop') : stop = some stop' ∧ s.outputs.length = n := by
  simpa [h.run] using runStages_failed (s := { graph := g }) he hr

/-- A check that passed is one of the stages with outputs, and one that failed ended the run. -/
theorem counter_eq {i : Inspection} (he : Evaluates options [] ss n stage e)
    (hi : e.Fired options stage i) : i.counter = checkCounter s.outputs.length n := by
  have hresult := hi.result
  cases hf : i.verdict.failure? with
  | none =>
    rw [hf] at hresult
    rw [checkCounter, if_pos (h.passed he hresult), Inspection.counter, Inspection.passes, hf]
    rfl
  | some failure =>
    rw [hf] at hresult
    have hn := (h.failed he hresult).2
    rw [checkCounter, if_neg (Nat.not_lt_of_le (Nat.le_of_eq hn)), Inspection.counter,
      Inspection.passes, hf]
    rfl

/-- A check stage that was evaluated fired once. -/
theorem fired (hn : n ∈ checks) (he : Evaluates options [] ss n stage e) :
    ∃ i, e.Fired options stage i := by
  rcases h.stages.getElem?_cases he.getElem? with ⟨-, hruns⟩ | ⟨hnot, -⟩
  · exact hruns.evaluate h.mode h.fits he
  · exact absurd hn hnot

/-- The check of a stage that the run got to fired once. -/
theorem reached (hn : n ∈ checks) (hat : ss[n]? = some stage) (hle : n ≤ s.outputs.length) :
    ∃ e i, Evaluates options [] ss n stage e ∧ e.Fired options stage i ∧
      i.counter = checkCounter s.outputs.length n := by
  obtain ⟨e, he⟩ := h.evaluated hat hle
  obtain ⟨i, hi⟩ := h.fired hn he
  exact ⟨e, i, he, hi, h.counter_eq he hi⟩

/-- A counter that was asked for is one of an evaluated stage. -/
theorem mem_keys : key ∈ s.counters.keys ↔ ∃ n stage e, Evaluates options [] ss n stage e ∧
    ∃ amount, (key, amount) ∈ Effect.counts stage.name e.effects := by
  have hkeys := @runStages_mem_keys options ss { graph := g } key
  rw [h.run] at hkeys
  exact hkeys.trans (or_iff_right (List.not_mem_nil))

/-- The counters of checks that were asked for are those of the checks that were evaluated. -/
theorem mem_keys_checks (hkey : OfChecks key.counter) :
    key ∈ s.counters.keys ↔ ∃ n ∈ checks, ∃ stage, ss[n]? = some stage ∧ n ≤ s.outputs.length ∧
      key = ⟨checkCounter s.outputs.length n, stage.name⟩ := by
  rw [h.mem_keys]
  constructor
  · rintro ⟨n, stage, e, he, amount, hmem⟩
    by_cases hn : n ∈ checks
    · obtain ⟨i, hi⟩ := h.fired hn he
      rw [hi.counts, List.mem_singleton] at hmem
      cases hmem
      exact ⟨n, hn, stage, he.getElem?, h.le he, by rw [h.counter_eq he hi]⟩
    · rcases h.stages.getElem?_cases he.getElem? with ⟨hmem', -⟩ | ⟨-, hplain⟩
      · exact absurd hmem' hn
      · obtain ⟨s₁, -, rfl⟩ := Evaluates.run (s := { graph := g }) he
        exact absurd hkey (hplain.evaluate h.fits (Effect.mem_counts.mp hmem).2)
  · rintro ⟨n, hn, stage, hat, hle, rfl⟩
    obtain ⟨e, i, he, hi, hcounter⟩ := h.reached hn hat hle
    refine ⟨n, stage, e, he, 1, ?_⟩
    rw [hi.counts, hcounter]
    exact List.mem_singleton_self _

/-- A counter of a check that was asked for counts one, if it is alone in its cell. -/
theorem count_eq_one (hkey : OfChecks key.counter) (hmem : key ∈ s.counters.keys)
    (halone : s.counters.Alone key) : s.counters.count key = 1 := by
  obtain ⟨n, hn, stage, hat, hle, rfl⟩ := (h.mem_keys_checks hkey).mp hmem
  obtain ⟨e, i, he, hi, hcounter⟩ := h.reached hn hat hle
  have hcounts := hi.counts
  rw [hcounter] at hcounts
  have hstill := runStages_count (s := { graph := g }) h.names he rfl hcounts
    (Counters.still_empty _)
  rw [h.run] at hstill
  exact (hstill halone).trans (UInt64.zero_add 1)

/-- Which of its counters a check asks for. -/
theorem mem_keys_check (hn : n ∈ checks) (hat : ss[n]? = some stage) {counter : String}
    (hcounter : OfChecks counter) :
    ⟨counter, stage.name⟩ ∈ s.counters.keys ↔
      n ≤ s.outputs.length ∧ counter = checkCounter s.outputs.length n := by
  have hkey : OfChecks (CounterKey.mk counter stage.name).counter := hcounter
  rw [h.mem_keys_checks hkey]
  constructor
  · rintro ⟨m, -, stage', hat', hle, hkey⟩
    obtain ⟨rfl, hname⟩ := CounterKey.mk.inj hkey
    obtain rfl := h.number_eq hat hat' hname
    exact ⟨hle, rfl⟩
  · rintro ⟨hle, rfl⟩
    exact ⟨n, hn, stage, hat, hle, rfl⟩

/-- What the table of the run shows of a check. -/
theorem get_eq (hapart : s.counters.table.Apart) (hn : n ∈ checks) (hat : ss[n]? = some stage) :
    s.counters.table.get ⟨successCounter, stage.name⟩ =
        (if n < s.outputs.length then 1 else 0) ∧
      s.counters.table.get ⟨failureCounter, stage.name⟩ =
        if n = s.outputs.length then 1 else 0 := by
  have hget {counter : String} (hcounter : OfChecks counter) :
      s.counters.table.get ⟨counter, stage.name⟩ =
        if n ≤ s.outputs.length ∧ counter = checkCounter s.outputs.length n then 1 else 0 := by
    rw [Counters.table_get]
    refine if_ctx_congr (h.mem_keys_check hn hat hcounter) (fun hmem => ?_) fun _ => rfl
    have hkey := (h.mem_keys_check hn hat hcounter).mpr hmem
    exact h.count_eq_one hcounter hkey (hapart.alone hkey hcounter)
  have hne : successCounter ≠ failureCounter := by decide
  rw [hget (.inl rfl), hget (.inr rfl), checkCounter]
  rcases Nat.lt_trichotomy n s.outputs.length with hlt | heq | hgt
  · simp [hlt, Nat.le_of_lt hlt, Nat.ne_of_lt hlt, hne.symm]
  · simp [heq, hne]
  · simp [Nat.not_le_of_lt hgt, Nat.not_lt_of_lt hgt, Nat.ne_of_gt hgt]

theorem sorted : s.counters.Sorted := by
  have hall := @runStages_counters options Counters.Sorted ss { graph := g }
    (fun c counter amount stage _ hc => hc.add ⟨counter, stage.name⟩ amount)
    Counters.sorted_empty
  rwa [h.run] at hall

/-- The counters of checks that were asked for, by the stages that the run got to. -/
theorem perm_keys :
    (s.counters.keys.filter fun k => OfChecks k.counter).Perm
      ((checks.filter fun n => n ≤ s.outputs.length).map (checkKey ss s.outputs.length)) := by
  have hat {n : NodeId} (hn : n ∈ checks) : ∃ stage, ss[n]? = some stage :=
    ⟨_, List.getElem?_eq_getElem (h.stages.lt hn)⟩
  have hreached {n : NodeId} (hn : n ∈ checks.filter fun n => n ≤ s.outputs.length) :
      n ∈ checks ∧ n ≤ s.outputs.length := by simpa using hn
  have hnodup : ((checks.filter fun n => n ≤ s.outputs.length).map
      (checkKey ss s.outputs.length)).Nodup := by
    refine List.Nodup.map_on (fun n hn m hm hkey => ?_) (h.stages.nodup.filter _)
    obtain ⟨stage, hn⟩ := hat (hreached hn).1
    obtain ⟨stage', hm⟩ := hat (hreached hm).1
    rw [checkKey_eq hn, checkKey_eq hm] at hkey
    exact h.number_eq hn hm (CounterKey.mk.inj hkey).2
  refine (List.perm_ext_iff_of_nodup ((CounterKey.nodup_of_pairwise h.sorted).filter _)
    hnodup).mpr fun key => ?_
  rw [List.mem_filter, List.mem_map, decide_eq_true_eq]
  constructor
  · rintro ⟨hkey, hcounter⟩
    obtain ⟨n, hn, stage, hat, hle, rfl⟩ := (h.mem_keys_checks hcounter).mp hkey
    exact ⟨n, List.mem_filter.mpr ⟨hn, decide_eq_true hle⟩, checkKey_eq hat⟩
  · rintro ⟨n, hn, rfl⟩
    obtain ⟨hn, hle⟩ := hreached hn
    obtain ⟨stage, hstage⟩ := hat hn
    rw [checkKey_eq hstage]
    exact ⟨(h.mem_keys_check hn hstage (checkCounter_ofChecks _ _)).mpr ⟨hle, rfl⟩,
      checkCounter_ofChecks _ _⟩

/-- As many counters of checks were asked for as the run got to checks. -/
theorem countP_keys :
    s.counters.keys.countP (fun k => OfChecks k.counter) =
      checks.countP (fun n => n ≤ s.outputs.length) := by
  rw [List.countP_eq_length_filter, h.perm_keys.length_eq, List.length_map,
    List.countP_eq_length_filter]

/-- The successes and failures of a run are as many as the checks that it got to. -/
theorem total_eq (hapart : s.counters.table.Apart) :
    s.counters.table.total successCounter + s.counters.table.total failureCounter =
      UInt64.ofNat (checks.countP fun n => n ≤ s.outputs.length) := by
  have hone {counter : String} (hcounter : OfChecks counter) :
      ∀ key ∈ s.counters.keys, key.counter = counter → s.counters.count key = 1 := by
    rintro key hkey rfl
    exact h.count_eq_one hcounter hkey (hapart.alone hkey hcounter)
  rw [Counters.total_of_ones (hone (.inl rfl)), Counters.total_of_ones (hone (.inr rfl)),
    ← UInt64.ofNat_add, ← countP_ofChecks, h.countP_keys]

/-- No stage behind the one that the run ended at has a counter. -/
theorem stage_ne (hkey : key ∈ s.counters.keys) (hat : ss[n]? = some stage)
    (hn : s.outputs.length < n) : key.stage ≠ stage.name := by
  obtain ⟨m, stage', e, he, amount, hmem⟩ := h.mem_keys.mp hkey
  rw [(Effect.mem_counts.mp hmem).1]
  intro hname
  obtain rfl := h.number_eq he.getElem? hat hname
  exact absurd hn (Nat.not_lt_of_le (h.le he))

end BoundedRun

/-! ## Reports -/

/-- What the table of a run of `ss`, whose first `passed` stages left outputs, tells of the checks
with the numbers `checks`. -/
structure CounterTable.Tells (t : CounterTable) (passed : Nat) (options : PipelineOptions)
    (ss : List Stage) (checks : List NodeId) : Prop where
  /-- No stage behind the one that the run ended at has a counter. -/
  later : ∀ entry ∈ t.entries, ∀ n stage, passed < n → ss[n]? = some stage →
    entry.1.stage ≠ stage.name
  /-- The checks of the stages up to that one were run, and no others. -/
  fired : ∀ n ∈ checks, ∀ stage, ss[n]? = some stage → (n ≤ passed ↔
    ∃ e i, Evaluates options [] ss n stage e ∧ e.Fired options stage i)
  /-- A check that was run has one counter: that of successes, or that of failures if its stage is the
  one that the run ended at. -/
  counters : ∀ n ∈ checks, ∀ stage, ss[n]? = some stage → ∀ counter, OfChecks counter →
    ((∃ count, (⟨counter, stage.name⟩, count) ∈ t.entries) ↔
      n ≤ passed ∧ counter = if n < passed then successCounter else failureCounter)
  /-- It counts one. -/
  counts : t.Apart → ∀ n ∈ checks, ∀ stage, ss[n]? = some stage →
    t.get ⟨successCounter, stage.name⟩ = (if n < passed then 1 else 0) ∧
    t.get ⟨failureCounter, stage.name⟩ = if n = passed then 1 else 0
  /-- Successes and failures are as many as checks were run. -/
  total : t.Apart → t.total successCounter + t.total failureCounter =
    UInt64.ofNat (checks.countP fun n => n ≤ passed)

theorem BoundedRun.tells (h : BoundedRun options ss checks g s stop) :
    s.counters.table.Tells s.outputs.length options ss checks where
  later entry hentry n stage hn hat := by
    obtain ⟨key, hkey, rfl⟩ := List.mem_map.mp hentry
    exact h.stage_ne hkey hat hn
  fired n hn stage hat := by
    refine ⟨fun hle => ?_, fun ⟨e, i, he, hi⟩ => h.le he⟩
    obtain ⟨e, i, he, hi, -⟩ := h.reached hn hat hle
    exact ⟨e, i, he, hi⟩
  counters n hn stage hat counter hcounter := by
    refine Iff.trans ?_ (h.mem_keys_check hn hat hcounter)
    simp [Counters.table]
  counts hapart n hn stage hat := h.get_eq hapart hn hat
  total := h.total_eq

end CheckedFlow
