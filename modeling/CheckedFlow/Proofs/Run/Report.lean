import CheckedFlow.Proofs.Counter.Order
import CheckedFlow.Proofs.Run.Stages

/-!
# What a run reports

A run reports the failure of the stage that ended it and a table of the counters that its stages
asked for.

* `Pipeline.run_done`, `Pipeline.run_failure`: the run that a report is of; `Pipeline.run_ok`,
  `Pipeline.run_failed`: the report of a run.
* `Effect.counts`, `RunState.applyAll_counts`: what effects add to the counters.
* `runStages_counters`: what adding to counters of the stages keeps, a run keeps.
* `runStages_keys`, `runStages_count_zero`: the counters that were asked for are those of the
  stages, and only their cells count.
-/

namespace CheckedFlow

variable {p : Pipeline} {g : Graph} {options : PipelineOptions} {key : CounterKey}

/-! ## Reports -/

/-- A report without a failure is of a run that got to the end of all stages. -/
theorem Pipeline.run_done {r : RunReport} (h : (p.run g).1 = some r) (hr : r.failure = none) :
    ∃ s, runStages p.options g.stages { graph := g } = (s, none) ∧
      r.counters = s.counters.table := by
  simp only [Pipeline.run] at h
  split at h
  · rename_i hstop
    cases h
    exact ⟨_, Prod.ext rfl hstop, rfl⟩
  · cases h
    cases hr
  · cases h

/-- A report of a failure is of a run that a stage ended with it. -/
theorem Pipeline.run_failure {r : RunReport} {e : PipelineError} (h : (p.run g).1 = some r)
    (hr : r.failure = some e) :
    ∃ s, runStages p.options g.stages { graph := g } = (s, some (.failed e)) := by
  simp only [Pipeline.run] at h
  split at h
  · cases h
    cases hr
  · rename_i hstop
    cases h
    cases hr
    exact ⟨_, Prod.ext rfl hstop⟩
  · cases h

/-- A run that gets to the end of all stages reports no failure. -/
theorem Pipeline.run_ok {s : RunState}
    (h : runStages p.options g.stages { graph := g } = (s, none)) :
    ∃ r, (p.run g).1 = some r ∧ r.failure = none ∧ r.counters = s.counters.table := by
  simp only [Pipeline.run, h]
  exact ⟨_, rfl, rfl, rfl⟩

/-- A run that a stage ends reports the failure of that stage. -/
theorem Pipeline.run_failed {s : RunState} {e : PipelineError}
    (h : runStages p.options g.stages { graph := g } = (s, some (.failed e))) :
    ∃ r, (p.run g).1 = some r ∧ r.failure = some e := by
  simp only [Pipeline.run, h]
  exact ⟨_, rfl, rfl⟩

/-! ## Counters of a run -/

/-- What some effects of the stage `stage` count. -/
def Effect.counts (stage : String) (es : List Effect) : List (CounterKey × UInt64) :=
  es.filterMap fun
    | .count counter amount => some (⟨counter, stage⟩, amount)
    | _ => none

theorem Effect.mem_counts {stage : String} {es : List Effect} {amount : UInt64} :
    (key, amount) ∈ counts stage es ↔ key.stage = stage ∧ .count key.counter amount ∈ es := by
  rw [counts, List.mem_filterMap]
  constructor
  · rintro ⟨e, he, hkey⟩
    split at hkey
    · cases hkey
      exact ⟨rfl, he⟩
    · cases hkey
  · rintro ⟨rfl, he⟩
    exact ⟨_, he, rfl⟩

theorem RunState.applyAll_counts (stage : String) (s : RunState) (es : List Effect) :
    (s.applyAll stage es).counters = s.counters.addAll (Effect.counts stage es) := by
  induction es generalizing s with
  | nil => rfl
  | cons e es ih =>
    refine (ih (s.apply stage e)).trans ?_
    cases e <;> rfl

section Counters

variable {Q : Counters → Prop}

/-- What adding to a counter of the stage keeps, the effects of the stage keep. -/
theorem RunState.applyAll_counters {stage : String} {s : RunState} {es : List Effect}
    (hadd : ∀ c counter amount, Q c → Q (c.add ⟨counter, stage⟩ amount)) (h : Q s.counters) :
    Q (s.applyAll stage es).counters := by
  induction es generalizing s with
  | nil => exact h
  | cons e es ih =>
    refine ih (s := s.apply stage e) ?_
    cases e with
    | count counter amount => exact hadd _ _ _ h
    | enter state => exact h
    | note label value => exact h

/-- What adding to counters of the stages keeps, a run of the stages keeps. -/
theorem runStages_counters {ss : List Stage} {s : RunState}
    (hadd : ∀ c counter amount, ∀ stage ∈ ss, Q c → Q (c.add ⟨counter, stage.name⟩ amount))
    (h : Q s.counters) : Q (runStages options ss s).1.counters := by
  induction ss generalizing s with
  | nil => exact h
  | cons stage ss ih =>
    have hstage : Q (s.applyAll stage.name
        (stage.operation.evaluate options stage.name s.outputs).effects).counters :=
      RunState.applyAll_counters
        (fun c counter amount => hadd c counter amount stage List.mem_cons_self) h
    have hss : ∀ c counter amount, ∀ stage ∈ ss, Q c → Q (c.add ⟨counter, stage.name⟩ amount) :=
      fun c counter amount stage' hs => hadd c counter amount stage' (List.mem_cons_of_mem _ hs)
    simp only [runStages]
    split
    · exact ih hss hstage
    · exact hstage

end Counters

variable {ss : List Stage} {s : RunState} {stop : Option Stop}

/-- A counter that was asked for is one of a stage of the run. -/
theorem runStages_keys (h : runStages options ss { graph := g } = (s, stop))
    (hk : key ∈ s.counters.keys) : key.stage ∈ ss.map Stage.name := by
  have hall := @runStages_counters options (fun c => ∀ k ∈ c.keys, k.stage ∈ ss.map Stage.name) ss
    { graph := g } ?_ (by simp [Counters.empty])
  · rw [h] at hall
    exact hall key hk
  · intro c counter amount stage hs hc k hk
    rcases Counters.mem_keys_add.mp hk with rfl | hk
    · exact List.mem_map_of_mem hs
    · exact hc k hk

/-- A cell that no counter of the run uses counts nothing. -/
theorem runStages_count_zero (h : runStages options ss { graph := g } = (s, stop))
    (hk : ∀ k ∈ s.counters.keys, k.digest ≠ key.digest) : s.counters.count key = 0 := by
  have hall := @runStages_counters options
    (fun c => ∀ key, (∀ k ∈ c.keys, k.digest ≠ key.digest) → c.count key = 0) ss
    { graph := g } ?_ (fun _ _ => rfl)
  · rw [h] at hall
    exact hall key hk
  · intro c counter amount stage _ hc key hk
    have hne := hk _ (Counters.mem_keys_add.mpr (.inl rfl))
    rw [Counters.count_add, if_neg (Ne.symm hne)]
    exact hc key fun k hk' => hk k (Counters.mem_keys_add.mpr (.inr hk'))

end CheckedFlow
