import CheckedFlow.Proofs.Check.Accounting
import CheckedFlow.Proofs.Counter.Order
import CheckedFlow.Proofs.Run.Sequential
import CheckedFlow.Proofs.Run.Report

/-!
# Parallelism does not show

The workers of a stage take turns in any order, and how many there are is a matter of the options.
Two runs of the same stages, with different numbers of workers that take turns differently, still
stop at the same stage with the same error and leave the same outputs; and if they get to the end,
they report the same counters. A stage that fails may count differently.

* `Operation.workers`: the effects that each worker of a stage has to do.
* `Schedule`: a run of stages whose workers take turns in some order. `schedule_runStages`: the
  executed run is one of these.
* `Operation.IgnoresParallelism`: the stage's function does not look at the number of workers.
* `Schedule.parallelism`: two schedules with different numbers of workers.
* `parallelism_invisible`: a stage leaves what its elements come to one at a time, and the reports
  of two runs agree.
-/

namespace CheckedFlow

variable {options : PipelineOptions} {n : UInt64}

/-! ## Workers of a stage -/

/-- The same options with another number of workers. -/
def PipelineOptions.withParallelism (o : PipelineOptions) (n : UInt64) : PipelineOptions :=
  { o with parallelism := n }

/-- What the stage reads: its elements and its declared views. -/
def Outputs.inputs (outputs : Outputs) (k : Kind) (input : NodeId) (declared : List SideInput)
    (stage : String) : Except PipelineError (List (Windowed k.Value) × List (NodeId × Output)) := do
  let items ← outputs.elements k input stage
  return (items, ← outputs.sideInputs stage declared)

theorem evaluate_parDo {source target : Kind} {input : NodeId} {declared : List SideInput}
    {doFn : DoFn source.Value target.Value} (options : PipelineOptions) (stage : String)
    (outputs : Outputs) :
    (Operation.parDo source target input declared doFn).evaluate options stage outputs =
      match outputs.inputs source input declared stage with
      | .error e => .pure (.error e)
      | .ok (items, sideInputs) => evaluateParDo options stage doFn sideInputs items := rfl

/-- The effects that the workers of a stage have to do, each in its order. Only a stage that
processes elements has workers. -/
def Operation.workers (options : PipelineOptions) (stage : String) (outputs : Outputs) :
    Operation → List (List Effect)
  | parDo source _ input declared doFn =>
    match outputs.inputs source input declared stage with
    | .error _ => []
    | .ok (items, sideInputs) =>
      (chunksOf (chunkSize items.length (max options.parallelism.toNat 1)) items).map fun chunk =>
        (runChunk (fun x => doFn (surround options stage sideInputs x) x.value) chunk).effects
  | _ => []

/-- The effects of an evaluated stage are those of its workers. -/
theorem Operation.evaluate_effects (hfit : options.FitsTasks) (op : Operation) (stage : String)
    (outputs : Outputs) :
    (op.evaluate options stage outputs).effects = (op.workers options stage outputs).flatten := by
  have hpure (r : Except PipelineError Output) : (Evaluated.pure r).effects = [] := by
    cases r <;> rfl
  cases op with
  | parDo source target input declared doFn =>
    rw [evaluate_parDo, workers]
    cases outputs.inputs source input declared stage with
    | error e => rfl
    | ok inputs =>
      simp only [evaluateParDo_fits hfit, processInChunks, joinChunks_effects, List.flatMap_def,
        List.map_map]
      rfl
  | _ => exact hpure _

/-- The stage's function does not look at the number of workers. -/
def Operation.IgnoresParallelism : Operation → Prop
  | parDo _ _ _ _ doFn =>
    ∀ s x n, doFn { s with options := s.options.withParallelism n } x = doFn s x
  | _ => True

/-- The number of workers shows neither in the output of a stage or its error, nor in what a stage
with an output does. -/
theorem Operation.evaluate_parallelism {op : Operation} (hop : op.IgnoresParallelism)
    (hfit : options.FitsTasks) (hfit' : (options.withParallelism n).FitsTasks) (stage : String)
    (outputs : Outputs) :
    let e := op.evaluate options stage outputs
    let e' := op.evaluate (options.withParallelism n) stage outputs
    e'.result = e.result ∧ (∀ o, e.result = .ok o → e'.effects = e.effects) := by
  cases op with
  | parDo source target input declared doFn =>
    simp only [evaluate_parDo]
    cases outputs.inputs source input declared stage with
    | error e => exact ⟨rfl, nofun⟩
    | ok inputs =>
      obtain ⟨items, sideInputs⟩ := inputs
      have hf : ∀ x ∈ items,
          doFn (surround (options.withParallelism n) stage sideInputs x) x.value =
            doFn (surround options stage sideInputs x) x.value :=
        fun x _ => hop (surround options stage sideInputs x) x.value n
      refine ⟨?_, fun o ho => ?_⟩
      · simp only [evaluateParDo_fits hfit, evaluateParDo_fits hfit', processInChunks_congr _ hf,
          Processed.output_eq, processInChunks_report]
      · obtain ⟨hdone, -⟩ := evaluateParDo_ok ho
        simp only [evaluateParDo_fits hfit, evaluateParDo_fits hfit', processInChunks_congr _ hf,
          processInChunks_done hdone]
  | _ => exact ⟨rfl, fun _ _ => rfl⟩

/-- If the workers' tasks can be listed, no stage takes the run down. -/
theorem Operation.evaluate_ne_crashed (hfit : options.FitsTasks) (op : Operation) (stage : String)
    (outputs : Outputs) : (op.evaluate options stage outputs).result ≠ .error .crashed := by
  have hpure (r : Except PipelineError Output) : (Evaluated.pure r).result ≠ .error .crashed := by
    cases r <;> nofun
  cases op with
  | parDo source target input declared doFn =>
    rw [evaluate_parDo]
    split
    · exact hpure _
    · simp only [evaluateParDo_fits hfit, Processed.output_eq]
      cases Processed.report stage _ <;> nofun
  | _ => exact hpure _

/-! ## Counting in another order -/

/-- The same effects in another order leave counters that agree. -/
theorem RunState.applyAll_agree {stage : String} {s s' : RunState} {es es' : List Effect}
    (hp : es.Perm es') (h : s.counters.Agree s'.counters) :
    (s.applyAll stage es).counters.Agree (s'.applyAll stage es').counters := by
  rw [applyAll_counts, applyAll_counts]
  exact (h.addAll _).trans (Counters.agree_addAll (hp.filterMap _))

/-! ## Runs of stages -/

/-- A run of stages from a state to another, in which the workers of every stage take turns in some
order. It gets to the end, or a stage stops it. -/
inductive Schedule (options : PipelineOptions) :
    List Stage → RunState → RunState → Option Stop → Prop
  | finished (s : RunState) : Schedule options [] s s none
  | next {stage : Stage} {ss : List Stage} {s s' : RunState} {stop : Option Stop}
      {trace : List Effect} {t : Team RunState Effect} {o : Output}
      (hrun : Team.Run (RunState.apply stage.name)
        ⟨stage.operation.workers options stage.name s.outputs, s⟩ trace t)
      (hend : t.Finished)
      (hresult : (stage.operation.evaluate options stage.name s.outputs).result = .ok o)
      (hrest : Schedule options ss { t.state with outputs := t.state.outputs ++ [o] } s' stop) :
      Schedule options (stage :: ss) s s' stop
  | stopped {stage : Stage} {ss : List Stage} {s : RunState} {trace : List Effect}
      {t : Team RunState Effect} {stop : Stop}
      (hrun : Team.Run (RunState.apply stage.name)
        ⟨stage.operation.workers options stage.name s.outputs, s⟩ trace t)
      (hend : t.Finished)
      (hresult : (stage.operation.evaluate options stage.name s.outputs).result = .error stop) :
      Schedule options (stage :: ss) s t.state (some stop)

/-- The run in which one worker works after the other is the executed one. -/
theorem schedule_runStages (hfit : options.FitsTasks) (ss : List Stage) (s : RunState) :
    Schedule options ss s (runStages options ss s).1 (runStages options ss s).2 := by
  induction ss generalizing s with
  | nil => exact .finished s
  | cons stage ss ih =>
    obtain ⟨t, hrun, hend⟩ : ∃ t, Team.Run (RunState.apply stage.name)
        ⟨stage.operation.workers options stage.name s.outputs, s⟩ _ t ∧ t.Finished :=
      Team.Run.sequential ..
    have hstate : t.state = s.applyAll stage.name
        (stage.operation.evaluate options stage.name s.outputs).effects := by
      rw [hrun.state, Operation.evaluate_effects hfit]
      rfl
    simp only [runStages, ← hstate]
    split
    · exact .next hrun hend ‹_› (ih _)
    · exact .stopped hrun hend ‹_›

namespace Schedule

variable {ss : List Stage} {s s' : RunState} {stop : Option Stop}

/-- The keys of the counters stay in order. -/
theorem sorted (h : Schedule options ss s s' stop) (hs : s.counters.Sorted) :
    s'.counters.Sorted := by
  have hteam : ∀ {stage : String} {workers : List (List Effect)} {s : RunState}
      {trace : List Effect} {t : Team RunState Effect},
      Team.Run (RunState.apply stage) ⟨workers, s⟩ trace t → s.counters.Sorted →
        t.state.counters.Sorted := by
    intro stage workers s trace t hrun hs
    rw [hrun.state]
    exact RunState.applyAll_counters (Q := Counters.Sorted)
      (fun _ counter amount hc => hc.add ⟨counter, stage⟩ amount) hs
  induction h with
  | finished => exact hs
  | next hrun _ _ _ ih => exact ih (hteam hrun hs)
  | stopped hrun => exact hteam hrun hs

/-- The effects of a stage that any two teams of workers did, in any two orders. -/
theorem team_agree {stage : String} {workers workers' : List (List Effect)} {s₁ s₂ : RunState}
    {trace trace' : List Effect} {t t' : Team RunState Effect}
    (hrun : Team.Run (RunState.apply stage) ⟨workers, s₁⟩ trace t) (hend : t.Finished)
    (hrun' : Team.Run (RunState.apply stage) ⟨workers', s₂⟩ trace' t') (hend' : t'.Finished)
    (hsame : workers.flatten = workers'.flatten) (hc : s₁.counters.Agree s₂.counters) :
    t.state.counters.Agree t'.state.counters := by
  rw [hrun.state, hrun'.state]
  have hp : trace.Perm trace' := by
    have h := hrun.perm hend
    rw [hsame] at h
    exact h.trans (hrun'.perm hend').symm
  exact RunState.applyAll_agree hp hc

theorem team_outputs {stage : String} {workers : List (List Effect)} {trace : List Effect}
    {t : Team RunState Effect} (hrun : Team.Run (RunState.apply stage) ⟨workers, s⟩ trace t) :
    t.state.outputs = s.outputs := by
  rw [hrun.state]
  exact RunState.applyAll_outputs ..

/-- Schedules with different numbers of workers stop at the same stage for the same reason, leave
the same outputs and, if they get to the end, counters that agree. -/
theorem parallelism {s₁ s₂ s₁' s₂' : RunState} {stop₁ stop₂ : Option Stop}
    (hops : ∀ stage ∈ ss, stage.operation.IgnoresParallelism) (hfit : options.FitsTasks)
    (hfit' : (options.withParallelism n).FitsTasks) (h₁ : Schedule options ss s₁ s₁' stop₁)
    (h₂ : Schedule (options.withParallelism n) ss s₂ s₂' stop₂) (ho : s₁.outputs = s₂.outputs)
    (hc : s₁.counters.Agree s₂.counters) :
    stop₁ = stop₂ ∧ s₁'.outputs = s₂'.outputs ∧
      (stop₁ = none → s₁'.counters.Agree s₂'.counters) := by
  induction h₁ generalizing s₂ with
  | finished =>
    cases h₂
    exact ⟨rfl, ho, fun _ => hc⟩
  | @next stage ss s₁ s₁' stop₁ trace t o hrun hend hresult _ ih =>
    obtain ⟨hsame, heffects⟩ := Operation.evaluate_parallelism (n := n)
      (hops stage List.mem_cons_self) hfit hfit' stage.name s₁.outputs
    cases h₂ with
    | next hrun' hend' hresult' hrest' =>
      rw [← ho] at hrun' hresult'
      rw [hsame, hresult] at hresult'
      cases hresult'
      have hflat := heffects o hresult
      rw [Operation.evaluate_effects hfit', Operation.evaluate_effects hfit] at hflat
      refine ih (fun st hst => hops st (List.mem_cons_of_mem stage hst)) hrest' ?_
        (team_agree hrun hend hrun' hend' hflat.symm hc)
      exact congrArg (· ++ [o])
        ((team_outputs hrun).trans (ho.trans (team_outputs hrun').symm))
    | stopped _ _ hresult' =>
      rw [← ho, hsame, hresult] at hresult'
      cases hresult'
  | @stopped stage ss s₁ trace t stop hrun hend hresult =>
    obtain ⟨hsame, -⟩ := Operation.evaluate_parallelism (n := n)
      (hops stage List.mem_cons_self) hfit hfit' stage.name s₁.outputs
    cases h₂ with
    | next _ _ hresult' _ =>
      rw [← ho, hsame, hresult] at hresult'
      cases hresult'
    | stopped hrun' _ hresult' =>
      rw [← ho, hsame, hresult] at hresult'
      cases hresult'
      exact ⟨rfl, (team_outputs hrun).trans (ho.trans (team_outputs hrun').symm), nofun⟩

/-- No schedule ends by a crash, if the workers' tasks can be listed. -/
theorem ne_crashed (hfit : options.FitsTasks) (h : Schedule options ss s s' stop) :
    stop ≠ some .crashed := by
  induction h with
  | finished => nofun
  | next _ _ _ _ ih => exact ih
  | stopped _ _ hresult =>
    rintro ⟨⟩
    exact Operation.evaluate_ne_crashed hfit _ _ _ hresult

end Schedule

/-! ## Reports -/

/-- What a run that stopped in the state `s` reports, unless it crashed. -/
def Pipeline.report (p : Pipeline) (s : RunState) : Option Stop → Option RunReport
  | none => some ⟨p.options.jobName, p.options.runMode, none, s.counters.table,
      s.outputs.length, s.notes⟩
  | some (.failed e) => some ⟨p.options.jobName, p.options.runMode, some e, s.counters.table,
      s.outputs.length, s.notes⟩
  | some .crashed => none

/-- The executed run is a schedule, and its report is that of the schedule. -/
theorem Pipeline.run_report (p : Pipeline) (g : Graph) :
    (p.run g).1 = p.report (runStages p.options g.stages { graph := g }).1
      (runStages p.options g.stages { graph := g }).2 := by
  simp only [Pipeline.run]
  split <;> simp_all [report]

/-- What two reports agree on: the state, the failure and the number of stages that were run, and
the counters if the runs got to the end. -/
structure RunReport.Matches (r r' : RunReport) : Prop where
  state : r.stateName = r'.stateName
  failure : r.failure = r'.failure
  stagesRun : r.stagesRun = r'.stagesRun
  counters : r.stateName = "DONE" → r.counters = r'.counters

theorem RunReport.failure_eq_none {r : RunReport} (h : r.stateName = "DONE") : r.failure = none := by
  rw [stateName, isSuccess] at h
  cases hf : r.failure with
  | none => rfl
  | some e => simp [hf] at h

/-- The number of workers, however they take turns, does not show: a stage leaves what its elements
come to one at a time, and two runs of the same stages leave the same outputs and match in what they
report. The executed runs are among these. -/
theorem parallelism_invisible {p q : Pipeline} (hq : q.options = p.options.withParallelism n)
    (hp : p.options.FitsTasks) (hfit : q.options.FitsTasks) :
    (∀ (source target : Kind) (stage : String)
      (f : Surroundings → source.Value → Response target.Value)
      (sideInputs : List (NodeId × Output)) (items : List (Windowed source.Value)),
      ∃ r, (∀ r', Sequential stage (fun x => f (surround p.options stage sideInputs x) x.value)
          items r' ↔ r' = r) ∧
        (evaluateParDo p.options stage (.responding f) sideInputs items).result =
          outputOf target r) ∧
    (∀ g : Graph, (∀ stage ∈ g.stages, stage.operation.IgnoresParallelism) →
      (∀ s stop s' stop', Schedule p.options g.stages { graph := g } s stop →
        Schedule q.options g.stages { graph := g } s' stop' →
        s.outputs = s'.outputs ∧
          ∃ r r', p.report s stop = some r ∧ q.report s' stop' = some r' ∧ r.Matches r') ∧
      ∃ r r', (p.run g).1 = some r ∧ (q.run g).1 = some r' ∧ r.Matches r') := by
  refine ⟨fun source target stage f sideInputs items => ?_, fun g hops => ?_⟩
  · obtain ⟨r, hr, hresult⟩ := evaluateParDo_sequential hp stage f sideInputs items
    exact ⟨r, fun r' => ⟨fun hr' => hr'.unique hr, fun he => he ▸ hr⟩, hresult⟩
  have hmatch : ∀ s stop s' stop', Schedule p.options g.stages { graph := g } s stop →
      Schedule q.options g.stages { graph := g } s' stop' → s.outputs = s'.outputs ∧
        ∃ r r', p.report s stop = some r ∧ q.report s' stop' = some r' ∧ r.Matches r' := by
    intro s stop s' stop' h h'
    have hne := h.ne_crashed hp
    have hsorted := h.sorted Counters.sorted_empty
    have hsorted' := h'.sorted Counters.sorted_empty
    rw [hq] at h' hfit
    obtain ⟨rfl, houtputs, hcounters⟩ := h.parallelism hops hp hfit h' rfl (.refl _)
    refine ⟨houtputs, ?_⟩
    match stop with
    | none =>
      exact ⟨_, _, rfl, rfl, rfl, rfl, congrArg List.length houtputs,
        fun _ => (hcounters rfl).table hsorted hsorted'⟩
    | some (.failed e) =>
      exact ⟨_, _, rfl, rfl, rfl, rfl, congrArg List.length houtputs, fun hdone => by
        cases RunReport.failure_eq_none hdone⟩
    | some .crashed => exact absurd rfl hne
  refine ⟨hmatch, ?_⟩
  rw [Pipeline.run_report, Pipeline.run_report]
  exact (hmatch _ _ _ _ (schedule_runStages hp _ _) (schedule_runStages hfit _ _)).2

/-- Counts every value and emits it again, later and negated. -/
def echo : Surroundings → Kind.boolean.Value → Response Kind.boolean.Value :=
  fun _ (b : Bool) => { effects := [.count "Seen" 1], emissions := [⟨b, none⟩, ⟨!b, some 5⟩] }

/-- The graph with the values `false` and `true` and a stage that echoes them. -/
def echoGraph : Graph :=
  (Builder.exec ((bits (twice .bounded) none).parDo .boolean "Echo" (.responding echo) [])
    (bitsGraph (twice .bounded))).2

theorem echoGraph_run :
    ∃ s, runStages (twice .bounded).options echoGraph.stages { graph := echoGraph } = (s, none) := by
  have hfit : (twice .bounded).options.FitsTasks := rfl
  obtain ⟨g, hbits⟩ : ∃ g, runStages (twice .bounded).options (bitsGraph (twice .bounded)).stages
      { graph := echoGraph } = ({ outputs := _, graph := g }, none) := by
    obtain ⟨g, hg⟩ := runStages_withGraph (bitsGraph (twice .bounded)).stages
      { graph := bitsGraph (twice .bounded) } echoGraph
    rw [bitsGraph_run] at hg
    exact ⟨g, hg⟩
  have hsource : echoGraph.stages = (bitsGraph (twice .bounded)).stages ++
      [⟨"Echo", .parDo .boolean .boolean 0 [] (.responding echo)⟩] := rfl
  have hitems (outputs : Outputs) (h : outputs[0]? = some (.elements .boolean
      [.unstamped false, .unstamped true])) :
      (Operation.parDo .boolean .boolean 0 [] (.responding echo)).evaluate
        (twice .bounded).options "Echo" outputs = evaluateParDo (twice .bounded).options "Echo"
          (.responding echo) [] [.unstamped false, .unstamped true] :=
    evaluate_parDo_plain h
  rw [hsource, runStages_append_ok hbits]
  simp only [runStages]
  rw [hitems _ rfl, evaluateParDo_done hfit fun _ _ => rfl]
  exact ⟨_, rfl⟩

/-- Two workers take one of the values each, or one worker both: both values are emitted twice, in
their order, and the counts are the same. -/
theorem parallelism_invisible_echo :
    (@evaluateParDo .boolean .boolean (twice .bounded).options "Echo" (.responding echo) []
      [.unstamped false, .unstamped true]).result = .ok (.elements .boolean
        [⟨false, .least, .global⟩, ⟨true, 5, .global⟩, ⟨true, .least, .global⟩,
          ⟨false, 5, .global⟩]) ∧
    ∃ r r', ((twice .bounded).run echoGraph).1 = some r ∧
      ((Pipeline.mk 0 ((twice .bounded).options.withParallelism 1)).run echoGraph).1 = some r' ∧
      r.stateName = "DONE" ∧ r.counters = r'.counters := by
  have hinvisible := @parallelism_invisible 1 (twice .bounded)
    ⟨0, (twice .bounded).options.withParallelism 1⟩ rfl rfl rfl
  constructor
  · obtain ⟨r, hr, hresult⟩ := hinvisible.1 .boolean .boolean "Echo" echo []
      [.unstamped false, .unstamped true]
    rw [hresult, ← (hr _).mp (.done fun _ _ => rfl)]
    rfl
  have hops : ∀ stage ∈ echoGraph.stages, stage.operation.IgnoresParallelism := by
    intro stage hstage
    rcases List.mem_cons.mp hstage with rfl | hstage
    · trivial
    · rw [List.mem_singleton.mp hstage]
      exact fun s x n => rfl
  obtain ⟨r, r', hr, hr', hmatch⟩ := (hinvisible.2 echoGraph hops).2
  obtain ⟨s, hs⟩ := echoGraph_run
  obtain ⟨r₀, hr₀, hfailure, -⟩ := Pipeline.run_ok hs
  obtain rfl := Option.some.inj (hr.symm.trans hr₀)
  have hdone : r.stateName = "DONE" := by
    rw [RunReport.stateName, RunReport.isSuccess, hfailure]
    rfl
  exact ⟨r, r', hr, hr', hdone, hmatch.counters hdone⟩

end CheckedFlow
