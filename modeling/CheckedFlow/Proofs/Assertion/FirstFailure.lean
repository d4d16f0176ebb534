import CheckedFlow.Proofs.Assertion.BoundedRun

/-!
# The first failure of a bounded run

A bounded run ends at the first stage that leaves no output, with the error of that stage. If the
stage runs a check, the error is the failure that the check found. The counters tell the same: each
check that was run counts once, in the stage of the check.

* `bounded_firstFailure`: the law, for all pipelines of plain stages and checks.
* `firstFailure_shared_cell`: counters that share a cell with one of a check's show in it.
-/

namespace CheckedFlow

variable {options : PipelineOptions} {g : Graph} {checks : List NodeId}

/-- A bounded run of plain stages and checks evaluates the stages in their order. If all of them leave
outputs, it is done. Else it fails with the error of the first one that leaves none; if that one runs
a check, the error is the failure that the check found. The counters tell which checks were run and
what they found, if no other counter shares a cell with one of theirs. -/
theorem bounded_firstFailure {p : Pipeline} (hmode : p.options.runMode = .bounded)
    (hfit : p.options.FitsTasks) (hsound : g.Sound) (hg : Assembled .bounded g.stages checks) :
    ∃ r, (p.run g).1 = some r ∧ r.counters.Tells r.stagesRun p.options g.stages checks ∧
      ((∀ n stage, g.stages[n]? = some stage → ∃ e o,
          Evaluates p.options [] g.stages n stage e ∧ e.result = .ok o) ∧
        r.failure = none ∧ r.stagesRun = g.stages.length ∨
      ∃ stage e error, Evaluates p.options [] g.stages r.stagesRun stage e ∧
        e.result = .error (.failed error) ∧ r.failure = some error ∧
        (r.stagesRun ∈ checks → ∃ i failure, e.Fired p.options stage i ∧
          i.verdict.failure? = some failure ∧ error = .stageFailed stage.name (.check failure))) := by
  obtain ⟨s, stop, hrun⟩ : ∃ s stop, runStages p.options g.stages { graph := g } = (s, stop) :=
    ⟨_, _, rfl⟩
  have h : BoundedRun p.options g.stages checks g s stop := ⟨hmode, hfit, hsound.nodup, hg, hrun⟩
  have hreport := Pipeline.run_report p g
  rw [hrun] at hreport
  cases stop with
  | none =>
    have hlen := runStages_outputs_length hrun
    refine ⟨_, hreport, h.tells, .inl ⟨fun n stage hat => ?_, rfl, hlen⟩⟩
    have hlt : n < s.outputs.length := hlen ▸ (List.getElem?_eq_some_iff.mp hat).1
    obtain ⟨e, he⟩ := h.evaluated hat (Nat.le_of_lt hlt)
    cases hr : e.result with
    | ok o => exact ⟨e, o, he, hr⟩
    | error stop => cases (h.failed he hr).1
  | some stop =>
    obtain ⟨n, stage, e, he, hr⟩ := @runStages_evaluates p.options g.stages { graph := g } stop
      (by rw [hrun])
    obtain ⟨-, rfl⟩ := h.failed he hr
    cases stop with
    | crashed =>
      obtain ⟨s₁, -, rfl⟩ := Evaluates.run (s := { graph := g }) he
      exact absurd hr (Operation.evaluate_ne_crashed hfit _ _ _)
    | failed error =>
      refine ⟨_, hreport, h.tells, .inr ⟨stage, e, error, he, hr, rfl, fun hn => ?_⟩⟩
      obtain ⟨i, hi⟩ := h.fired hn he
      have hresult := hi.result
      cases hf : i.verdict.failure? with
      | none =>
        rw [hr, hf] at hresult
        cases hresult
      | some failure =>
        rw [hr, hf] at hresult
        cases hresult
        exact ⟨i, failure, hi, hf, rfl⟩

/-! ## Checks of a view of two bits -/

/-- Passes if there are `n` bits. -/
def countsBits (n : Nat) : Checker (List Bool) := fun bs =>
  ⟨if bs.length = n then .passed else .failed (.custom "count"), []⟩

/-- The check of a view of two bits that there are `n` bits. -/
def countCall (n : Nat) : AssertionCall :=
  .terminal (.collectionSatisfies (k := .boolean)
    (assertThatIterable (bitsView (twice .bounded))) (countsBits n))

theorem countCall_uses (n : Nat) {g : Graph} (h : (bitsView (twice .bounded)).port ∈ g.ports) :
    (countCall n).spec.Uses g.ports (twice .bounded) :=
  .ofView fun _ => h

/-- The stage that runs the check. -/
def countStage (n : Nat) (name : String) (trigger : NodeId) : Stage :=
  checkStage (.ofRunMode .bounded) (.value (bitsView (twice .bounded)) (countsBits n))
    [(bitsView (twice .bounded)).sideInput] name trigger

/-- What the source of the bits and the view of them leave. -/
def bitsOutputs : Outputs :=
  [.elements .boolean [.unstamped false, .unstamped true],
    .view (.list .boolean) (.materialize "View" .iterable
      [Windowed.unstamped false, Windowed.unstamped true])]

theorem countStage_fired (n : Nat) (name : String) (trigger : NodeId) (more : Outputs)
    (htrigger : (bitsOutputs ++ more)[trigger]? = some (firingsOf (twice .bounded).options)) :
    ((countStage n name trigger).operation.evaluate (twice .bounded).options
      (name ++ "/RunChecks") (bitsOutputs ++ more)).Fired (twice .bounded).options
        (countStage n name trigger) (countsBits n [false, true]) := by
  have hfit : (twice .bounded).options.FitsTasks := rfl
  have hfound : (bitsOutputs ++ more).sideInputs (name ++ "/RunChecks")
      [(bitsView (twice .bounded)).sideInput] = .ok [(1, bitsOutputs[1])] := rfl
  exact checkStage_fired rfl hfit htrigger hfound

/-- A check that passes, a check that fails, and a stage behind them. -/
def twoChecksGraph : Graph :=
  ((BuilderCall.stage (.impulse (twice .bounded) "Later")).run.run
    (Builder.exec (countCall 3).call
      (Builder.exec (countCall 2).call (bitsViewGraph (twice .bounded))).2).2).2

theorem bitsViewGraph_assembled : Assembled .bounded (bitsViewGraph (twice .bounded)).stages [] :=
  .plain (.plain .nil trivial) trivial

theorem twoChecksGraph_assembled : Assembled .bounded twoChecksGraph.stages [3, 5] := by
  obtain ⟨-, hfirst⟩ := AssertionCall.assembles (c := countCall 2)
    (countCall_uses 2 (by decide)) bitsViewGraph_assembled
  obtain ⟨-, hsecond⟩ := AssertionCall.assembles (c := countCall 3)
    (countCall_uses 3 (by decide)) (hfirst _ _ rfl)
  exact StageCall.assembles (c := .impulse (twice .bounded) "Later") trivial (hsecond _ _ rfl)

theorem bitsViewGraph_built : (bitsViewGraph (twice .bounded)).Built (twice .bounded) :=
  .stage (.stage .new (.create (k := .boolean) (twice .bounded) "Bits"
    [(false, .least), (true, .least)] (bitCodec none)) trivial)
    (.view (l := .list .boolean) (bits (twice .bounded) none) "View" .iterable) trivial

theorem twoChecksGraph_built : twoChecksGraph.Built (twice .bounded) :=
  .stage (.assertion (.assertion bitsViewGraph_built
    (countCall 2) rfl (countCall_uses 2 (by decide)))
    (countCall 3) rfl (countCall_uses 3 (by decide))) _ trivial

/-- The run ends at the second check. -/
theorem twoChecksGraph_run :
    ∃ s failure, runStages (twice .bounded).options twoChecksGraph.stages
        { graph := twoChecksGraph } =
          (s, some (.failed (.stageFailed "Assert$1/RunChecks" (.check failure)))) ∧
      s.outputs.length = 5 ∧
      s.counters = (Counters.empty.add ⟨successCounter, "Assert$0/RunChecks"⟩ 1).add
        ⟨failureCounter, "Assert$1/RunChecks"⟩ 1 := by
  let p := twice .bounded
  let s₀ : RunState := { outputs := bitsOutputs ++ [firingsOf p.options], graph := twoChecksGraph }
  let first := countStage 2 "Assert$0" 2
  let s₁ := s₀.leave p.options first (.elements .unit [])
  let s₂ := s₁.leave p.options ⟨"Assert$1/Trigger", .impulse⟩ (firingsOf p.options)
  have hstages : twoChecksGraph.stages = twoChecksGraph.stages.take 3 ++
    first :: ⟨"Assert$1/Trigger", .impulse⟩ :: countStage 3 "Assert$1" 4 ::
      twoChecksGraph.stages.drop 6 := rfl
  have hbefore : runStages p.options (twoChecksGraph.stages.take 3) { graph := twoChecksGraph } =
      (s₀, none) := rfl
  have hfirst := countStage_fired 2 "Assert$0" 2 [firingsOf p.options] rfl
  have hsecond := countStage_fired 3 "Assert$1" 4
    [firingsOf p.options, .elements .unit [], firingsOf p.options] rfl
  rw [hstages, runStages_append_ok hbefore, runStages_cons_ok (s := s₀) hfirst.result,
    runStages_cons_ok (s := s₁) (o := firingsOf p.options) rfl,
    runStages_cons_error (s := s₂) hsecond.result]
  have hcounted : s₁.counters = Counters.empty.add ⟨successCounter, "Assert$0/RunChecks"⟩ 1 :=
    (RunState.leave_counters ..).trans (congrArg s₀.counters.addAll hfirst.counts)
  refine ⟨_, _, rfl, ?_, ?_⟩
  · rw [RunState.applyAll_outputs]
    rfl
  · refine (RunState.applyAll_counts ..).trans ((congrArg s₂.counters.addAll hsecond.counts).trans ?_)
    exact congrArg (fun c => Counters.add c _ 1) hcounted

/-- The first check passes and counts a success. The second one fails and counts a failure, and its
failure is that of the run. The stage behind it is not run. -/
theorem bounded_firstFailure_bits :
    ∃ r failure, twoChecksGraph.Built (twice .bounded) ∧
      ((twice .bounded).run twoChecksGraph).1 = some r ∧
      r.counters.Tells r.stagesRun (twice .bounded).options twoChecksGraph.stages [3, 5] ∧
      r.counters.Apart ∧
      r.failure = some (.stageFailed "Assert$1/RunChecks" (.check failure)) ∧ r.stagesRun = 5 ∧
      (r.counters.get ⟨successCounter, "Assert$0/RunChecks"⟩ = 1 ∧
        r.counters.get ⟨failureCounter, "Assert$0/RunChecks"⟩ = 0) ∧
      (r.counters.get ⟨successCounter, "Assert$1/RunChecks"⟩ = 0 ∧
        r.counters.get ⟨failureCounter, "Assert$1/RunChecks"⟩ = 1) ∧
      r.counters.total successCounter + r.counters.total failureCounter = 2 := by
  obtain ⟨s, failure, hrun, hlen, hcounters⟩ := twoChecksGraph_run
  obtain ⟨r, hr, htells, -⟩ := bounded_firstFailure (p := twice .bounded) rfl rfl
    twoChecksGraph_built.assembled.1 twoChecksGraph_assembled
  have hreport := hr.symm.trans (Pipeline.run_report _ _)
  rw [hrun] at hreport
  cases hreport
  have hapart : s.counters.table.Apart := by
    rw [hcounters]
    decide +kernel
  have hfirst := htells.counts hapart 3 (by decide) _ rfl
  have hsecond := htells.counts hapart 5 (by decide) _ rfl
  have htotal := htells.total hapart
  simp only [hlen] at hfirst hsecond htotal
  exact ⟨_, failure, twoChecksGraph_built, hr, htells, hapart, rfl, hlen, hfirst, hsecond, htotal⟩

/-! ## A shared cell -/

/-- Counts every bit in a counter, and emits it again. -/
def countingBits (counter : String) : DoFn Bool Bool := fun s b =>
  { effects := [.count counter 1], emitted := [s.emit b] }

/-- The call for a stage that counts the bits, under a name that ends as that of a check stage. -/
def countingCall : StageCall :=
  .parDo (l := .boolean) (bits (twice .bounded) none) "SuccessAssert$0/RunChecks"
    (countingBits "Assertion") []

theorem countingCall_plain : countingCall.Plain := by
  intro s b counter amount hmem hcounter
  cases List.mem_singleton.mp hmem
  exact absurd hcounter (by decide)

/-- The bits, a view of them, the stage that counts them, and a check of the view. -/
def sharedCellGraph : Graph :=
  (Builder.exec (countCall 2).call
    ((BuilderCall.stage countingCall).run.run (bitsViewGraph (twice .bounded))).2).2

theorem sharedCellGraph_assembled : Assembled .bounded sharedCellGraph.stages [4] :=
  (AssertionCall.assembles (c := countCall 2) (countCall_uses 2 (by decide))
    (countingCall.assembles countingCall_plain bitsViewGraph_assembled)).2 _ _ rfl

/-- The run gets to its end. -/
theorem sharedCellGraph_run :
    ∃ s, runStages (twice .bounded).options sharedCellGraph.stages { graph := sharedCellGraph } =
        (s, none) ∧ s.outputs.length = 5 ∧
      s.counters = ((Counters.empty.add ⟨"Assertion", "SuccessAssert$0/RunChecks"⟩ 1).add
        ⟨"Assertion", "SuccessAssert$0/RunChecks"⟩ 1).add
          ⟨successCounter, "Assert$0/RunChecks"⟩ 1 := by
  let p := twice .bounded
  let counted : Output := .elements .boolean [.unstamped false, .unstamped true]
  let counting : Stage := ⟨"SuccessAssert$0/RunChecks",
    .parDo .boolean .boolean 0 [] (countingBits "Assertion")⟩
  let check := countStage 2 "Assert$0" 3
  let s₀ : RunState := { outputs := bitsOutputs, graph := sharedCellGraph }
  let s₁ := s₀.leave p.options counting counted
  let s₂ := s₁.leave p.options ⟨"Assert$0/Trigger", .impulse⟩ (firingsOf p.options)
  have hstages : sharedCellGraph.stages = sharedCellGraph.stages.take 2 ++
    [counting, ⟨"Assert$0/Trigger", .impulse⟩, check] := rfl
  have hbefore : runStages p.options (sharedCellGraph.stages.take 2) { graph := sharedCellGraph } =
      (s₀, none) := rfl
  have hfit : p.options.FitsTasks := rfl
  have hcounting : counting.operation.evaluate p.options counting.name s₀.outputs =
      ⟨[.count "Assertion" 1, .count "Assertion" 1], .ok counted⟩ :=
    (evaluate_parDo_plain rfl).trans (evaluateParDo_done hfit fun _ _ => rfl)
  have hcheck := countStage_fired 2 "Assert$0" 3 [counted, firingsOf p.options] rfl
  have hcounted : s₁.counters = (Counters.empty.add ⟨"Assertion", "SuccessAssert$0/RunChecks"⟩
      1).add ⟨"Assertion", "SuccessAssert$0/RunChecks"⟩ 1 :=
    (RunState.leave_counters ..).trans (congrArg (fun e => s₀.counters.addAll
      (Effect.counts counting.name (Evaluated.effects e))) hcounting)
  rw [hstages, runStages_append_ok hbefore,
    runStages_cons_ok (s := s₀) (congrArg Evaluated.result hcounting),
    runStages_cons_ok (s := s₁) (o := firingsOf p.options) rfl,
    runStages_cons_ok (s := s₂) hcheck.result]
  refine ⟨_, rfl, rfl, ?_⟩
  refine (RunState.leave_counters ..).trans ((congrArg s₂.counters.addAll hcheck.counts).trans ?_)
  exact congrArg (fun c => Counters.add c _ 1) hcounted

/-- A stage of the user's counts in no counter of checks, but in a counter that shares its cell with
one: the check that passed shows three successes. -/
theorem firstFailure_shared_cell :
    (twice .bounded).options.runMode = .bounded ∧ (twice .bounded).options.FitsTasks ∧
    sharedCellGraph.Built (twice .bounded) ∧ Assembled .bounded sharedCellGraph.stages [4] ∧
    sharedCellGraph.stageNames[4]? = some "Assert$0/RunChecks" ∧
    ∃ r, ((twice .bounded).run sharedCellGraph).1 = some r ∧ r.failure = none ∧
      r.stagesRun = sharedCellGraph.stages.length ∧
      r.counters.get ⟨successCounter, "Assert$0/RunChecks"⟩ = 3 ∧
      r.counters.total successCounter + r.counters.total failureCounter = 3 := by
  obtain ⟨s, hrun, hlen, hcounters⟩ := sharedCellGraph_run
  have hbuilt : sharedCellGraph.Built (twice .bounded) :=
    .assertion (.stage bitsViewGraph_built countingCall countingCall_plain) (countCall 2) rfl
      (countCall_uses 2 (by decide))
  have hreport := Pipeline.run_report (twice .bounded) sharedCellGraph
  rw [hrun] at hreport
  refine ⟨rfl, rfl, hbuilt, sharedCellGraph_assembled, rfl, _, hreport, rfl, hlen, ?_⟩
  simp only [hcounters]
  decide +kernel

end CheckedFlow
