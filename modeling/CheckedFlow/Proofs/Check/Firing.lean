import CheckedFlow.Proofs.Check.Evidence
import CheckedFlow.Proofs.Run.Report

/-!
# What a check finds

A call that builds a check registers quiet stages and, last, the stage that runs the check. Whatever
is registered behind it later, a run that gets to the end of the stages before the call gets to the
check, and every firing finds the same: what the checker says of the value that was read, or that
no value could be read.

* `fire_effects`, `fire_propagate`, `fire_countOnly`: what one firing does, in its order, and how it
  ends. `fire_eq_iff` says what it leaves of its finding: the notes and whether it passes, and in a
  bounded run also the failure. In an unbounded run the failure is only counted.
* `inspectRead`: what a checker finds if a value or an error is read.
* `Outputs.sideInputs_ok`, `Outputs.lookup_sideInputs`: when the views that a stage declared are
  found, and what is found for each number.
* `Stage.Fires`: a stage each firing of which looks through a body and finds an inspection. What is
  found is the value of the body, and not told through what is left of it; `Stage.Fires.agree` says
  what is left. `Stage.Fires.evaluates`, `Stage.Fires.once`: what the stage is evaluated to.
* `CheckBuilt`: the spec of a call that builds a check; `checkValue_builds` and
  `checkAgainst_builds` say what its firings find.
* `CheckHandle.Finds`: what a check finds in the runs of a graph; `CheckBuilt.finds` says it of
  every graph that grew from the one after the call. `CheckHandle.Inspects` and
  `CheckHandle.Compares` are the two forms of a check.
* `CheckHandle.Finds.agree`: what a check finds is decided as far as its firings leave it;
  `CheckHandle.Finds.failure`: a failure that is found in a bounded run is what the run reports.
-/

namespace CheckedFlow

variable {k l : Kind} {g : Graph} {outputs : Outputs} {i : Inspection}

/-! ## One firing -/

/-- The inspection is a success. -/
def Inspection.passes (i : Inspection) : Bool := i.verdict.failure?.isNone

/-- The counter that a firing with this finding adds to. -/
def Inspection.counter (i : Inspection) : String :=
  if i.passes then successCounter else failureCounter

/-- A firing enters `running`, shows what the checker shows, counts once and is resolved. -/
theorem fire_effects (policy : FailurePolicy) (stage : String) (i : Inspection) :
    (fire policy stage i).effects =
      .enter .running :: (i.notes.map fun n => .note n.1 n.2) ++
        [.count i.counter 1, .enter (.resolved i.passes)] := by
  cases h : i.verdict.failure? <;> simp [fire, Inspection.counter, Inspection.passes, h]

theorem fire_emitted (policy : FailurePolicy) (stage : String) (i : Inspection) :
    (fire policy stage i).emitted = [] := by
  cases h : i.verdict.failure? <;> simp [fire, h]

/-- A failure that is only counted ends no stage. -/
theorem fire_countOnly (stage : String) (i : Inspection) :
    (fire .countOnly stage i).ending = .done := by
  cases h : i.verdict.failure? <;> simp [fire, h]

/-- A failure that is propagated is the error of the stage. -/
theorem fire_propagate (stage : String) (i : Inspection) :
    (fire .propagate stage i).ending =
      match i.verdict.failure? with
      | none => .done
      | some failure => .failed (.stageFailed stage (.check failure)) := by
  cases h : i.verdict.failure? <;> simp [fire, h]

/-- What is left of a finding: two findings leave the same exactly if their notes are the same, both
pass or neither does, and, where a failure is propagated, it is the same. -/
theorem fire_eq_iff {policy : FailurePolicy} {stage : String} {i j : Inspection} :
    fire policy stage i = fire policy stage j ↔
      i.notes = j.notes ∧ i.passes = j.passes ∧
        (policy = .propagate → i.verdict.failure? = j.verdict.failure?) := by
  constructor
  · intro h
    have heffects := congrArg Processed.effects h
    have hending := congrArg Processed.ending h
    rw [fire_effects, fire_effects] at heffects
    obtain ⟨hnotes, hlast⟩ := List.append_inj' heffects rfl
    obtain ⟨-, hpasses⟩ : i.counter = j.counter ∧ i.passes = j.passes := by simpa using hlast
    refine ⟨List.map_injective_iff.mpr ?_ (List.cons.inj hnotes).2, hpasses, ?_⟩
    · rintro ⟨_, _⟩ ⟨_, _⟩ hn
      cases hn
      rfl
    · rintro rfl
      rw [fire_propagate, fire_propagate] at hending
      cases hi : i.verdict.failure? <;> cases hj : j.verdict.failure? <;> simp_all
  · rintro ⟨hnotes, hpasses, hfailure⟩
    cases policy with
    | propagate => simp only [fire, hnotes, hfailure rfl]
    | countOnly =>
      simp only [Inspection.passes] at hpasses
      cases hi : i.verdict.failure? <;> cases hj : j.verdict.failure? <;>
        simp_all [fire]

/-! ## Reading the views of a check -/

/-- What a checker finds if `r` is read: an error is a failure of the check. -/
def inspectRead {α : Type} (r : Except PipelineError α) (checker : Checker α) : Inspection :=
  match r with
  | .error e => unreadable e
  | .ok x => checker x

theorem CheckBody.value_eq (v : View k) (checker : Checker k.Value) (s : Surroundings) :
    value v checker s = inspectRead (s.sideInput v) checker := by
  rw [value]
  cases s.sideInput v <;> rfl

theorem CheckBody.against_eq (v : View k) (w : View l) (relation : Relation k.Value l.Value)
    (s : Surroundings) :
    against v w relation s =
      inspectRead (s.sideInput v) fun x => inspectRead (s.sideInput w) fun y =>
        relation.bind y x := by
  rw [against]
  cases s.sideInput v with
  | error e => rfl
  | ok x => cases s.sideInput w <;> rfl

theorem Outputs.output_ok {n : NodeId} {consumer : String} {o : Output}
    (h : outputs.output n consumer = .ok o) : outputs[n]? = some o := by
  unfold output at h
  split at h
  · rename_i hn
    cases h
    exact hn
  · cases h

/-- Every declared view has an output. What is found for a number is the output of the number, if a
view with it was declared, and nothing otherwise. -/
theorem Outputs.lookup_sideInputs {consumer : String} {declared : List SideInput}
    {found : List (NodeId × Output)} (h : outputs.sideInputs consumer declared = .ok found) :
    (∀ v ∈ declared, ∃ o, outputs[v.node]? = some o) ∧
      ∀ n, found.lookup n = if n ∈ declared.map SideInput.node then outputs[n]? else none := by
  induction declared generalizing found with
  | nil => cases h; exact ⟨nofun, fun n => rfl⟩
  | cons v declared ih =>
    obtain ⟨o, ho, h⟩ := Except.bind_ok h
    obtain ⟨rest, hrest, h⟩ := Except.bind_ok h
    cases h
    have hv := output_ok ho
    obtain ⟨houtputs, hlookup⟩ := ih hrest
    refine ⟨List.forall_mem_cons.mpr ⟨⟨o, hv⟩, houtputs⟩, fun n => ?_⟩
    rw [List.lookup_cons, List.map_cons]
    by_cases hn : n = v.node
    · subst hn
      simp [hv]
    · have hne : (n == v.node) = false := beq_false_of_ne hn
      simp only [hne, hlookup, List.mem_cons, hn, false_or]

/-- Views are found if all of them have outputs. -/
theorem Outputs.sideInputs_ok (consumer : String) {declared : List SideInput}
    (h : ∀ v ∈ declared, ∃ o, outputs[v.node]? = some o) :
    ∃ found, outputs.sideInputs consumer declared = .ok found := by
  induction declared with
  | nil => exact ⟨[], rfl⟩
  | cons v declared ih =>
    obtain ⟨o, ho⟩ := h v List.mem_cons_self
    obtain ⟨found, hf⟩ := ih fun w hw => h w (List.mem_cons_of_mem v hw)
    refine ⟨(v.node, o) :: found, ?_⟩
    simp only [Outputs.sideInputs, Outputs.output, ho, hf]
    rfl

/-- The surroundings of a firing: the global window, and the views in `declared`. -/
structure Surroundings.Firing (s : Surroundings) (declared : List SideInput)
    (outputs : Outputs) : Prop where
  window : s.window = .global
  sideInputs : ∀ v ∈ declared, s.sideInputs.lookup v.node = outputs[v.node]?

/-- A firing reads from a declared view what the global window reads. -/
theorem Surroundings.Firing.sideInput {s : Surroundings} {declared : List SideInput}
    (hs : s.Firing declared outputs) {v : View k} {r : Except PipelineError k.Value}
    (hv : v.sideInput ∈ declared) (h : v.Reads outputs r) : s.sideInput v = r := by
  obtain ⟨contents, hc, rfl⟩ := h
  have hl : s.sideInputs.lookup v.node = some (.view k contents) := (hs.sideInputs _ hv).trans hc
  simp only [Surroundings.sideInput, hl, Output.view?_view, hs.window]

/-! ## Stages that fire -/

/-- Every firing of the stage looks through `body` at the views that the stage declares, and finds
`i`. -/
def Stage.Fires (stage : Stage) (options : PipelineOptions) (outputs : Outputs) (body : CheckBody)
    (i : Inspection) : Prop :=
  ∃ trigger declared found,
    stage.operation = .parDo .unit .unit trigger declared
      (fun s _ => fire (.ofRunMode options.runMode) s.stage (body s)) ∧
    outputs.elements .unit trigger stage.name =
      .ok (List.replicate options.firings (.unstamped ())) ∧
    outputs.sideInputs stage.name declared = .ok found ∧
    body (surround options stage.name found (.unstamped ())) = i

/-- What a trigger leaves: a unit for each firing. -/
def firingsOf (options : PipelineOptions) : Output :=
  .elements .unit (List.replicate options.firings (.unstamped ()))

namespace Stage.Fires

variable {stage : Stage} {options : PipelineOptions} {body body' : CheckBody} {j : Inspection}

/-- A stage whose firings all find `i` does what a stage does that finds `i` without a look. -/
theorem evaluates (h : stage.Fires options outputs body i) :
    stage.operation.evaluate options stage.name outputs =
      @evaluateParDo .unit .unit options stage.name
        (fun s _ => fire (.ofRunMode options.runMode) s.stage i) []
        (List.replicate options.firings (.unstamped ())) := by
  obtain ⟨trigger, declared, found, hop, hfirings, hfound, rfl⟩ := h
  simp only [hop, Operation.evaluate, hfirings, hfound]
  refine evaluateParDo_congr fun x hx => congrArg (fire _ _) ?_
  rw [List.eq_of_mem_replicate hx]

/-- A stage does not tell which body its firings look through, but it tells what they leave. Whatever
body is taken for it, what is found has the same notes, passes or does not pass, and in a bounded run
fails alike. -/
theorem agree (h : stage.Fires options outputs body i) (h' : stage.Fires options outputs body' j) :
    i.notes = j.notes ∧ i.passes = j.passes ∧
      (options.runMode = .bounded → i.verdict.failure? = j.verdict.failure?) := by
  obtain ⟨trigger, declared, found, hop, -, hfound, rfl⟩ := h
  obtain ⟨trigger', declared', found', hop', -, hfound', rfl⟩ := h'
  obtain ⟨-, -, -, rfl, hdo⟩ := Operation.parDo.inj (hop.symm.trans hop')
  cases hfound.symm.trans hfound'
  have hfire := congrFun (congrFun (eq_of_heq hdo)
    (surround options stage.name found (.unstamped ()))) ()
  obtain ⟨hnotes, hpasses, hfailure⟩ := fire_eq_iff.mp hfire
  refine ⟨hnotes, hpasses, fun hmode => hfailure ?_⟩
  rw [hmode]
  rfl

/-- In a bounded run a check fires once. -/
theorem once (h : stage.Fires options outputs body i) (hmode : options.runMode = .bounded)
    (hfit : options.FitsTasks) :
    stage.operation.evaluate options stage.name outputs =
      ⟨(fire .propagate stage.name i).effects,
        (fire .propagate stage.name i).output (k := .unit) stage.name⟩ := by
  have hone : options.firings = 1 := by rw [PipelineOptions.firings, hmode]
  rw [h.evaluates, hone, List.replicate_one, evaluateParDo_fits hfit]
  simp only [processInChunks_single, hmode]
  rfl

end Stage.Fires

/-- Behind its trigger and its declared views, a check finds at every firing what its body finds
there. -/
theorem checkStage_finds {options : PipelineOptions} (body : CheckBody)
    {declared : List SideInput} {name : String} {trigger : NodeId}
    {found : List (NodeId × Output)} (htrigger : outputs[trigger]? = some (firingsOf options))
    (hfound : outputs.sideInputs (name ++ "/RunChecks") declared = .ok found) :
    (checkStage (.ofRunMode options.runMode) body declared name trigger).Fires options outputs body
      (body (surround options (name ++ "/RunChecks") found (.unstamped ()))) :=
  ⟨trigger, declared, found, rfl, Outputs.elements_ok htrigger, hfound, rfl⟩

/-- A check fires behind its trigger, if its declared views have outputs. -/
theorem checkStage_fires {options : PipelineOptions} {body : CheckBody}
    {declared : List SideInput} {name : String}
    (hdeclared : ∀ v ∈ declared, ∃ o, outputs[v.node]? = some o)
    (hbody : ∀ s : Surroundings, s.Firing declared outputs → body s = i) :
    (checkStage (.ofRunMode options.runMode) body declared name outputs.length).Fires options
      (outputs ++ [firingsOf options]) body i := by
  have hkept : ∀ v ∈ declared, (outputs ++ [firingsOf options])[v.node]? = outputs[v.node]? := by
    intro v hv
    obtain ⟨o, ho⟩ := hdeclared v hv
    exact List.getElem?_append_left (List.getElem?_eq_some_iff.mp ho).1
  have hdeclared' : ∀ v ∈ declared, ∃ o, (outputs ++ [firingsOf options])[v.node]? = some o :=
    fun v hv => (hkept v hv).symm ▸ hdeclared v hv
  obtain ⟨found, hfound⟩ := Outputs.sideInputs_ok (name ++ "/RunChecks") hdeclared'
  have hlookup : ∀ v ∈ declared, found.lookup v.node = outputs[v.node]? := by
    intro v hv
    rw [(Outputs.lookup_sideInputs hfound).2, if_pos (List.mem_map_of_mem hv), hkept v hv]
  have hfires := checkStage_finds body List.getElem?_concat_length hfound
  rwa [hbody _ ⟨rfl, hlookup⟩] at hfires

/-- What a check stage leaves if its one firing finds `i`: nothing, or the failure that was found. -/
theorem fire_output (stage : String) (i : Inspection) :
    (fire .propagate stage i).output (k := .unit) stage =
      match i.verdict.failure? with
      | none => .ok (.elements .unit [])
      | some failure => .error (.failed (.stageFailed stage (.check failure))) := by
  rw [Processed.output, fire_propagate, fire_emitted]
  cases i.verdict.failure? <;> rfl

/-! ## Calls that build a check -/

/-- The check `h` of the pipeline `p` was built behind `g`: quiet stages are followed by a stage,
with a new name, each firing of which looks through `body` and finds `i`. -/
structure CheckBuilt (p : Pipeline) (g : Graph) (outputs : Outputs) (body : CheckBody)
    (i : Inspection) (h : CheckHandle) (g' : Graph) : Prop where
  pipeline : h.pipeline = p
  policy : h.policy = .ofRunMode p.options.runMode
  fresh : h.stage ∉ g.names
  stages : ∃ quiet stage os, g'.stages = g.stages ++ quiet ++ [stage] ∧ stage.name = h.stage ∧
    RunsQuietly p.options quiet outputs os ∧ stage.Fires p.options (outputs ++ os) body i

/-- Outputs of all stages stay outputs of all stages if both are extended alike. -/
theorem Graph.length_extend {new : List Stage} {os : Outputs}
    (hlen : outputs.length = g.stages.length) (hos : os.length = new.length) :
    (outputs ++ os).length = (g.extend new).stages.length := by
  rw [List.length_append, hos, hlen, Graph.extend_stages, List.length_append]

/-- Quiet stages in front of a check belong to it. -/
theorem CheckBuilt.after {p : Pipeline} {new : List Stage} {os : Outputs} {body : CheckBody}
    {h : CheckHandle} {g' : Graph} (hq : RunsQuietly p.options new outputs os)
    (hb : CheckBuilt p (g.extend new) (outputs ++ os) body i h g') :
    CheckBuilt p g outputs body i h g' := by
  obtain ⟨quiet, stage, os', hs, hname, hq', hf⟩ := hb.stages
  refine ⟨hb.pipeline, hb.policy, fun hc => hb.fresh (List.mem_append_right _ hc), new ++ quiet,
    stage, os ++ os', ?_, hname, hq.append hq', by rwa [← List.append_assoc]⟩
  rw [hs, Graph.extend_stages, List.append_assoc g.stages]

/-- The trigger and the check of declared views. -/
theorem attachCheck_builds {p : Pipeline} {name : String} {body : CheckBody}
    {declared : List SideInput} {h : CheckHandle} {g' : Graph}
    (hlen : outputs.length = g.stages.length)
    (hdeclared : ∀ v ∈ declared, ∃ o, outputs[v.node]? = some o)
    (hbody : ∀ s : Surroundings, s.Firing declared outputs → body s = i)
    (he : Builder.exec (attachCheck p name body declared) g = (.ok h, g')) :
    CheckBuilt p g outputs body i h g' := by
  obtain ⟨rfl, hnew, rfl⟩ := attachCheck_ok he
  refine ⟨rfl, rfl, hnew, [⟨name ++ "/Trigger", .impulse⟩], checkStage _ body declared name _,
    [firingsOf p.options], ?_, rfl, .cons rfl .nil, hlen ▸ checkStage_fires hdeclared hbody⟩
  rw [List.append_assoc]
  rfl

/-- A check of one value finds what the checker says of the value that the evidence shows. -/
theorem checkValue_builds {p : Pipeline} {name : String} {actual : Evidence k}
    {checker : Checker k.Value} {r : Except PipelineError k.Value} {h : CheckHandle} {g' : Graph}
    (hlen : outputs.length = g.stages.length)
    (ha : actual.Leads p (name ++ "/CreateActual") g outputs r)
    (he : Builder.exec (checkValue p name actual checker) g = (.ok h, g')) :
    ∃ v, CheckBuilt p g outputs (.value v checker) (inspectRead r checker) h g' := by
  obtain ⟨v, g₁, hv, hc⟩ := Builder.exec_bind_ok.mp (allOrNothing_ok he)
  obtain ⟨new, os, rfl, hq, hr⟩ := ha v g₁ hv
  refine ⟨v, .after hq (attachCheck_builds (Graph.length_extend hlen hq.length) ?_ ?_ hc)⟩
  · intro w hw
    obtain ⟨contents, ho, -⟩ := hr
    rw [List.mem_singleton.mp hw]
    exact ⟨_, ho⟩
  · intro s hs
    rw [CheckBody.value_eq, hs.sideInput List.mem_cons_self hr]

/-- A check against an expected value finds what the relation says of the two values that the
evidence shows. The actual value is read first. -/
theorem checkAgainst_builds {p : Pipeline} {name : String} {actual : Evidence k}
    {expected : Evidence l} {relation : Relation k.Value l.Value}
    {r : Except PipelineError k.Value} {r' : Except PipelineError l.Value} {h : CheckHandle}
    {g' : Graph} (hlen : outputs.length = g.stages.length)
    (ha : actual.Leads p (name ++ "/CreateActual") g outputs r)
    (he : ∀ new os, os.length = new.length →
      expected.Leads p (name ++ "/CreateExpected") (g.extend new) (outputs ++ os) r')
    (hb : Builder.exec (checkAgainst p name actual expected relation) g = (.ok h, g')) :
    ∃ v w, CheckBuilt p g outputs (.against v w relation)
      (inspectRead r fun x => inspectRead r' fun y => relation.bind y x) h g' := by
  obtain ⟨v, g₁, hv, hb₁⟩ := Builder.exec_bind_ok.mp (allOrNothing_ok hb)
  obtain ⟨w, g₂, hw, hc⟩ := Builder.exec_bind_ok.mp hb₁
  obtain ⟨new, os, rfl, hq, hr⟩ := ha v g₁ hv
  obtain ⟨new', os', rfl, hq', hr'⟩ := he new os hq.length w g₂ hw
  rw [List.append_assoc] at hr'
  have hr := hr.append os'
  rw [List.append_assoc] at hr
  rw [Graph.extend_extend] at hc
  have hq := hq.append hq'
  refine ⟨v, w, .after hq (attachCheck_builds (Graph.length_extend hlen hq.length) ?_ ?_ hc)⟩
  · intro d hd
    obtain ⟨contents, ho, -⟩ := hr
    obtain ⟨contents', ho', -⟩ := hr'
    rcases List.mem_cons.mp hd with rfl | hd
    · exact ⟨_, ho⟩
    · rw [List.mem_singleton.mp hd]
      exact ⟨_, ho'⟩
  · intro s hs
    rw [CheckBody.against_eq, hs.sideInput List.mem_cons_self hr,
      hs.sideInput (List.mem_cons_of_mem _ List.mem_cons_self) hr']

/-! ## Checks in the runs of a graph -/

/-- A run of `g` gets to the stage of the check, and every firing looks through `body` and finds
`i`. -/
def CheckHandle.Finds (h : CheckHandle) (g : Graph) (body : CheckBody) (i : Inspection) : Prop :=
  ∃ before stage s, before ++ [stage] <+: g.stages ∧ stage.name = h.stage ∧
    runStages h.pipeline.options before { graph := g } = (s, none) ∧
    stage.Fires h.pipeline.options s.outputs body i

/-- In a run of `g` every firing reads a view, hands its value to `checker` and finds `i`. -/
def CheckHandle.Inspects (h : CheckHandle) (g : Graph) (checker : Checker k.Value)
    (i : Inspection) : Prop :=
  ∃ v : View k, h.Finds g (.value v checker) i

/-- In a run of `g` every firing reads two views, compares their values by `relation` and finds
`i`. -/
def CheckHandle.Compares (h : CheckHandle) (g : Graph) (relation : Relation k.Value l.Value)
    (i : Inspection) : Prop :=
  ∃ (v : View k) (w : View l), h.Finds g (.against v w relation) i

/-- What the firings of a check find does not depend on the stages behind it. -/
theorem CheckBuilt.finds {p : Pipeline} {g₀ g' later : Graph} {s : RunState} {h : CheckHandle}
    {body : CheckBody} (hb : CheckBuilt p g s.outputs body i h g')
    (hrun : runStages p.options g.stages { graph := g₀ } = (s, none))
    (hlater : g'.stages <+: later.stages) : h.Finds later body i := by
  obtain ⟨rfl, -, -, quiet, stage, os, hs, hname, hq, hf⟩ := hb
  obtain ⟨g₁, hbefore⟩ := hq.behind hrun later
  exact ⟨g.stages ++ quiet, stage, _, hs ▸ hlater, hname, hbefore, hf⟩

/-- A run of a graph whose stages have names of their own decides what a check finds, as far as a
firing leaves it: the notes, whether it passes, and in a bounded run also the failure. -/
theorem CheckHandle.Finds.agree {h : CheckHandle} {body body' : CheckBody} {j : Inspection}
    (hnames : g.stageNames.Nodup) (hfinds : h.Finds g body i)
    (hfinds' : h.Finds g body' j) :
    i.notes = j.notes ∧ i.passes = j.passes ∧
      (h.pipeline.options.runMode = .bounded → i.verdict.failure? = j.verdict.failure?) := by
  obtain ⟨before, stage, s, ⟨after, hstages⟩, hname, hrun, hfires⟩ := hfinds
  obtain ⟨before', stage', s', ⟨after', hstages'⟩, hname', hrun', hfires'⟩ := hfinds'
  have hat : g.stages[before.length]? = some stage := by simp [← hstages]
  have hat' : g.stages[before'.length]? = some stage' := by simp [← hstages']
  have hlt : before.length < g.stageNames.length := by simp [Graph.stageNames, ← hstages]
  have hlen : before.length = before'.length := by
    refine (List.getElem?_inj hlt hnames).mp ?_
    simp only [Graph.stageNames, List.getElem?_map, hat, hat', Option.map_some, hname, hname']
  rw [← hstages'] at hstages
  simp only [List.append_assoc] at hstages
  obtain ⟨rfl, hrest⟩ := List.append_inj hstages hlen
  cases hrest
  cases hrun.symm.trans hrun'
  exact hfires.agree hfires'

/-- A bounded run in which a check finds a failure reports this failure. -/
theorem CheckHandle.Finds.failure {h : CheckHandle} {body : CheckBody} {failure : CheckFailure}
    (hfinds : h.Finds g body i) (hmode : h.pipeline.options.runMode = .bounded)
    (hfit : h.pipeline.options.FitsTasks) (hi : i.verdict.failure? = some failure) :
    ∃ r, (h.pipeline.run g).1 = some r ∧
      r.failure = some (.stageFailed h.stage (.check failure)) := by
  obtain ⟨before, stage, s, ⟨rest, hstages⟩, hname, hrun, hfires⟩ := hfinds
  have hresult : (stage.operation.evaluate h.pipeline.options stage.name s.outputs).result =
      .error (.failed (.stageFailed h.stage (.check failure))) := by
    rw [hfires.once hmode hfit, fire_output, hi, hname]
  refine Pipeline.run_failed (s := s.applyAll stage.name
    (stage.operation.evaluate h.pipeline.options stage.name s.outputs).effects) ?_
  rw [← hstages, List.append_assoc, runStages_append_ok hrun, List.singleton_append]
  simp only [runStages, hresult]

/-- The stages before a check that was built behind a run leave outputs, behind those of the run. -/
theorem CheckBuilt.earlier {p : Pipeline} {g₀ g' : Graph} {s : RunState} {h : CheckHandle}
    {body : CheckBody} (hb : CheckBuilt p g s.outputs body i h g')
    (hrun : runStages p.options g.stages { graph := g₀ } = (s, none)) (g₁ : Graph) :
    ∃ s' os, runStages p.options g'.stages.dropLast { graph := g₁ } = (s', none) ∧
      s'.outputs = s.outputs ++ os := by
  obtain ⟨-, -, -, quiet, stage, os, hs, -, hq, -⟩ := hb
  obtain ⟨g₂, hbefore⟩ := hq.behind hrun g₁
  rw [hs, List.dropLast_concat]
  exact ⟨_, os, hbefore, rfl⟩

/-! ## A small pipeline -/

/-- Truth values as bytes; decoding refuses `refused`. -/
def bitCodec (refused : Option Bool) : Codec Bool where
  encode b := .ok [if b then 1 else 0]
  decode bytes :=
    if refused = some (bytes == [1]) then .error (.decoding (.told "refused"))
    else .ok (bytes == [1])

theorem bitCodec_roundTrips (b : Bool) : (bitCodec none).RoundTrips b := by
  cases b <;> rfl

/-- A pipeline that fires twice, if it is not bounded. -/
def twice (mode : RunMode) : Pipeline := ⟨0, { runMode := mode, triggerFirings := 2 }⟩

/-- A dataset of the values `false` and `true`, with a codec that refuses `refused`. -/
def bits (p : Pipeline) (refused : Option Bool) : Dataset .boolean :=
  ⟨p, 0, "Bits", some (bitCodec refused)⟩

/-- The graph with the source of the dataset. -/
def bitsGraph (p : Pipeline) : Graph :=
  (Builder.exec (p.source .boolean "Bits" [false, true] (bitCodec none)) {}).2

theorem bitsGraph_run (mode : RunMode) :
    runStages (twice mode).options (bitsGraph (twice mode)).stages
        { graph := bitsGraph (twice mode) } =
      ({ outputs := [.elements .boolean [.unstamped false, .unstamped true]],
         graph := bitsGraph (twice mode) }, none) := by
  cases mode <;> rfl

end CheckedFlow
