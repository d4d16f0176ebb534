import CheckedFlow.Proofs.Assertion.AllOrNothing
import CheckedFlow.Proofs.Build.Calls
import CheckedFlow.Proofs.Build.Reach
import Mathlib.Data.List.Nodup

/-!
# Pipelines of plain stages and checks

The counters of checks are counters like any other, and a stage of the user's could count in them. In
a pipeline in which none does, a stage is either plain or runs a check, each time that its trigger
fires. The calls of the library build such pipelines, if the functions that they are given are plain.

* `DoFn.Plain`, `Operation.Plain`: functions and operations that leave the counters of checks alone.
* `Stage.RunsCheck`: a stage that runs a check behind an impulse and views.
* `Assembled`: stages of the two sorts, one behind the other, and the numbers of those that run
  checks; `Assembled.getElem?_cases`: what a number says about its stage.
* `StageCall.assembles`, `AssertionCall.assembles`: calls add to such stages.
* `Graph.Built`, `Graph.Built.assembled`: the graphs that any number of calls have built.
-/

namespace CheckedFlow

variable {α β : Type} {k l : Kind} {mode : RunMode} {ss added : List Stage} {checks : List NodeId}
  {stage : Stage} {n : NodeId} {g g' : Graph} {p : Pipeline} {name : String}

/-! ## The two sorts of stages -/

/-- The counter is one that checks count in. -/
def OfChecks (counter : String) : Prop := counter = successCounter ∨ counter = failureCounter

instance : DecidablePred OfChecks := fun counter =>
  inferInstanceAs (Decidable (counter = successCounter ∨ counter = failureCounter))

/-- The function counts in no counter of checks. -/
def DoFn.Plain (f : DoFn α β) : Prop :=
  ∀ s x counter amount, .count counter amount ∈ (f s x).effects → ¬ OfChecks counter

/-- The operation counts in no counter of checks. -/
def Operation.Plain : Operation → Prop
  | parDo _ _ _ _ doFn => doFn.Plain
  | _ => True

theorem DoFn.map_plain (f : α → β) : (DoFn.map f).Plain := fun _ _ _ _ => nofun

theorem DoFn.filter_plain (keep : α → Bool) : (DoFn.filter keep).Plain := fun _ _ _ _ => nofun

/-- The stage runs a check behind the stages `before`: whenever an impulse among them fires, and with
views of stages among them. -/
def Stage.RunsCheck (mode : RunMode) (before : List Stage) (stage : Stage) : Prop :=
  ∃ (body : CheckBody) (declared : List SideInput) (name impulse : String) (trigger : NodeId),
    stage = checkStage (.ofRunMode mode) body declared name trigger ∧
    before[trigger]? = some ⟨impulse, .impulse⟩ ∧ ∀ v ∈ declared, v.node < before.length

/-- The stages are plain or run checks, one behind the other. Those with the numbers `checks` run
checks. -/
inductive Assembled (mode : RunMode) : List Stage → List NodeId → Prop
  | nil : Assembled mode [] []
  | plain {ss : List Stage} {checks : List NodeId} {stage : Stage} (h : Assembled mode ss checks)
      (hs : stage.operation.Plain) : Assembled mode (ss ++ [stage]) checks
  | check {ss : List Stage} {checks : List NodeId} {stage : Stage} (h : Assembled mode ss checks)
      (hs : stage.RunsCheck mode ss) : Assembled mode (ss ++ [stage]) (checks ++ [ss.length])

namespace Assembled

theorem append (h : Assembled mode ss checks) (hadded : ∀ stage ∈ added, stage.operation.Plain) :
    Assembled mode (ss ++ added) checks := by
  induction added generalizing ss with
  | nil => rwa [List.append_nil]
  | cons stage added ih =>
    rw [List.append_cons]
    exact ih (h.plain (hadded stage List.mem_cons_self))
      fun st hst => hadded st (List.mem_cons_of_mem stage hst)

theorem lt (h : Assembled mode ss checks) (hn : n ∈ checks) : n < ss.length := by
  induction h with
  | nil => cases hn
  | plain _ _ ih =>
    rw [List.length_append]
    exact Nat.lt_add_right 1 (ih hn)
  | check _ _ ih =>
    rw [List.length_append]
    rcases List.mem_append.mp hn with hn | hn
    · exact Nat.lt_add_right 1 (ih hn)
    · rw [List.mem_singleton.mp hn]
      exact Nat.lt_succ_self _

theorem nodup (h : Assembled mode ss checks) : checks.Nodup := by
  induction h with
  | nil => exact List.nodup_nil
  | plain _ _ ih => exact ih
  | @check ss checks _ h _ ih =>
    have hnew : ss.length ∉ checks := fun hmem => Nat.lt_irrefl _ (h.lt hmem)
    rw [← List.concat_eq_append]
    exact List.Nodup.concat hnew ih

/-- What a stage is, by its number. -/
theorem getElem?_cases (h : Assembled mode ss checks) (hat : ss[n]? = some stage) :
    n ∈ checks ∧ stage.RunsCheck mode (ss.take n) ∨ n ∉ checks ∧ stage.operation.Plain := by
  induction h with
  | nil => cases hat
  | @plain ss checks last h hs ih =>
    rcases getElem?_concat_cases hat with hat | ⟨rfl, rfl⟩
    · have hlt := (List.getElem?_eq_some_iff.mp hat).1
      rw [List.take_append_of_le_length (Nat.le_of_lt hlt)]
      exact ih hat
    · exact .inr ⟨fun hmem => Nat.lt_irrefl _ (h.lt hmem), hs⟩
  | @check ss checks last h hs ih =>
    rcases getElem?_concat_cases hat with hat | ⟨rfl, rfl⟩
    · have hlt := (List.getElem?_eq_some_iff.mp hat).1
      rw [List.take_append_of_le_length (Nat.le_of_lt hlt)]
      refine (ih hat).imp (And.imp_left (List.mem_append_left _)) (And.imp_left fun hnot hmem => ?_)
      rcases List.mem_append.mp hmem with hmem | hmem
      · exact hnot hmem
      · exact Nat.ne_of_lt hlt (List.mem_singleton.mp hmem)
    · rw [List.take_left]
      exact .inl ⟨List.mem_append_right _ (List.mem_singleton_self _), hs⟩

end Assembled

/-! ## Calls -/

/-- The function that the call is given is plain, if there is one. -/
def StageCall.Plain : StageCall → Prop
  | parDo _ _ doFn _ => doFn.Plain
  | _ => True

theorem StageCall.Registers.plain {c : StageCall} (h : c.Registers stage) (hc : c.Plain) :
    stage.operation.Plain := by
  cases c with
  | create =>
    obtain ⟨encoded, rfl⟩ := h
    trivial
  | parDo d name doFn declared =>
    cases h
    exact hc
  | map d name f =>
    cases h
    exact DoFn.map_plain f
  | filter d name keep =>
    cases h
    exact DoFn.filter_plain keep
  | _ =>
    cases h
    trivial

/-- A call for a stage adds a plain one, or none. -/
theorem StageCall.assembles {c : StageCall} (hc : c.Plain)
    (h : Assembled mode g.stages checks) :
    Assembled mode ((BuilderCall.stage c).run.run g).2.stages checks := by
  rcases c.run_cases with ⟨e, he⟩ | ⟨stage, hstage, hs⟩
  · rw [BuilderCall.run, he]
    exact h
  · rw [BuilderCall.run, hs]
    simp only [Build.run, Graph.register_eq]
    split
    · exact h
    split
    · exact h
    · exact h.plain (hstage.plain hc)

/-- What handles to the stages of `g` say. -/
def Graph.ports (g : Graph) : List Port := g.stages.mapIdx fun n stage => stage.portAt n

theorem Graph.ports_lt {port : Port} (h : port ∈ g.ports) : port.node < g.stages.length := by
  obtain ⟨n, hn, rfl⟩ := List.mem_mapIdx.mp h
  exact hn

open Builder

/-- Evidence of the library adds plain stages, and leads to a view of a stage of the graph. -/
theorem Evidence.Uses.assembles {e : Evidence k} {ports : List Port} (h : e.Uses ports p)
    (hports : ∀ port ∈ ports, port.node < g.stages.length) {v : View k}
    (he : exec (e p name) g = (.ok v, g')) :
    ∃ added, g'.stages = g.stages ++ added ∧ (∀ stage ∈ added, stage.operation.Plain) ∧
      v.node < g'.stages.length := by
  cases h with
  | ofDataset f fallback keyed hd =>
    obtain ⟨codec, -, rfl, rfl⟩ := Evidence.ofDataset_ok he
    refine ⟨_, rfl, ?_, by simp [copyStages]⟩
    simp only [copyStages, List.forall_mem_cons]
    exact ⟨trivial, DoFn.map_plain _, trivial, List.forall_mem_nil _⟩
  | ofValues values codec f =>
    obtain ⟨codec, encoded, -, -, rfl, rfl⟩ := Evidence.ofValues_ok he
    refine ⟨_, rfl, ?_, by simp [valueStages]⟩
    simp only [valueStages, List.forall_mem_cons]
    exact ⟨trivial, trivial, List.forall_mem_nil _⟩
  | ofView hv =>
    simp only [Evidence.ofView] at he
    split at he
    · cases he
    · rename_i hsame
      cases he
      exact ⟨[], (List.append_nil _).symm, List.forall_mem_nil _, hports _ (hv (by simpa using hsame))⟩

/-- A check adds its trigger and, as the last stage, the one that runs it. -/
theorem attachCheck_assembles {body : CheckBody} {declared : List SideInput}
    {handle : CheckHandle} (h : Assembled p.options.runMode g.stages checks)
    (hdeclared : ∀ v ∈ declared, v.node < g.stages.length)
    (he : exec (attachCheck p name body declared) g = (.ok handle, g')) :
    Assembled p.options.runMode g'.stages (checks ++ [g'.stages.length - 1]) := by
  obtain ⟨rfl, -, rfl⟩ := attachCheck_ok he
  have htrigger : Assembled p.options.runMode (g.stages ++ [⟨name ++ "/Trigger", .impulse⟩])
      checks := h.plain trivial
  have hcheck := htrigger.check ⟨body, declared, name, _, g.stages.length, rfl,
    List.getElem?_concat_length, fun v hv => by
      rw [List.length_append]
      exact Nat.lt_add_right 1 (hdeclared v hv)⟩
  rw [List.append_assoc] at hcheck
  simpa [checkStages] using hcheck

/-- A call that succeeded made the stages of its check. -/
theorem AssertionCall.call_ok {c : AssertionCall} {handle : CheckHandle}
    (he : exec c.call g = (.ok handle, g')) :
    ∃ name g₁, g₁.stages = g.stages ∧ exec (c.spec.body c.pipeline name) g₁ = (.ok handle, g') := by
  rcases c.run_cases with ⟨e, hc⟩ | ⟨name, hc⟩ | hc
  · rw [exec, hc] at he
    cases he
  · rw [exec, hc, CheckSpec.build_eq] at he
    exact ⟨name, g, rfl, allOrNothing_ok he⟩
  · rw [exec, hc] at he
    change exec (c.spec.build c.pipeline g.nextAssertion.1) g.nextAssertion.2 = _ at he
    rw [CheckSpec.build_eq] at he
    exact ⟨g.nextAssertion.1, g.nextAssertion.2, rfl, allOrNothing_ok he⟩

theorem CheckSpec.Uses.registers {c : CheckSpec} {ports : List Port} (h : c.Uses ports p) :
    ∃ names, c.Registers names := by
  have hevidence {m : Kind} {e : Evidence m} (he : e.Uses ports p) : ∃ names, e.Registers names := by
    cases he with
    | ofDataset => exact ⟨_, .ofDataset ..⟩
    | ofValues => exact ⟨_, .ofValues ..⟩
    | ofView => exact ⟨_, .ofView _⟩
  cases c with
  | value actual checker =>
    obtain ⟨names, hnames⟩ := hevidence h
    exact ⟨_, .value hnames checker⟩
  | against actual expected r =>
    obtain ⟨names, hnames⟩ := hevidence h.1
    obtain ⟨names', hnames'⟩ := hevidence h.2
    exact ⟨_, .against hnames hnames' r⟩

theorem CheckSpec.Uses.assembles {c : CheckSpec} {ports : List Port} (h : c.Uses ports p)
    (hports : ∀ port ∈ ports, port.node < g.stages.length)
    (hg : Assembled p.options.runMode g.stages checks) {handle : CheckHandle}
    (he : exec (c.body p name) g = (.ok handle, g')) :
    Assembled p.options.runMode g'.stages (checks ++ [g'.stages.length - 1]) := by
  cases c with
  | value actual checker =>
    obtain ⟨v, g₁, hv, hc⟩ := exec_bind_ok.mp he
    obtain ⟨added, hstages, hadded, hlt⟩ := Evidence.Uses.assembles h hports hv
    exact attachCheck_assembles (hstages ▸ hg.append hadded) (List.forall_mem_singleton.mpr hlt) hc
  | against actual expected r =>
    obtain ⟨v, g₁, hv, hw⟩ := exec_bind_ok.mp he
    obtain ⟨w, g₂, hw, hc⟩ := exec_bind_ok.mp hw
    obtain ⟨added, hstages, hadded, hlt⟩ := Evidence.Uses.assembles h.1 hports hv
    have hgrow : g.stages.length ≤ g₁.stages.length := by
      rw [hstages, List.length_append]
      exact Nat.le_add_right _ _
    obtain ⟨added', hstages', hadded', hlt'⟩ := Evidence.Uses.assembles h.2
      (fun port hport => Nat.lt_of_lt_of_le (hports port hport) hgrow) hw
    have hg₂ : Assembled p.options.runMode g₂.stages checks := by
      rw [hstages', hstages]
      exact (hg.append hadded).append hadded'
    have hgrow' : g₁.stages.length ≤ g₂.stages.length := by
      rw [hstages', List.length_append]
      exact Nat.le_add_right _ _
    exact attachCheck_assembles hg₂ (List.forall_mem_cons.mpr
      ⟨Nat.lt_of_lt_of_le hlt hgrow', List.forall_mem_singleton.mpr hlt'⟩) hc

/-- A call that builds a check from handles to stages of the graph adds plain stages and, as the last
one, the stage that runs the check; or it fails and adds none. -/
theorem AssertionCall.assembles {c : AssertionCall} (hc : c.spec.Uses g.ports c.pipeline)
    (hg : Assembled c.pipeline.options.runMode g.stages checks) :
    (∀ e g', exec c.call g = (.error e, g') →
      Assembled c.pipeline.options.runMode g'.stages checks) ∧
    (∀ handle g', exec c.call g = (.ok handle, g') →
      Assembled c.pipeline.options.runMode g'.stages (checks ++ [g'.stages.length - 1])) := by
  constructor
  · intro e g' he
    obtain ⟨names, hnames⟩ := hc.registers
    rw [((AssertionCall.all_or_nothing hnames g).1 e g' he).1]
    exact hg
  · intro handle g' he
    obtain ⟨name, g₁, hstages, hbody⟩ := AssertionCall.call_ok he
    rw [← hstages] at hg
    exact hc.assembles (fun port hport => hstages ▸ Graph.ports_lt hport) hg hbody

/-! ## All pipelines that calls build -/

/-- The graphs of the pipeline `p` that calls have built, one after the other, with plain functions
and with handles to the stages of the graph; between two calls there may be runs. -/
inductive Graph.Built (p : Pipeline) : Graph → Prop
  | new : Built p {}
  | stage {g : Graph} (h : Built p g) (c : StageCall) (hc : c.Plain) :
      Built p ((BuilderCall.stage c).run.run g).2
  | assertion {g : Graph} (h : Built p g) (c : AssertionCall) (hp : c.pipeline = p)
      (hc : c.spec.Uses g.ports p) : Built p (exec c.call g).2
  | run {g : Graph} (h : Built p g) : Built p (p.run g).2

/-- A pipeline that calls have built is one of plain stages and checks. -/
theorem Graph.Built.assembled (h : g.Built p) :
    g.Sound ∧ ∃ checks, Assembled p.options.runMode g.stages checks := by
  induction h with
  | new => exact ⟨Graph.Reachable.new.sound, [], .nil⟩
  | stage _ c hc ih =>
    obtain ⟨hsound, checks, hg⟩ := ih
    exact ⟨Build.run_sound _ hsound, checks, c.assembles hc hg⟩
  | @assertion g _ c hp hc ih =>
    obtain ⟨hsound, checks, hg⟩ := ih
    subst hp
    refine ⟨Build.run_sound _ hsound, ?_⟩
    obtain ⟨hfails, hbuilds⟩ := AssertionCall.assembles hc hg
    cases hr : exec c.call g with
    | mk r g' =>
      cases r with
      | ok handle => exact ⟨_, hbuilds handle g' hr⟩
      | error e => exact ⟨_, hfails e g' hr⟩
  | run _ ih =>
    obtain ⟨hsound, checks, hg⟩ := ih
    obtain ⟨hstages, hnames⟩ := Pipeline.run_graph p _
    exact ⟨hsound.congr hstages hnames, checks, hstages ▸ hg⟩

end CheckedFlow
