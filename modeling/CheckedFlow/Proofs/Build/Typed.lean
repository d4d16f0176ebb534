import CheckedFlow.Proofs.Assertion.AllOrNothing
import CheckedFlow.Proofs.Build.Handles
import CheckedFlow.Proofs.Run.Report
import CheckedFlow.Proofs.Run.Wiring

/-!
# Pipelines that a single thread builds

A single thread makes its calls one after the other, with handles that earlier calls returned. Its
calls may fail and be taken back, and later ones get the numbers and names of the stages that went.
Still every stage reads stages before it, the very ones that its call was made with, and as what they
leave. So in a run no stage finds that another was not evaluated, or left something of another kind.

* `Typed`: the rule that a stage reads what its call knows, as what it leaves.
* `BuilderCall.Uses`: a call of the library that is made with known handles; it keeps to the rule.
* `Site.Program`: the steps of a single-threaded program; `Site.Program.can_call`.
* `wiring_sound`: what holds of the pipeline, and of its runs, at every moment of a program.
-/

namespace CheckedFlow

open Site

variable {options : PipelineOptions}

/-- A stage reads stages that its call knows, each as what it leaves. -/
def Typed : Rule := fun sc stage => stage.operation.ReadsFrom sc.ports

theorem Typed.admits : Rule.Admits Typed := fun _ _ hreads => hreads

/-- The call is made with known handles. The function of a stage declares and reads known views, and
a check looks at values, or at known datasets and views. -/
def BuilderCall.Uses (ports : List Port) : BuilderCall → Prop
  | stage c => c.Uses ports
  | assertion c => c.spec.Uses ports c.pipeline

theorem BuilderCall.Uses.fits {c : BuilderCall} {given : List Ref}
    (h : c.Uses (given.map Ref.port)) : c.Fits Typed given := by
  cases c with
  | stage c =>
    intro stage next hrun
    rcases c.run_cases with ⟨e, he⟩ | ⟨stage', hstage, hregister⟩
    · rw [he] at hrun
      cases hrun
    · rw [hregister] at hrun
      cases hrun
      exact hstage.readsFrom h
  | assertion c => exact CheckSpec.Uses.fair Typed.admits h

namespace Site

variable {s s' : Site Typed}

/-! ## Programs of a single thread -/

/-- What the handles say that are out. -/
def ports (s : Site Typed) : List Port := s.handed.map Ref.port

/-- The steps of a single-threaded program: its calls are made one after the other, with handles that
are out. -/
def Program (s : Site Typed) (a : Action) : Prop :=
  s.Solo a ∧ ∀ c, a = .begin c → c.Uses s.ports

/-- A program can go on with any call that is made with handles that are out. The call leaves what
its program leaves. -/
theorem Program.can_call (hquiet : s.Quiet) {c : BuilderCall} (hc : c.Uses s.ports) :
    ∃ (s' : Site Typed) (sc : Scope), Run Program s s' ∧ s'.Quiet ∧ s'.graph = (c.run.run s.graph).2 ∧
      sc.Returns (c.run.run s.graph).1 ∧ s'.handed = sc.own ++ s.handed := by
  have hbegin : s.Program (.begin c) := ⟨hquiet, fun _ h => by cases h; exact hc⟩
  have hown : ∀ s' a, Own s.clock s' a → Program s' a :=
    fun _ _ h => ⟨h.solo, fun _ ha => by subst ha; exact h.elim⟩
  obtain ⟨s', sc, hrun, hgraph, hreturns, hcalls, hhanded, -⟩ :=
    Site.can_call Program (BuilderCall.keeps Typed.admits hc.fits) (hquiet s.clock) hbegin hown
  exact ⟨s', sc, hrun, fun id => by rw [hcalls, hquiet id], hgraph, hreturns, hhanded⟩

/-- Programs keep the invariant of sites. -/
theorem Run.program_sound (h : Run Program {} s) : s.Sound := by
  have hsolo : Run Solo {} s := h.imp fun _ _ ha => ha.1
  obtain ⟨hconsiderate, -⟩ := hsolo.considerate (Quiet.alone fun _ => rfl)
  exact hconsiderate.sound sound_new

/-! ## Runs of the pipeline -/

/-- A stage finds what it reads, after any run of the stages before it. -/
theorem Sound.finds (hs : s.Sound) {e : Placed} (he : e ∈ s.placed) {g : Graph} {st : RunState}
    (hrun : runStages options (s.graph.stages.take e.node) { graph := g } = (st, none)) :
    e.stage.operation.Finds e.stage.name e.scope.ports st.outputs := by
  obtain ⟨hreads, hknown⟩ := hs.links e he
  refine Operation.ReadsFrom.finds hreads (fun port hport => ?_) e.stage.name
  obtain ⟨r, hr, rfl⟩ := List.mem_map.mp hport
  obtain ⟨hlt, e', hat, rfl⟩ := hknown r hr
  have hstage : (s.graph.stages.take e.node)[e'.ref.port.node]? = some e'.stage := by
    rw [List.getElem?_take_of_lt hlt, ← hs.stages, List.getElem?_map, hat]
    rfl
  exact runStages_holds hrun hstage

/-- No run fails because a stage reads what is not there. -/
theorem Sound.not_wiring (hs : s.Sound) {p : Pipeline} {r : RunReport} {fault : EngineFault}
    (hrun : (p.run s.graph).1 = some r) (hfail : r.failure = some (.internal fault)) :
    ¬ fault.IsWiring := by
  obtain ⟨st, hstages⟩ := Pipeline.run_failure hrun hfail
  obtain ⟨n, stage, st', hn, hbefore, hstop⟩ := runStages_stopped hstages
  rw [← hs.stages, List.getElem?_map] at hn
  obtain ⟨e, hat, rfl⟩ := Option.map_eq_some_iff.mp hn
  have he : e ∈ s.placed := List.mem_of_getElem? hat
  obtain rfl : e.node = n := hs.numbered n e hat
  exact (hs.finds he hbefore).not_wiring (hs.links e he).1 hstop

end Site

/-- At every moment of a single-threaded program, the names of the stages are told apart, not blank,
and those that are taken. A stage reads stages before it, the very ones that its call was given
handles to or registered itself, and the handles that are out denote the stages that they were made
for. In a run, each stage finds what it reads, and reads no fault of the engine from a view; no run
ends with a wiring fault. And the program can go on with any call that uses handles that are out. -/
theorem wiring_sound {s : Site Typed} (h : Run Program {} s) :
    s.graph.Sound ∧ s.graph.stages = s.placed.map Placed.stage ∧
    (∀ e ∈ s.placed, Denotes s.placed e.ref e ∧ ∀ i ∈ e.stage.operation.inputs, i < e.node ∧
      ∃ r ∈ e.scope.known, r.port.node = i ∧ ∃ e', Denotes s.placed r e') ∧
    (∀ r ∈ s.handed, ∃ e, Denotes s.placed r e) ∧
    (∀ options g st, ∀ e ∈ s.placed,
      runStages options (s.graph.stages.take e.node) { graph := g } = (st, none) →
        e.stage.operation.Finds e.stage.name e.scope.ports st.outputs) ∧
    (∀ (p : Pipeline) r fault, (p.run s.graph).1 = some r → r.failure = some (.internal fault) →
      ¬ fault.IsWiring) ∧
    (∀ c : BuilderCall, s.Quiet → c.Uses s.ports → ∃ (s' : Site Typed) (sc : Scope), Run Program s s' ∧ s'.Quiet ∧
      s'.graph = (c.run.run s.graph).2 ∧ sc.Returns (c.run.run s.graph).1 ∧
      s'.handed = sc.own ++ s.handed) := by
  have hs : s.Sound := h.program_sound
  refine ⟨hs.names, hs.stages.symm, fun e he => ⟨hs.numbered.denotes he, fun i hi => ?_⟩, hs.handed,
    fun _ _ _ e he hrun => hs.finds he hrun, fun _ _ _ hrun hfail => hs.not_wiring hrun hfail,
    fun _ hquiet hc => Program.can_call hquiet hc⟩
  obtain ⟨hreads, hknown⟩ := hs.links e he
  obtain ⟨port, hport, rfl⟩ := hreads.inputs i hi
  obtain ⟨r, hr, rfl⟩ := List.mem_map.mp hport
  obtain ⟨hlt, e', he'⟩ := hknown r hr
  exact ⟨hlt, r, hr, rfl, e', he'⟩

/-- The check whether any bit of the first stage is true. -/
def anyBitCall (name : String) : BuilderCall :=
  .assertion (.apply (twice .bounded) name (anyBit (twice .bounded)))

theorem anyBitCall_uses {ports : List Port} (h : ⟨0, .elements .boolean⟩ ∈ ports) (name : String) :
    (anyBitCall name).Uses ports :=
  .ofDataset _ _ _ fun _ => h

/-- The check `Any` finds its last name taken and is taken back. The stages of the check `All` get
the numbers of those that went. -/
theorem wiring_sound_bits :
    ∃ s : Site Typed, Run Program {} s ∧
      s.graph.stageNames = ["Bits", "Any/RunChecks", "All/CreateActual/RewindowActuals",
        "All/CreateActual/Isolate", "All/CreateActual/View", "All/Trigger", "All/RunChecks"] ∧
      s.graph.Sound ∧
      ∀ (p : Pipeline) r fault, (p.run s.graph).1 = some r → r.failure = some (.internal fault) →
        ¬ fault.IsWiring := by
  have hstays {s s' : Site Typed} {sc : Scope} {port : Port} (h : s'.handed = sc.own ++ s.handed)
      (hport : port ∈ s.ports) : port ∈ s'.ports := by
    rw [Site.ports, h, List.map_append]
    exact List.mem_append_right _ hport
  obtain ⟨s₁, sc₁, hrun₁, hquiet₁, hgraph₁, hreturns, hhanded₁⟩ :=
    Program.can_call (s := {}) (c := bitCall "Bits") (fun _ => rfl) trivial
  have hbits₁ : ⟨0, .elements .boolean⟩ ∈ s₁.ports := by
    obtain ⟨t, ht⟩ := (hreturns.2 _ rfl).2 _ List.mem_cons_self
    rw [Site.ports, hhanded₁]
    exact List.mem_map_of_mem (List.mem_append_left _ ht)
  obtain ⟨s₂, sc₂, hrun₂, hquiet₂, hgraph₂, -, hhanded₂⟩ :=
    Program.can_call (c := impulseCall "Any/RunChecks") hquiet₁ trivial
  have hbits₂ := hstays hhanded₂ hbits₁
  obtain ⟨s₃, sc₃, hrun₃, hquiet₃, hgraph₃, -, hhanded₃⟩ :=
    Program.can_call hquiet₂ (anyBitCall_uses hbits₂ "Any")
  obtain ⟨s₄, sc₄, hrun₄, -, hgraph₄, -⟩ :=
    Program.can_call hquiet₃ (anyBitCall_uses (hstays hhanded₃ hbits₂) "All")
  have hrun : Run Program {} s₄ := ((hrun₁.trans hrun₂).trans hrun₃).trans hrun₄
  obtain ⟨hnames, -, -, -, -, hfail, -⟩ := wiring_sound hrun
  refine ⟨s₄, hrun, ?_, hnames, hfail⟩
  rw [hgraph₄, hgraph₃, hgraph₂, hgraph₁]
  rfl

end CheckedFlow
