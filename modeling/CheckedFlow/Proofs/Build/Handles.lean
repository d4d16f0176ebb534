import CheckedFlow.Proofs.Build.Ownership
import CheckedFlow.Proofs.Check.Firing

/-!
# Handles stay valid

An assertion that fails takes back what was registered since its start, if all of it is named under
the assertion. That goes by names, not by who registered what. As long as nobody else uses the names
of an assertion that is being built, and no handle to one of its stages gets out before it is built,
an assertion takes back its own stages only, and every handle goes on to denote the stage that it was
made for. Otherwise a handle may come to denote another stage, or none.

* `Wired`: the stages of an assertion read stages that its call knows.
* `handles_stay_valid`: what holds at every moment of considerate calls, however they interleave.
* `handles_dangle`: a handle that gets out of an assertion that fails, and a stage of another call
  under the name of such an assertion.
-/

namespace CheckedFlow

open Site

/-- What is registered for an assertion reads stages that the call knows. Other stages may be
anything. -/
def Wired : Rule := fun sc stage =>
  sc.checking = true → ∀ i ∈ stage.operation.inputs, ∃ r ∈ sc.known, r.port.node = i

theorem Wired.admits : Rule.Admits Wired := by
  intro sc stage hreads _ i hi
  obtain ⟨port, hport, rfl⟩ := hreads.inputs i hi
  obtain ⟨r, hr, rfl⟩ := List.mem_map.mp hport
  exact ⟨r, hr, rfl⟩

/-- A call that is not an assertion may be made with any handles. -/
theorem Wired.fits_stage (c : StageCall) (given : List Ref) :
    (BuilderCall.stage c).Fits Wired given :=
  fun _ _ _ hchecking => nomatch hchecking

/-- Let `s` be a site that calls reached from an empty graph by considerate steps, and `s'` one that
they reached later. The stages that returned handles denote, those of all other handles that are out,
and those that a call knows while it goes on, are the ones that the handles were made for, and stay
so. A step removes stages of its own call only, and none whose handle is out. An assertion that
returned well keeps all its stages, and they read stages before them. -/
theorem handles_stay_valid {s s' : Site Wired} (h : Run Considerate {} s)
    (h' : Run Considerate s s') :
    s'.graph.stages = s'.placed.map Placed.stage ∧
    (∀ ret ∈ s.returned, ∀ ports, ret.result = .ok ports → ∀ port ∈ ports,
      ∃ r ∈ ret.scope.own, r.port = port ∧ r ∈ s.handed) ∧
    (∀ r ∈ s.handed, ∃ e, Denotes s.placed r e ∧ Denotes s'.placed r e) ∧
    (∀ id c, s'.calls id = some c → ∀ r ∈ c.scope.known, ∃ e, Denotes s'.placed r e) ∧
    (∀ a s'', s'.Considerate a → Step s' a s'' → ∀ e ∈ s'.placed, e ∉ s''.placed →
      a = .work e.owner ∧ e.ref ∉ s'.handed) ∧
    (∀ ret ∈ s.returned, ∀ ports, ret.result = .ok ports → ret.scope.undone = false ∧
      ∀ r ∈ ret.scope.own, ∃ e, Denotes s'.placed r e ∧ e.owner = ret.id ∧
        (ret.scope.checking = true → ∀ i ∈ e.stage.operation.inputs, i < e.node ∧
          ∃ r' ∈ e.scope.known, r'.port.node = i ∧ ∃ e', Denotes s'.placed r' e')) := by
  have hs : s.Sound := h.sound sound_new
  have hs' : s'.Sound := h'.sound hs
  refine ⟨hs'.stages.symm, fun ret hret ports hports port hport => ?_, fun r hr => ?_,
    fun id c hc r hr => hs'.known hc hr, fun a s'' _ hstep e he hgone => hstep.removed hs' he hgone,
    fun ret hret ports hports => ?_⟩
  · obtain ⟨-, -, hreturns, hkept⟩ := hs.returned ret hret
    obtain ⟨t, ht⟩ := (hreturns.2 ports hports).2 port hport
    exact ⟨_, ht, rfl, (hkept _ ht).1⟩
  · obtain ⟨e, he⟩ := hs.handed r hr
    exact ⟨e, he, h'.persists hs hr he⟩
  · obtain ⟨-, -, hreturns, hkept⟩ := hs.returned ret hret
    refine ⟨(hreturns.2 ports hports).1, fun r hr => ?_⟩
    obtain ⟨hout, e, he, howner, hchecking⟩ := hkept r hr
    have he' : Denotes s'.placed r e := h'.persists hs hout he
    obtain ⟨hrule, hknown⟩ := hs'.links e he'.mem
    refine ⟨e, he', howner, fun hcheck i hi => ?_⟩
    obtain ⟨r', hr', rfl⟩ := hrule (hchecking.trans hcheck) i hi
    exact ⟨(hknown r' hr').1, r', hr', rfl, (hknown r' hr').2⟩

/-! ## An assertion that fails -/

/-- A source that registers a stage and then finds no value. -/
def fickle : Evidence (.list .boolean) := fun p under => do
  let _ ← p.source .boolean (under ++ "/Inner") [true] (bitCodec none)
  throw (.internal (.told "no value"))

theorem fickle_fair (given : List Ref) (p : Pipeline) : fickle.Fair Wired given p :=
  fun _ _ _ _ _ => (Pipeline.source_keeps Wired.admits ..).bind fun _ _ _ _ => .throw _

/-- The assertion `C` of what the source finds. -/
def fickleCall : BuilderCall :=
  .assertion (.apply (twice .bounded) "C" (.value fickle fun _ => ⟨.passed, []⟩))

theorem fickleCall_keeps (given : List Ref) :
    fickleCall.run.Keeps Wired Scope.Returns (fickleCall.start given) :=
  BuilderCall.keeps Wired.admits (fickle_fair given _)

/-- A source of one bit. -/
def bitCall (name : String) : BuilderCall :=
  .stage (.create (k := .boolean) (twice .bounded) name [(true, .least)] (bitCodec none))

theorem bitCall_keeps (name : String) (given : List Ref) :
    (bitCall name).run.Keeps Wired Scope.Returns ((bitCall name).start given) :=
  BuilderCall.keeps Wired.admits (Wired.fits_stage _ given)

/-- An impulse. -/
def impulseCall (name : String) : BuilderCall := .stage (.impulse (twice .bounded) name)

theorem impulseCall_keeps (name : String) (given : List Ref) :
    (impulseCall name).run.Keeps Wired Scope.Returns ((impulseCall name).start given) :=
  BuilderCall.keeps Wired.admits (Wired.fits_stage _ given)

/-- The handle to a source is valid after an assertion was taken back, with the stage of its source. -/
theorem handles_stay_valid_taken_back :
    ∃ s s' : Site Wired, Run Considerate {} s ∧ Run Considerate s s' ∧
      (∃ r ∈ s.handed, r.port = ⟨0, .elements .boolean⟩ ∧
        ∃ e, Denotes s.placed r e ∧ Denotes s'.placed r e) ∧
      (∃ ret ∈ s'.returned, ∃ e, ret.result = .error e) ∧ s'.graph.stageNames = ["Bits"] := by
  obtain ⟨s, sc, hrun, hgraph, -, hcalls, -, hreturned⟩ :=
    can_call (s := {}) Solo (bitCall_keeps "Bits" []) rfl (fun _ => rfl)
      fun _ _ => Own.solo
  have hquiet : s.Quiet := fun id => by rw [hcalls]
  obtain ⟨s', sc', hrun', hgraph', -, -, -, hreturned'⟩ :=
    can_call Solo (fickleCall_keeps s.handed) (hquiet _) hquiet fun _ _ => Own.solo
  obtain ⟨hcons, halone⟩ := hrun.considerate (Quiet.alone fun _ => rfl)
  obtain ⟨hcons', -⟩ := hrun'.considerate halone
  obtain ⟨-, hports, hdenotes, -⟩ := handles_stay_valid hcons hcons'
  obtain ⟨r, -, hr, hout⟩ := hports _ (by rw [hreturned]; exact List.mem_cons_self) _ rfl _
    List.mem_cons_self
  refine ⟨s, s', hcons, hcons', ⟨r, hout, hr, hdenotes r hout⟩,
    ⟨_, by rw [hreturned']; exact List.mem_cons_self, ?_⟩, ?_⟩
  · rw [hgraph]
    exact ⟨_, rfl⟩
  · rw [hgraph', hgraph]
    rfl

/-- Handles that do not stay valid. In the first run a handle gets out of an assertion that then
fails, and the next call gets the number of its stage. In the second one a call returns the handle to
a stage that it named under an assertion that then fails, and the stage is gone. -/
theorem handles_dangle :
    (∃ s s' : Site Wired, Run (fun _ _ => True) {} s ∧ Run (fun _ _ => True) s s' ∧
      (∃ r ∈ s.handed, r.port = ⟨0, .elements .boolean⟩) ∧
      s.graph.stageNames = ["C/CreateActual/Inner"] ∧ s'.graph.stageNames = ["T"]) ∧
    (∃ s s' : Site Wired, Run (fun _ _ => True) {} s ∧ Run (fun _ _ => True) s s' ∧
      (∃ ret ∈ s.returned, ret.result = .ok [⟨0, .elements .boolean⟩]) ∧
      s.graph.stageNames = ["C/Mine"] ∧ s'.graph.stageNames = []) := by
  have hall {s s' : Site Wired} (h : Run (Own 0) s s') : Run (fun _ _ => True) s s' :=
    h.imp fun _ _ _ => trivial
  -- in both runs, the assertion begins and counts no stages
  obtain ⟨s₀, c₀, hbegin, hrest₀, hcalls₀, hgraph₀, hclock₀, -⟩ :=
    can_begin (fun _ _ => True) (s := {}) (fickleCall_keeps []) trivial
  have hc₀ : s₀.calls 0 = some c₀ := by rw [hcalls₀, Function.update_self]
  obtain ⟨s, c, h⟩ := can_work hc₀ (by rw [hrest₀, hgraph₀]; rfl)
  have hrun : Run (fun _ _ => True) {} s := hbegin.trans (hall h.run)
  have hc : s.calls 0 = some c := by rw [h.calls, Function.update_self]
  constructor
  · obtain ⟨s₁, c₁, h₁⟩ := can_work hc (by rw [h.rest, h.graph]; rfl)
    have hc₁ : s₁.calls 0 = some c₁ := by rw [h₁.calls, Function.update_self]
    obtain ⟨r, hr, hport⟩ : ∃ r ∈ c₁.scope.own, r.port = ⟨0, .elements .boolean⟩ := by
      obtain ⟨n, hn⟩ := h₁.scope
      rw [h.rest, h.graph] at hn
      rw [hn.2]
      exact ⟨_, List.mem_cons_self, rfl⟩
    let leaked : Site Wired := { s₁ with handed := r :: s₁.handed }
    have hleak : Step s₁ (.leak 0 r) leaked := .leak hc₁ hr
    obtain ⟨s₂, sc, h₂⟩ := can_complete (s := leaked) hc₁
    have hfree : s₂.calls s₂.clock = none := by
      rw [h₂.calls, h₁.calls, h.calls, hcalls₀]
      simp [Function.update_apply]
    obtain ⟨s₃, -, hrun₃, hgraph₃, -⟩ := can_call (fun _ _ => True) (impulseCall_keeps "T" s₂.handed)
      hfree trivial fun _ _ _ => trivial
    refine ⟨leaked, s₃, .step (hrun.trans (hall h₁.run)) trivial hleak, (hall h₂.run).trans hrun₃,
      ⟨r, List.mem_cons_self, hport⟩, ?_, ?_⟩
    · simp only [leaked, h₁.graph]
      rfl
    · rw [hgraph₃, h₂.graph, h₁.rest]
      simp only [leaked, h₁.graph]
      rfl
  · have hfree : s.calls s.clock = none := by
      rw [h.calls, hcalls₀, h.clock, hclock₀]
      rfl
    obtain ⟨s₁, sc, hrun₁, hgraph₁, -, hcalls₁, -, hreturned₁⟩ :=
      can_call (fun _ _ => True) (bitCall_keeps "C/Mine" s.handed) hfree trivial
        fun _ _ _ => trivial
    obtain ⟨s₂, sc₂, h₂⟩ := can_complete (hcalls₁ ▸ hc)
    refine ⟨s₁, s₂, hrun.trans hrun₁, hall h₂.run,
      ⟨_, by rw [hreturned₁]; exact List.mem_cons_self, ?_⟩, ?_, ?_⟩
    · rw [h.graph]
      rfl
    · rw [hgraph₁, h.graph]
      rfl
    · rw [h₂.graph, hgraph₁, h.rest, h.graph]
      rfl

end CheckedFlow
