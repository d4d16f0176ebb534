import CheckedFlow.Proofs.Build.Calls
import CheckedFlow.Proofs.Check.Firing
import CheckedFlow.Proofs.Run.Sequential

/-!
# What stages read in a run

A stage that reads what the stages before it leave finds it there: the elements of its input and the
views that it declared, of the kinds that it reads them as. A view can refuse the elements of a
window, but reading it is never a fault of the engine.

* `Output.Fits`: an output of a sort, from which no fault is read; `Operation.evaluate_fits`.
* `runStages_view`, `runStages_windowInto`: what a view holds after a run, and what is left by a stage
  that assigns windows.
* `Port.Holds`: the outputs have what a handle says about its stage; `runStages_holds`.
* `Operation.Finds`: an operation finds what it reads; `Operation.ReadsFrom.finds`: it does if what
  it reads is held.
* `Operation.Finds.not_wiring`: then it does not fail with a wiring fault.
* `runStages_stopped`: the stage that ends a run, and the run before it.
-/

namespace CheckedFlow

variable {options : PipelineOptions} {outputs : Outputs} {k : Kind} {stage : String}

/-! ## Outputs -/

/-- Reading a view is no fault of the engine, whatever the view function makes of the elements. -/
theorem ViewContents.read_ne_internal {α β : Type} (name : String) (f : ViewFn α β)
    (xs : List (Windowed α)) (w : Window) (fault : EngineFault) :
    (materialize name f xs).read w ≠ .error (.internal fault) := by
  have hvalue (ys : List α) : valueOf name f ys ≠ .error (.internal fault) := by
    unfold valueOf
    split
    · nofun
    · rename_i e _
      cases e <;> nofun
  rw [read_materialize]
  split
  · nofun
  · exact hvalue _

/-- The output is of the sort. If it is a view, no window reads a fault of the engine from it. -/
structure Output.Fits (o : Output) (sort : OutputSort) : Prop where
  sort : o.sort = sort
  read : ∀ k contents, o = .view k contents →
    ∀ w fault, contents.read w ≠ .error (.internal fault)

/-- An evaluated operation leaves what it says. -/
theorem Operation.evaluate_fits {op : Operation} {o : Output}
    (h : (op.evaluate options stage outputs).result = .ok o) : o.Fits op.leaves := by
  refine ⟨Operation.evaluate_sort h, fun k contents ho w fault => ?_⟩
  subst ho
  have hsort : op.leaves = .view k := (Operation.evaluate_sort h).symm
  cases op with
  | view source target input f =>
    obtain ⟨items, -, hr⟩ := Except.bind_ok (Evaluated.pure_ok h)
    cases hr
    exact ViewContents.read_ne_internal stage f items w fault
  | _ => cases hsort

/-! ## What handles say -/

/-- The outputs have at the port's number what the port says. -/
def Port.Holds (port : Port) (outputs : Outputs) : Prop :=
  ∃ o, outputs[port.node]? = some o ∧ o.Fits port.leaves

/-- After a run of stages, the outputs have what is said of each of them. -/
theorem runStages_holds {ss : List Stage} {g : Graph} {s : RunState} {n : NodeId} {stage : Stage}
    (h : runStages options ss { graph := g } = (s, none)) (hn : ss[n]? = some stage) :
    (stage.portAt n).Holds s.outputs :=
  runStages_getElem? (fun _ _ _ => Operation.evaluate_fits) h hn

theorem Port.Holds.elements {n : NodeId} (h : Port.Holds ⟨n, .elements k⟩ outputs)
    (consumer : String) : ∃ items, outputs.elements k n consumer = .ok items := by
  obtain ⟨o, ho, hfits⟩ := h
  obtain ⟨items, rfl⟩ := Output.eq_elements hfits.sort
  exact ⟨items, Outputs.elements_ok ho⟩

/-- After a run of stages, a view among them holds what it makes of the elements that its input
left. -/
theorem runStages_view {ss : List Stage} {g : Graph} {s : RunState} {n input : NodeId}
    {name : String} {l : Kind} {f : ViewFn k.Value l.Value}
    (h : runStages options ss { graph := g } = (s, none))
    (hn : ss[n]? = some ⟨name, .view k l input f⟩) :
    ∃ items, s.outputs[input]? = some (.elements k items) ∧
      s.outputs[n]? = some (.view l (.materialize name f items)) := by
  obtain ⟨earlier, o, ho, hat, hkept⟩ := runStages_leaves h hn
  obtain ⟨items, hitems, hr⟩ := Except.bind_ok (Evaluated.pure_ok ho)
  cases hr
  exact ⟨items, hkept (Outputs.elements_getElem? hitems), hat⟩

/-- After a run of stages, one among them that assigns windows has left the elements of its input,
each in the window of its timestamp. -/
theorem runStages_windowInto {ss : List Stage} {g : Graph} {s : RunState} {n input : NodeId}
    {name : String} {f : WindowFn} (h : runStages options ss { graph := g } = (s, none))
    (hn : ss[n]? = some ⟨name, .windowInto k input f⟩) :
    ∃ items, s.outputs[input]? = some (.elements k items) ∧ s.outputs[n]? =
      some (.elements k (items.map fun x => { x with window := f.assign x.timestamp })) := by
  obtain ⟨earlier, o, ho, hat, hkept⟩ := runStages_leaves h hn
  obtain ⟨items, hitems, hr⟩ := Except.bind_ok (Evaluated.pure_ok ho)
  cases hr
  exact ⟨items, hkept (Outputs.elements_getElem? hitems), hat⟩

/-- What is found for a number among the declared views is the output of the number. -/
theorem Outputs.sideInputs_lookup {consumer : String} {declared : List SideInput}
    {found : List (NodeId × Output)} (h : outputs.sideInputs consumer declared = .ok found)
    {n : NodeId} {o : Output} (hn : found.lookup n = some o) : outputs[n]? = some o := by
  rw [(lookup_sideInputs h).2 n] at hn
  split at hn
  · exact hn
  · cases hn

/-- A stage reads no fault of the engine from a view that is held, whether it declared it or not. -/
theorem Surroundings.sideInput_ne_internal {s : Surroundings} {consumer : String}
    {declared : List SideInput} (hs : outputs.sideInputs consumer declared = .ok s.sideInputs)
    {v : View k} (hv : v.port.Holds outputs) (fault : EngineFault) :
    s.sideInput v ≠ .error (.internal fault) := by
  obtain ⟨o, ho, hfits⟩ := hv
  obtain ⟨contents, rfl⟩ := Output.eq_view hfits.sort
  unfold Surroundings.sideInput
  cases hl : s.sideInputs.lookup v.node with
  | none => nofun
  | some o' =>
    have ho' := (Outputs.sideInputs_lookup hs hl).symm.trans ho
    cases ho'
    simp only [Output.view?_view]
    exact hfits.read k contents rfl s.window fault

/-! ## Operations that find what they read -/

/-- An operation of the stage `stage` finds the elements that it reads and the views that it
declared, and whichever of the views `ports` its function reads, it reads no fault of the engine. -/
def Operation.Finds (stage : String) (ports : List Port) (outputs : Outputs) : Operation → Prop
  | create .. | impulse => True
  | windowInto k input _ => ∃ items, outputs.elements k input stage = .ok items
  | parDo source _ input declared _ => (∃ items, outputs.elements source input stage = .ok items) ∧
      ∃ sideInputs, outputs.sideInputs stage declared = .ok sideInputs ∧
        ∀ s : Surroundings, s.sideInputs = sideInputs → ∀ (k : Kind) (v : View k), v.port ∈ ports →
          ∀ fault, s.sideInput v ≠ .error (.internal fault)
  | view source _ input _ => ∃ items, outputs.elements source input stage = .ok items

/-- An operation finds what it reads, if it reads known stages and they are evaluated. -/
theorem Operation.ReadsFrom.finds {ports : List Port} {op : Operation} (h : op.ReadsFrom ports)
    (hports : ∀ port ∈ ports, port.Holds outputs) (stage : String) :
    op.Finds stage ports outputs := by
  cases op with
  | create => trivial
  | impulse => trivial
  | windowInto k input f => exact (hports _ h).elements stage
  | parDo source target input declared doFn =>
    obtain ⟨hinput, hdeclared, -⟩ := h
    have houtputs : ∀ v ∈ declared, ∃ o, outputs[v.node]? = some o := by
      intro v hv
      obtain ⟨m, hm⟩ := hdeclared v hv
      obtain ⟨o, ho, -⟩ := hports _ hm
      exact ⟨o, ho⟩
    obtain ⟨found, hfound⟩ := Outputs.sideInputs_ok stage houtputs
    refine ⟨(hports _ hinput).elements stage, found, hfound, fun s hs m v hv fault => ?_⟩
    rw [← hs] at hfound
    exact Surroundings.sideInput_ne_internal hfound (hports _ hv) fault
  | view source target input f => exact (hports _ h).elements stage

/-- A stage fails only with the error of an element. -/
theorem processInChunks_failed {α β : Type} {workers : Nat} {f : Windowed α → Processed β}
    {xs : List (Windowed α)} {e : PipelineError}
    (h : (processInChunks workers f xs).ending = .failed e) :
    ∃ x ∈ xs, (f x).ending = .failed e := by
  rw [(processInChunks_runChunk workers xs).2] at h
  induction xs with
  | nil => cases h
  | cons x xs ih =>
    rw [runChunk_cons] at h
    by_cases hx : (f x).ending = .done
    · rw [Processed.andThen_done hx] at h
      obtain ⟨y, hy, hfy⟩ := ih h
      exact ⟨y, List.mem_cons_of_mem x hy, hfy⟩
    · rw [Processed.andThen_of_ne hx] at h
      exact ⟨x, List.mem_cons_self, h⟩

theorem decodeSource_ne_internal {α : Type} {codec : Codec α} {encoded : List (Bytes × Timestamp)}
    (fault : EngineFault) : decodeSource stage codec encoded ≠ .error (.internal fault) := by
  induction encoded with
  | nil => nofun
  | cons item encoded ih =>
    obtain ⟨bytes, t⟩ := item
    unfold decodeSource
    split
    · nofun
    · cases h : decodeSource stage codec encoded with
      | ok items => nofun
      | error e => exact fun he => ih (h.trans (by cases he; rfl))

/-- An operation that finds what it reads does not fail with a wiring fault, if its function reads
known views only. -/
theorem Operation.Finds.not_wiring {ports : List Port} {op : Operation} {fault : EngineFault}
    (h : op.Finds stage ports outputs) (hreads : op.ReadsFrom ports)
    (hfail : (op.evaluate options stage outputs).result = .error (.failed (.internal fault))) :
    ¬ fault.IsWiring := by
  intro hwiring
  cases op with
  | create k codec encoded =>
    simp only [evaluate] at hfail
    cases hd : decodeSource stage codec encoded with
    | ok items => rw [hd] at hfail; cases hfail
    | error e =>
      rw [hd] at hfail
      cases hfail
      exact decodeSource_ne_internal fault hd
  | impulse => cases hfail
  | windowInto k input f =>
    obtain ⟨items, hitems⟩ := h
    simp only [evaluate, hitems] at hfail
    cases hfail
  | view source target input f =>
    obtain ⟨items, hitems⟩ := h
    simp only [evaluate, hitems] at hfail
    cases hfail
  | parDo source target input declared doFn =>
    obtain ⟨⟨items, hitems⟩, sideInputs, hsides, hread⟩ := h
    simp only [evaluate, hitems, hsides] at hfail
    change (evaluateParDo options stage doFn sideInputs items).result = _ at hfail
    simp only [evaluateParDo] at hfail
    split at hfail
    · simp only [Processed.output] at hfail
      split at hfail
      · cases hfail
      · rename_i e he
        cases hfail
        -- a worker stopped at an element whose function read a known view
        obtain ⟨x, -, hx⟩ := processInChunks_failed he
        obtain ⟨m, v, hv, hfault⟩ := hreads.2.2 _ _ _ hx hwiring
        exact hread _ rfl m v hv fault hfault
      · cases hfail
        exact hwiring
    · cases hfail

/-! ## The stage that ends a run -/

/-- A run that does not come to its end was stopped by a stage, after a run of those before it. -/
theorem runStages_stopped {ss : List Stage} {s s' : RunState} {stop : Stop}
    (h : runStages options ss s = (s', some stop)) :
    ∃ n stage s₁, ss[n]? = some stage ∧ runStages options (ss.take n) s = (s₁, none) ∧
      (stage.operation.evaluate options stage.name s₁.outputs).result = .error stop := by
  induction ss generalizing s with
  | nil => cases h
  | cons stage ss ih =>
    simp only [runStages] at h
    split at h
    · rename_i o ho
      obtain ⟨n, stage', s₁, hn, hrun, hstop⟩ := ih h
      refine ⟨n + 1, stage', s₁, hn, ?_, hstop⟩
      simp only [List.take_succ_cons, runStages, ho]
      exact hrun
    · rename_i stop' hstop
      cases h
      exact ⟨0, stage, s, rfl, rfl, hstop⟩

end CheckedFlow
