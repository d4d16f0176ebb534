import CheckedFlow.Proofs.Check.Firing
import CheckedFlow.Proofs.Run.Sequential

/-!
# The windows of elements

A stage's function emits in the window of the element that it processes, and a window function gives
every timestamp an interval or every timestamp the global window. So whatever the stages before it
are, a stage leaves elements that are all in the global window, or none of which is.

* `DoFn.EmitsInWindow`: a function that emits in the window of its element.
* `Windowed.Uniform`: elements that are all in the global window, or all in intervals.
* `Operation.evaluate_uniform`: a stage leaves uniform elements behind uniform ones;
  `runStages_uniform`: every stage of a run does.
-/

namespace CheckedFlow

variable {α β : Type} {options : PipelineOptions} {outputs : Outputs}

/-! ## Functions and operations -/

/-- The function emits in the window of the element that it processes. -/
def DoFn.EmitsInWindow (f : DoFn α β) : Prop :=
  ∀ s x, ∀ y ∈ (f s x).emitted, y.window = s.window

theorem DoFn.map_emitsInWindow (f : α → β) : (DoFn.map f).EmitsInWindow := by
  intro s x y hy
  rw [List.mem_singleton.mp hy]
  rfl

theorem DoFn.filter_emitsInWindow (p : α → Bool) : (DoFn.filter p).EmitsInWindow := by
  intro s x y hy
  simp only [DoFn.filter] at hy
  split at hy
  · rw [List.mem_singleton.mp hy]
    rfl
  · cases hy

/-- A firing emits nothing. -/
theorem fire_emitsInWindow (policy : FailurePolicy) (body : CheckBody) :
    DoFn.EmitsInWindow fun (s : Surroundings) (_ : α) => fire policy s.stage (body s) := by
  intro s x y hy
  rw [fire_emitted] at hy
  cases hy

/-- The function of the operation, if it has one, emits in the window of its element. -/
def Operation.EmitsInWindow : Operation → Prop
  | parDo _ _ _ _ doFn => doFn.EmitsInWindow
  | _ => True

/-! ## Uniform elements -/

/-- The elements are all in the global window, or none of them is. -/
def Windowed.Uniform (xs : List (Windowed α)) : Prop :=
  (∀ x ∈ xs, x.window = .global) ∨ ∀ x ∈ xs, x.window ≠ .global

/-- If the output is made of elements, they are uniform. -/
def Output.Uniform : Output → Prop
  | elements _ items => Windowed.Uniform items
  | view .. => True

namespace Windowed.Uniform

variable {xs : List (Windowed α)}

theorem of_global (h : ∀ x ∈ xs, x.window = .global) : Uniform xs := .inl h

/-- What is emitted in the windows of uniform elements is uniform. -/
theorem flatMap (h : Uniform xs) {f : Windowed α → List (Windowed β)}
    (hf : ∀ x ∈ xs, ∀ y ∈ f x, y.window = x.window) : Uniform (xs.flatMap f) := by
  refine h.imp (fun h y hy => ?_) fun h y hy => ?_
  all_goals
    obtain ⟨x, hx, hyx⟩ := List.mem_flatMap.mp hy
    rw [hf x hx y hyx]
    exact h x hx

/-- A window function gives intervals, or the global window. -/
theorem assign (f : WindowFn) (xs : List (Windowed α)) :
    Uniform (xs.map fun x => { x with window := f.assign x.timestamp }) := by
  cases f with
  | global => exact .inl fun y hy => by obtain ⟨x, -, rfl⟩ := List.mem_map.mp hy; rfl
  | fixed size => exact .inr fun y hy => by obtain ⟨x, -, rfl⟩ := List.mem_map.mp hy; nofun

end Windowed.Uniform

/-! ## Stages -/

/-- Elements that a stage reads are uniform if all outputs are. -/
theorem Outputs.elements_uniform {k : Kind} {node : NodeId} {consumer : String}
    {items : List (Windowed k.Value)} (hs : ∀ o ∈ outputs, o.Uniform)
    (h : outputs.elements k node consumer = .ok items) : Windowed.Uniform items :=
  hs _ (List.mem_of_getElem? (elements_getElem? h))

theorem decodeSource_window {γ : Type} {stage : String} {codec : Codec γ}
    {encoded : List (Bytes × Timestamp)} {items : List (Windowed γ)}
    (h : decodeSource stage codec encoded = .ok items) : ∀ x ∈ items, x.window = .global := by
  induction encoded generalizing items with
  | nil => cases h; nofun
  | cons item encoded ih =>
    obtain ⟨bytes, t⟩ := item
    unfold decodeSource at h
    split at h
    · cases h
    · obtain ⟨rest, hrest, h⟩ := Except.bind_ok h
      cases h
      exact List.forall_mem_cons.mpr ⟨rfl, ih hrest⟩

/-- Behind uniform elements, a stage that emits in the windows of its elements leaves uniform
elements. -/
theorem Operation.evaluate_uniform {op : Operation} {stage : String} {o : Output}
    (hop : op.EmitsInWindow) (hs : ∀ o ∈ outputs, o.Uniform)
    (h : (op.evaluate options stage outputs).result = .ok o) : o.Uniform := by
  cases op with
  | create k codec encoded =>
    obtain ⟨items, hitems, hr⟩ := Except.bind_ok (Evaluated.pure_ok h)
    cases hr
    exact .of_global (decodeSource_window hitems)
  | impulse =>
    cases h
    exact .of_global fun x hx => by rw [List.eq_of_mem_replicate hx]; rfl
  | windowInto k input f =>
    obtain ⟨items, -, hr⟩ := Except.bind_ok (Evaluated.pure_ok h)
    cases hr
    exact .assign f items
  | parDo source target input declared doFn =>
    simp only [evaluate] at h
    split at h
    · cases h
    · rename_i items sideInputs hinputs
      obtain ⟨items', hitems, hr⟩ := Except.bind_ok hinputs
      obtain ⟨sideInputs', -, hr⟩ := Except.bind_ok hr
      cases hr
      obtain ⟨-, rfl⟩ := evaluateParDo_ok h
      exact (Outputs.elements_uniform hs hitems).flatMap fun x _ y hy => hop _ _ y hy
  | view source target input f =>
    obtain ⟨items, -, hr⟩ := Except.bind_ok (Evaluated.pure_ok h)
    cases hr
    trivial

/-- In a run of stages that emit in the windows of their elements, every output is uniform. -/
theorem runStages_uniform {ss : List Stage} {s : RunState}
    (hss : ∀ stage ∈ ss, stage.operation.EmitsInWindow) (hs : ∀ o ∈ s.outputs, o.Uniform) :
    ∀ o ∈ (runStages options ss s).1.outputs, o.Uniform := by
  induction ss generalizing s with
  | nil => exact hs
  | cons stage ss ih =>
    obtain ⟨hstage, hss⟩ := List.forall_mem_cons.mp hss
    simp only [runStages]
    split
    · rename_i o ho
      refine ih hss fun o' ho' => ?_
      rw [RunState.applyAll_outputs] at ho'
      rcases List.mem_append.mp ho' with ho' | ho'
      · exact hs o' ho'
      · rw [List.mem_singleton.mp ho']
        exact Operation.evaluate_uniform hstage hs ho
    · rw [RunState.applyAll_outputs]
      exact hs

end CheckedFlow
