import CheckedFlow.Run.Report
import Mathlib.Data.List.Forall2

/-!
# Runs, stage by stage

What a run of some stages says about a run of more of them, and what the outputs of a run are.

* `runStages_append`: the run of two lists of stages, one behind the other.
* `runStages_quiet`: a stage with an output and without effects.
* `runStages_at`, `runStages_leaves`: a stage in the middle of a run that comes to its end, and its
  output.
* `runStages_outputs`: a run that comes to its end has an output for every stage, of the sort that
  the stage's operation leaves (`Operation.leaves`).
* `runStages_graph`: a run changes the states of checks and nothing else of the graph, and does not
  depend on the graph that it starts with.
* `Dataset.In`, `View.In`: a handle that denotes a stage of the graph, with an output of its kind.
-/

namespace CheckedFlow

variable {options : PipelineOptions}

/-! ## Sorts of outputs -/

/-- What an output is made of. -/
inductive OutputSort where
  | elements (kind : Kind)
  | view (kind : Kind)
deriving DecidableEq, Repr

/-- What an output is made of. -/
def Output.sort : Output → OutputSort
  | elements k _ => .elements k
  | view k _ => .view k

/-- What an operation leaves to the stages after it. -/
def Operation.leaves : Operation → OutputSort
  | create k .. => .elements k
  | impulse => .elements .unit
  | windowInto k .. => .elements k
  | parDo _ target .. => .elements target
  | view _ target .. => .view target

theorem Output.eq_elements {o : Output} {k : Kind} (h : o.sort = .elements k) :
    ∃ items, o = .elements k items := by
  cases o with
  | elements kind items => cases h; exact ⟨items, rfl⟩
  | view kind contents => cases h

theorem Output.eq_view {o : Output} {k : Kind} (h : o.sort = .view k) :
    ∃ contents, o = .view k contents := by
  cases o with
  | elements kind items => cases h
  | view kind contents => cases h; exact ⟨contents, rfl⟩

@[simp] theorem Output.elements?_elements (k : Kind) (items : List (Windowed k.Value)) :
    (Output.elements k items).elements? k = some items := by
  simp [Output.elements?]

@[simp] theorem Output.view?_view (k : Kind) (contents : ViewContents k.Value) :
    (Output.view k contents).view? k = some contents := by
  simp [Output.view?]

/-- An evaluation that has a pure outcome succeeds exactly if the outcome does. -/
theorem Evaluated.pure_ok {r : Except PipelineError Output} {o : Output}
    (h : (Evaluated.pure r).result = .ok o) : r = .ok o := by
  cases r with
  | ok o' => cases h; rfl
  | error e => cases h

theorem Except.bind_ok {ε α β : Type} {x : Except ε α} {f : α → Except ε β} {y : β}
    (h : (x >>= f) = .ok y) : ∃ a, x = .ok a ∧ f a = .ok y := by
  cases x with
  | ok a => exact ⟨a, rfl, h⟩
  | error e => cases h

/-- An entry of a list with one more at its end is one of the list, or the new one. -/
theorem getElem?_concat_cases {α : Type} {xs : List α} {x y : α} {n : Nat}
    (h : (xs ++ [x])[n]? = some y) : xs[n]? = some y ∨ n = xs.length ∧ y = x := by
  rcases Nat.lt_or_ge n xs.length with hlt | hge
  · exact .inl ((List.getElem?_append_left hlt).symm.trans h)
  · rw [List.getElem?_append_right hge, List.getElem?_singleton] at h
    split at h
    · rename_i hz
      cases h
      exact .inr ⟨Nat.le_antisymm (Nat.le_of_sub_eq_zero hz) hge, rfl⟩
    · cases h

/-- The output of an evaluated operation is of the sort that the operation leaves. -/
theorem Operation.evaluate_sort {op : Operation} {stage : String} {outputs : Outputs} {o : Output}
    (h : (op.evaluate options stage outputs).result = .ok o) : o.sort = op.leaves := by
  cases op with
  | create k codec encoded =>
    obtain ⟨items, -, hr⟩ := Except.bind_ok (Evaluated.pure_ok h)
    cases hr; rfl
  | impulse => cases h; rfl
  | windowInto k input f =>
    obtain ⟨items, -, hr⟩ := Except.bind_ok (Evaluated.pure_ok h)
    cases hr; rfl
  | parDo source target input declared doFn =>
    simp only [Operation.evaluate] at h
    split at h
    · cases h
    · simp only [evaluateParDo] at h
      split at h
      · simp only [Processed.output] at h
        split at h <;> cases h
        rfl
      · cases h
  | view source target input f =>
    obtain ⟨items, -, hr⟩ := Except.bind_ok (Evaluated.pure_ok h)
    cases hr; rfl

/-! ## Runs of lists of stages -/

theorem runStages_append (ss ts : List Stage) (s : RunState) :
    runStages options (ss ++ ts) s =
      match runStages options ss s with
      | (s', none) => runStages options ts s'
      | (s', some stop) => (s', some stop) := by
  induction ss generalizing s with
  | nil => rfl
  | cons stage ss ih =>
    simp only [List.cons_append, runStages]
    split
    · exact ih _
    · rfl

theorem runStages_append_ok {ss ts : List Stage} {s s' : RunState}
    (h : runStages options ss s = (s', none)) :
    runStages options (ss ++ ts) s = runStages options ts s' := by
  rw [runStages_append, h]

/-- A run that comes to its end came to the end of its first stages. -/
theorem runStages_split {ss ts : List Stage} {s s' : RunState}
    (h : runStages options (ss ++ ts) s = (s', none)) :
    ∃ s₁, runStages options ss s = (s₁, none) ∧ runStages options ts s₁ = (s', none) := by
  rw [runStages_append] at h
  split at h
  · rename_i s₁ hs
    exact ⟨s₁, hs, h⟩
  · cases h

/-- A stage that only leaves the output `o`. -/
theorem runStages_quiet {stage : Stage} {ss : List Stage} {s : RunState} {o : Output}
    (h : stage.operation.evaluate options stage.name s.outputs = { result := .ok o }) :
    runStages options (stage :: ss) s =
      runStages options ss { s with outputs := s.outputs ++ [o] } := by
  simp only [runStages, h, RunState.applyAll, List.foldl_nil]

theorem RunState.applyAll_outputs (stage : String) (s : RunState) (es : List Effect) :
    (s.applyAll stage es).outputs = s.outputs := by
  induction es generalizing s with
  | nil => rfl
  | cons e es ih =>
    refine (ih (s.apply stage e)).trans ?_
    cases e <;> rfl

/-- What holds of the output of every evaluated stage holds of all outputs of a run that comes to its
end. -/
theorem runStages_forall₂ {P : Stage → Output → Prop} {ss : List Stage} {s s' : RunState}
    (hP : ∀ (stage : Stage) outputs o,
      (stage.operation.evaluate options stage.name outputs).result = .ok o → P stage o)
    (h : runStages options ss s = (s', none)) :
    ∃ new, s'.outputs = s.outputs ++ new ∧ List.Forall₂ P ss new := by
  induction ss generalizing s with
  | nil => cases h; exact ⟨[], by simp, .nil⟩
  | cons stage ss ih =>
    simp only [runStages] at h
    split at h
    · rename_i o ho
      obtain ⟨new, hn, hs⟩ := ih h
      refine ⟨o :: new, ?_, .cons (hP _ _ _ ho) hs⟩
      rw [hn]
      simp [RunState.applyAll_outputs]
    · cases h

/-- In a run that comes to its end, a stage was evaluated behind the outputs of those before it, and
its output is among the run's. -/
theorem runStages_at {ss : List Stage} {g : Graph} {s : RunState} {n : NodeId} {stage : Stage}
    (h : runStages options ss { graph := g } = (s, none)) (hn : ss[n]? = some stage) :
    ∃ s₁ o, runStages options (ss.take n) { graph := g } = (s₁, none) ∧
      (stage.operation.evaluate options stage.name s₁.outputs).result = .ok o ∧
      s₁.outputs ++ [o] <+: s.outputs := by
  obtain ⟨hlt, rfl⟩ := List.getElem?_eq_some_iff.mp hn
  have hsplit : ss.take n ++ ss[n] :: ss.drop (n + 1) = ss := by
    rw [← List.drop_eq_getElem_cons hlt, List.take_append_drop]
  rw [← hsplit] at h
  obtain ⟨s₁, hbefore, h⟩ := runStages_split h
  simp only [runStages] at h
  split at h
  · rename_i o ho
    obtain ⟨new, hs, -⟩ := runStages_forall₂ (P := fun _ _ => True) (fun _ _ _ _ => trivial) h
    simp only [RunState.applyAll_outputs] at hs
    exact ⟨s₁, o, hbefore, ho, hs ▸ List.prefix_append _ _⟩
  · cases h

/-- In a run that comes to its end, the output of a node is what its stage was evaluated to, behind
outputs that the run still has. -/
theorem runStages_leaves {ss : List Stage} {g : Graph} {s : RunState} {n : NodeId} {stage : Stage}
    (h : runStages options ss { graph := g } = (s, none)) (hn : ss[n]? = some stage) :
    ∃ earlier o, (stage.operation.evaluate options stage.name earlier).result = .ok o ∧
      s.outputs[n]? = some o ∧
      ∀ {m : NodeId} {o' : Output}, earlier[m]? = some o' → s.outputs[m]? = some o' := by
  obtain ⟨s₁, o, hbefore, ho, rest, hrest⟩ := runStages_at h hn
  obtain ⟨new, hnew, hsorts⟩ := runStages_forall₂ (P := fun _ _ => True) (fun _ _ _ _ => trivial)
    hbefore
  have hlen : s₁.outputs.length = n := by
    have hlt := (List.getElem?_eq_some_iff.mp hn).1
    rw [hnew, List.nil_append, ← hsorts.length_eq, List.length_take,
      Nat.min_eq_left (Nat.le_of_lt hlt)]
  refine ⟨s₁.outputs, o, ho, ?_, fun {m o'} hm => ?_⟩
  · rw [← hrest, ← hlen, List.append_assoc, List.getElem?_append_right (Nat.le_refl _),
      Nat.sub_self]
    rfl
  · rw [← hrest, List.append_assoc,
      List.getElem?_append_left (List.getElem?_eq_some_iff.mp hm).1, hm]

/-- The output of every stage of a run that comes to its end is of the stage's sort. -/
theorem runStages_outputs {ss : List Stage} {s s' : RunState}
    (h : runStages options ss s = (s', none)) :
    ∃ new, s'.outputs = s.outputs ++ new ∧ List.Forall₂ (fun (stage : Stage) (o : Output) =>
      o.sort = stage.operation.leaves) ss new :=
  runStages_forall₂ (fun _ _ _ => Operation.evaluate_sort) h

/-- What holds of the output of every evaluated stage holds of the output of a node. -/
theorem runStages_getElem? {P : Stage → Output → Prop} {ss : List Stage} {g : Graph} {s : RunState}
    {n : NodeId} {stage : Stage}
    (hP : ∀ (stage : Stage) outputs o,
      (stage.operation.evaluate options stage.name outputs).result = .ok o → P stage o)
    (h : runStages options ss { graph := g } = (s, none)) (hn : ss[n]? = some stage) :
    ∃ o, s.outputs[n]? = some o ∧ P stage o := by
  obtain ⟨new, hs, hf⟩ := runStages_forall₂ hP h
  rw [List.nil_append] at hs
  obtain ⟨hlt, rfl⟩ := List.getElem?_eq_some_iff.mp hn
  have hlt' : n < new.length := hf.length_eq ▸ hlt
  exact ⟨new[n], by rw [hs, List.getElem?_eq_getElem hlt'], hf.get hlt hlt'⟩

theorem runStages_length {ss : List Stage} {s s' : RunState}
    (h : runStages options ss s = (s', none)) :
    s'.outputs.length = s.outputs.length + ss.length := by
  obtain ⟨new, hn, hs⟩ := runStages_outputs h
  rw [hn, List.length_append, hs.length_eq]

/-- A run of all stages of `g` has an output for each of them. -/
theorem runStages_outputs_length {g g₀ : Graph} {s : RunState}
    (h : runStages options g.stages { graph := g₀ } = (s, none)) :
    s.outputs.length = g.stages.length :=
  (runStages_length h).trans (Nat.zero_add _)

/-! ## What a run does to the graph -/

theorem RunState.applyAll_graph (stage : String) (s : RunState) (es : List Effect) :
    (s.applyAll stage es).graph.stages = s.graph.stages ∧
      (s.applyAll stage es).graph.names = s.graph.names := by
  induction es generalizing s with
  | nil => exact ⟨rfl, rfl⟩
  | cons e es ih =>
    obtain ⟨h₁, h₂⟩ := ih (s.apply stage e)
    refine ⟨h₁.trans ?_, h₂.trans ?_⟩ <;> cases e <;> rfl

/-- A run keeps the stages and their names. -/
theorem runStages_graph (ss : List Stage) (s : RunState) :
    (runStages options ss s).1.graph.stages = s.graph.stages ∧
      (runStages options ss s).1.graph.names = s.graph.names := by
  induction ss generalizing s with
  | nil => exact ⟨rfl, rfl⟩
  | cons stage ss ih =>
    have ha := RunState.applyAll_graph stage.name s
      (stage.operation.evaluate options stage.name s.outputs).effects
    simp only [runStages]
    split
    · exact ⟨(ih _).1.trans ha.1, (ih _).2.trans ha.2⟩
    · exact ha

theorem RunState.applyAll_withGraph (stage : String) (s : RunState) (g : Graph)
    (es : List Effect) :
    ∃ g', RunState.applyAll stage { s with graph := g } es =
      { s.applyAll stage es with graph := g' } := by
  induction es generalizing s g with
  | nil => exact ⟨g, rfl⟩
  | cons e es ih =>
    cases e with
    | count counter amount => exact ih (s.apply stage (.count counter amount)) g
    | enter state => exact ih (s.apply stage (.enter state)) (g.setCheck stage state)
    | note label value => exact ih (s.apply stage (.note label value)) g

/-- A run from another graph is the same run, with the states of its checks elsewhere. -/
theorem runStages_withGraph (ss : List Stage) (s : RunState) (g : Graph) :
    ∃ g', runStages options ss { s with graph := g } =
      ({ (runStages options ss s).1 with graph := g' }, (runStages options ss s).2) := by
  induction ss generalizing s g with
  | nil => exact ⟨g, rfl⟩
  | cons stage ss ih =>
    obtain ⟨g₁, h₁⟩ := RunState.applyAll_withGraph stage.name s g
      (stage.operation.evaluate options stage.name s.outputs).effects
    simp only [runStages, h₁]
    split
    · exact ih { s.applyAll stage.name _ with outputs := _ } g₁
    · exact ⟨g₁, rfl⟩

/-! ## Handles that denote a stage -/

/-- The dataset is the output of a stage of `g`, which leaves elements of its kind. -/
def Dataset.In {k : Kind} (d : Dataset k) (g : Graph) : Prop :=
  ∃ stage, g.stages[d.node]? = some stage ∧ stage.operation.leaves = .elements k

/-- The view is the output of a stage of `g`, which leaves a view of its kind. -/
def View.In {k : Kind} (v : View k) (g : Graph) : Prop :=
  ∃ stage, g.stages[v.node]? = some stage ∧ stage.operation.leaves = .view k

/-- The output of a node after a run of all stages of `g`. -/
theorem runStages_output {g g₀ : Graph} {s : RunState} {n : NodeId} {stage : Stage}
    (h : runStages options g.stages { graph := g₀ } = (s, none)) (hn : g.stages[n]? = some stage) :
    ∃ o, s.outputs[n]? = some o ∧ o.sort = stage.operation.leaves :=
  runStages_getElem? (fun _ _ _ => Operation.evaluate_sort) h hn

theorem Dataset.In.elements {k : Kind} {d : Dataset k} {g g₀ : Graph} {s : RunState}
    (hd : d.In g) (h : runStages options g.stages { graph := g₀ } = (s, none)) :
    ∃ items, s.outputs[d.node]? = some (.elements k items) := by
  obtain ⟨stage, hn, hl⟩ := hd
  obtain ⟨o, ho, hs⟩ := runStages_output h hn
  obtain ⟨items, rfl⟩ := Output.eq_elements (hs.trans hl)
  exact ⟨items, ho⟩

end CheckedFlow
