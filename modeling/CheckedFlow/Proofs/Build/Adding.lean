import CheckedFlow.Proofs.Build.Expansion

/-!
# Builder programs that only add

Between its checkpoint and its end, the program of a check only adds stages, all of them named under
the check's name. What such a program added can be taken back as a whole: the graph's stages and
its taken names are then what they were, in whichever state the program failed.

* `Build.Adds`: the programs that only add stages of a kind; `Build.Adds.run`: what they leave.
* `Stage.Under`: a stage that is named under a text; `Graph.discardSince_added`: taking such stages
  back.
* `Evidence.Registers`: the evidence of the library, with the names that it registers;
  `Operation.OfEvidence`: the operations that it registers. `attachCheck_adds`: what a check
  registers behind its evidence.
* `exec_allOrNothing_error`: a check that fails leaves the stages and names that it found.
-/

namespace CheckedFlow

variable {α β : Type} {P Q : Stage → Prop} {k l : Kind}

/-! ## Adding stages -/

/-- The program registers stages with the property `P` and takes none back. -/
def Build.Adds (P : Stage → Prop) : Build α → Prop
  | done _ => True
  | stageCount next => ∀ n, (next n).Adds P
  | register stage next => P stage ∧ ∀ r, (next r).Adds P
  | discardSince .. => False
  | nextAssertion next => ∀ name, (next name).Adds P
  | setCheck _ _ next => (next ()).Adds P

namespace Build.Adds

theorem bind {b : Build α} {f : α → Build β} (h : b.Adds P) (hf : ∀ x, (f x).Adds P) :
    (b.bind f).Adds P := by
  induction b with
  | done x => exact hf x
  | stageCount next ih => exact fun n => ih n (h n)
  | register stage next ih => exact ⟨h.1, fun r => ih r (h.2 r)⟩
  | discardSince checkpoint under next => exact h.elim
  | nextAssertion next ih => exact fun name => ih name (h name)
  | setCheck stage state next ih => exact ih () h

theorem imp {b : Build α} (h : b.Adds P) (hPQ : ∀ stage, P stage → Q stage) : b.Adds Q := by
  induction b with
  | done x => exact trivial
  | stageCount next ih => exact fun n => ih n (h n)
  | register stage next ih => exact ⟨hPQ stage h.1, fun r => ih r (h.2 r)⟩
  | discardSince checkpoint under next => exact h.elim
  | nextAssertion next ih => exact fun name => ih name (h name)
  | setCheck stage state next ih => exact ih () h

/-- The stages that the program added are at the end of the graph, under names that were free. -/
theorem run {b : Build α} (h : b.Adds P) (g : Graph) :
    ∃ added, (b.run g).2.stages = g.stages ++ added ∧
      (b.run g).2.names = (added.map Stage.name).reverse ++ g.names ∧
      ∀ stage ∈ added, P stage ∧ stage.name ∉ g.names := by
  induction b generalizing g with
  | done x => exact ⟨[], by simp [Build.run], by simp [Build.run], nofun⟩
  | stageCount next ih => exact ih _ (h _) g
  | register stage next ih =>
    simp only [Build.run, Graph.register_eq]
    split
    · exact ih _ (h.2 _) g
    split
    · exact ih _ (h.2 _) g
    · rename_i hfree
      obtain ⟨added, hstages, hnames, hadded⟩ :=
        ih _ (h.2 (.ok g.stages.length)) (g.extend [stage])
      refine ⟨stage :: added, by simp [hstages], by simp [hnames], fun st hst => ?_⟩
      rcases List.mem_cons.mp hst with rfl | hst
      · exact ⟨h.1, hfree⟩
      · exact ⟨(hadded st hst).1, fun hmem =>
          (hadded st hst).2 (List.mem_append_right _ hmem)⟩
  | discardSince checkpoint under next => exact h.elim
  | nextAssertion next ih => exact ih _ (h _) _
  | setCheck stage state next ih => exact ih _ h _

end Build.Adds

/-- The builder program registers stages with the property `P` and takes none back. -/
def Builder.Adds (P : Stage → Prop) (b : Builder α) : Prop := (ExceptT.run b).Adds P

namespace Builder.Adds

theorem pure (x : α) : Builder.Adds P (Pure.pure x) := trivial

theorem throw (e : PipelineError) : Builder.Adds P (MonadExcept.throw e : Builder α) := trivial

theorem ofExcept (r : Except PipelineError α) : Builder.Adds P (Builder.ofExcept r) := trivial

theorem register {stage : Stage} (h : P stage) : Builder.Adds P (Builder.register stage) :=
  ⟨h, fun _ => trivial⟩

theorem bind {b : Builder α} {f : α → Builder β} (h : Builder.Adds P b)
    (hf : ∀ x, Builder.Adds P (f x)) : Builder.Adds P (b >>= f) := by
  refine Build.Adds.bind h fun r => ?_
  cases r with
  | ok x => exact hf x
  | error e => trivial

/-- A call that registers one stage and returns a handle to it. -/
theorem handle {stage : Stage} {handle : NodeId → α} (h : P stage) :
    Builder.Adds P (Builder.register stage >>= fun n => Pure.pure (handle n)) :=
  (register h).bind fun _ => pure _

end Builder.Adds

/-! ## Names under a text -/

/-- The stage's name is `under`, a slash and more. -/
def Stage.Under (under : String) (stage : Stage) : Prop :=
  ∃ rest, stage.name = under ++ "/" ++ rest

theorem Stage.Under.isPrefixOf {under : String} {stage : Stage} (h : stage.Under under) :
    (under ++ "/").toList.isPrefixOf stage.name.toList = true := by
  obtain ⟨rest, h⟩ := h
  rw [h, @String.toList_append (under ++ "/"), List.isPrefixOf_iff_prefix]
  exact List.prefix_append _ _

/-- What is named under a part of a check is named under the check. -/
theorem Stage.Under.part {name part : String} {stage : Stage}
    (h : stage.Under (name ++ "/" ++ part)) : stage.Under name := by
  obtain ⟨rest, h⟩ := h
  exact ⟨part ++ "/" ++ rest, by rw [h]; simp only [String.append_assoc]⟩

/-- Taking back stages that were added under a text leaves the stages and names from before. -/
theorem Graph.discardSince_added {g g' : Graph} {added : List Stage} {under : String}
    (hstages : g'.stages = g.stages ++ added)
    (hnames : g'.names = (added.map Stage.name).reverse ++ g.names)
    (hadded : ∀ stage ∈ added, stage.Under under ∧ stage.name ∉ g.names) :
    (g'.discardSince g.stages.length (under ++ "/")).2.stages = g.stages ∧
      (g'.discardSince g.stages.length (under ++ "/")).2.names = g.names := by
  have hrecent : g'.stages.drop g.stages.length = added := by rw [hstages, List.drop_left]
  have hall : added.all (fun s => (under ++ "/").toList.isPrefixOf s.name.toList) = true :=
    List.all_eq_true.mpr fun stage hstage => (hadded stage hstage).1.isPrefixOf
  have hfree : ∀ n ∈ g.names, n ∉ added.map Stage.name := by
    intro n hn hmem
    obtain ⟨stage, hstage, rfl⟩ := List.mem_map.mp hmem
    exact (hadded stage hstage).2 hn
  simp only [Graph.discardSince, hrecent, hall, if_true]
  refine ⟨by rw [hstages, List.take_left], ?_⟩
  rw [hnames, List.filter_append, List.filter_eq_nil_iff.mpr, List.nil_append]
  · exact List.filter_eq_self.mpr fun n hn => decide_eq_true (hfree n hn)
  · simp

/-! ## Evidence -/

/-- The evidence of the library: that of a dataset, of given values and of a view. It registers
stages of these names, each behind the name under which it is expanded. -/
inductive Evidence.Registers : {k : Kind} → Evidence k → List String → Prop
  | ofDataset {k l : Kind} (d : Dataset k) (f : ViewFn k.Value l.Value)
      (fallback : Option (Codec k.Value)) (keyed : Bool) :
      Registers (ofDataset d f fallback keyed) ["/RewindowActuals", "/Isolate", "/View"]
  | ofValues {k l : Kind} (values : List k.Value) (codec : Option (Codec k.Value))
      (f : ViewFn k.Value l.Value) : Registers (ofValues values codec f) ["/Values", "/View"]
  | ofView {k : Kind} (v : View k) : Registers (ofView v) []

theorem Stage.under_append {name : String} {op : Operation} (suffix : String) :
    Stage.Under name ⟨name ++ ("/" ++ suffix), op⟩ :=
  ⟨suffix, (String.append_assoc ..).symm⟩

/-- An operation of evidence; a function among them answers every element with one and reads no
view. -/
def Operation.OfEvidence : Operation → Prop
  | parDo _ _ _ declared doFn => declared = [] ∧ ∃ f, doFn = DoFn.map f
  | impulse => False
  | _ => True

theorem Evidence.Registers.adds {e : Evidence k} {names : List String} (h : e.Registers names)
    (p : Pipeline) (under : String) :
    Builder.Adds (fun stage => stage.Under under ∧ stage.operation.OfEvidence) (e p under) := by
  cases h with
  | ofDataset d f fallback keyed =>
    simp only [Evidence.ofDataset]
    split
    · exact .throw _
    refine .bind ?_ fun codec => .bind ?_ fun moved => .bind ?_ fun copies => ?_
    · unfold codecOf
      split
      · exact .pure _
      · exact .throw _
    · exact .handle ⟨Stage.under_append "RewindowActuals", trivial⟩
    · exact .handle ⟨Stage.under_append "Isolate", rfl, codec.copy, rfl⟩
    · exact .handle ⟨Stage.under_append "View", trivial⟩
  | ofValues values codec f =>
    simp only [Evidence.ofValues]
    split
    · exact .throw _
    cases codec with
    | none => exact .throw _
    | some codec =>
      refine .bind (.bind (.ofExcept _) fun encoded => ?_) fun created => ?_
      · exact .handle ⟨Stage.under_append "Values", trivial⟩
      · exact .handle ⟨Stage.under_append "View", trivial⟩
  | ofView v =>
    simp only [Evidence.ofView]
    split
    · exact .throw _
    · exact .pure _

/-- A check adds its trigger and the stage that runs it. -/
theorem attachCheck_adds {p : Pipeline} {name : String} {body : CheckBody}
    {declared : List SideInput} (htrigger : P ⟨name ++ "/Trigger", .impulse⟩)
    (hcheck : ∀ n, P (checkStage (.ofRunMode p.options.runMode) body declared name n)) :
    Builder.Adds P (attachCheck p name body declared) := by
  refine .bind (.handle htrigger) fun trigger => ?_
  refine .bind (.handle (hcheck trigger.node)) fun _ => ?_
  exact .bind trivial fun _ => .pure _

/-! ## Taking back -/

/-- A program that only adds stages under its name and fails leaves the stages and names that it
found. -/
theorem exec_allOrNothing_error {name : String} {build : Builder α} {g g' : Graph}
    {e : PipelineError} (h : Builder.Adds (Stage.Under name) build)
    (he : Builder.exec (allOrNothing name build) g = (.error e, g')) :
    g'.stages = g.stages ∧ g'.names = g.names := by
  obtain ⟨added, hstages, hnames, hadded⟩ := Build.Adds.run h g
  rw [allOrNothing, Builder.exec_bind, Builder.exec_stageCount] at he
  simp only [Builder.exec_tryCatch] at he
  split at he
  · cases he
  · rename_i g₁ hb
    rw [Builder.exec_bind, Builder.exec_discardSince] at he
    cases he
    have hg : g₁ = (Build.run (ExceptT.run build) g).2 := (congrArg Prod.snd hb).symm
    exact Graph.discardSince_added (hg ▸ hstages) (hg ▸ hnames) hadded

end CheckedFlow
