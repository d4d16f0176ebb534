import CheckedFlow.Proofs.Assertion.Call
import CheckedFlow.Proofs.Build.Scope

/-!
# Builder calls that read what they know

Every builder call of the library registers stages that read what the call knows: the stages of the
handles that it was given, and those that it registered before. The sources of a caller's own may be
any programs that keep to the rule.

* `Operation.ReadsFrom`: an operation that reads known stages only, each as what it leaves.
* `Evidence.Fair`: evidence that keeps to a rule in the middle of an assertion;
  `Evidence.Uses.fair`: the evidence of the library does.
* `BuilderCall`: the calls; `BuilderCall.Fits`: the calls that can be made with given handles;
  `BuilderCall.keeps`: they keep to the rule. `AssertionCall.keeps_of_adds`: an assertion and a rule
  that does not ask what is known.
-/

namespace CheckedFlow

variable {α β : Type} {k l : Kind}

/-! ## Reading known stages -/

/-- The faults by which the engine says that a stage reads what is not there: a node that was not
evaluated, or elements or a view of another kind. -/
def EngineFault.IsWiring : EngineFault → Prop
  | notEvaluated .. | wrongElements .. | wrongView .. => True
  | workerStopped .. | told .. => False

/-- The function reads known views only: if it ends with a wiring fault, it found the fault when it
read one of them. -/
def DoFn.Reads (ports : List Port) (f : DoFn α β) : Prop :=
  ∀ s x fault, (f s x).ending = .failed (.internal fault) → fault.IsWiring →
    ∃ (k : Kind) (v : View k), v.port ∈ ports ∧ s.sideInput v = .error (.internal fault)

/-- The operation reads known stages only, each as what it leaves. -/
def Operation.ReadsFrom (ports : List Port) : Operation → Prop
  | create .. | impulse => True
  | windowInto k input _ => ⟨input, .elements k⟩ ∈ ports
  | parDo source _ input declared doFn => ⟨input, .elements source⟩ ∈ ports ∧
      (∀ v ∈ declared, ∃ k, ⟨v.node, .view k⟩ ∈ ports) ∧ doFn.Reads ports
  | view source _ input _ => ⟨input, .elements source⟩ ∈ ports

/-- The stages that the operation refers to are known. -/
theorem Operation.ReadsFrom.inputs {ports : List Port} {op : Operation} (h : op.ReadsFrom ports) :
    ∀ i ∈ op.inputs, ∃ port ∈ ports, port.node = i := by
  intro i hi
  cases op with
  | create => cases hi
  | impulse => cases hi
  | windowInto k input f =>
    rw [List.mem_singleton.mp hi]
    exact ⟨_, h, rfl⟩
  | parDo source target input declared doFn =>
    obtain ⟨hinput, hdeclared, -⟩ := h
    rcases List.mem_cons.mp hi with rfl | hi
    · exact ⟨_, hinput, rfl⟩
    · obtain ⟨v, hv, rfl⟩ := List.mem_map.mp hi
      obtain ⟨k, hk⟩ := hdeclared v hv
      exact ⟨_, hk, rfl⟩
  | view source target input f =>
    rw [List.mem_singleton.mp hi]
    exact ⟨_, h, rfl⟩

/-- A function that never ends with an engine fault reads nothing else. -/
theorem DoFn.reads_of_ne {ports : List Port} {f : DoFn α β}
    (h : ∀ s x fault, (f s x).ending ≠ .failed (.internal fault)) : f.Reads ports :=
  fun s x fault hf => absurd hf (h s x fault)

theorem DoFn.reads_map {ports : List Port} (f : α → β) : (DoFn.map f).Reads ports :=
  reads_of_ne fun _ _ _ => nofun

theorem DoFn.reads_filter {ports : List Port} (p : α → Bool) : (DoFn.filter p).Reads ports :=
  reads_of_ne fun _ _ _ => nofun

/-- A firing ends well or with a failed check. -/
theorem fire_ending_ne (policy : FailurePolicy) (stage : String) (i : Inspection)
    (fault : EngineFault) : (fire policy stage i).ending ≠ .failed (.internal fault) := by
  unfold fire
  split
  · nofun
  · cases policy <;> nofun

/-! ## Evidence that keeps to a rule -/

/-- Evidence that keeps to the rule wherever it is expanded in the middle of an assertion whose call
was given the stages `given`, and that returns a view that is known then. -/
def Evidence.Fair (rule : Rule) (given : List Ref) (p : Pipeline) (e : Evidence k) : Prop :=
  ∀ under sc, sc.checking = true → sc.given = given → sc.frames ≠ [] →
    Builder.Keeps rule sc (e p under) fun sc' v => v.port ∈ sc'.ports

/-- Evidence of the library about known stages, if they are stages of the pipeline at all. -/
inductive Evidence.Uses (ports : List Port) (p : Pipeline) : {k : Kind} → Evidence k → Prop
  | ofDataset {k l : Kind} {d : Dataset k} (f : ViewFn k.Value l.Value)
      (fallback : Option (Codec k.Value)) (keyed : Bool)
      (h : d.pipeline.isSame p = true → d.port ∈ ports) : Uses ports p (ofDataset d f fallback keyed)
  | ofValues {k l : Kind} (values : List k.Value) (codec : Option (Codec k.Value))
      (f : ViewFn k.Value l.Value) : Uses ports p (ofValues values codec f)
  | ofView {k : Kind} {v : View k} (h : v.pipeline.isSame p = true → v.port ∈ ports) :
      Uses ports p (ofView v)

/-- The evidence of the check keeps to the rule. -/
def CheckSpec.Fair (rule : Rule) (given : List Ref) (p : Pipeline) : CheckSpec → Prop
  | value actual _ => actual.Fair rule given p
  | against actual expected _ => actual.Fair rule given p ∧ expected.Fair rule given p

/-- The evidence of the check is that of the library, about known stages. -/
def CheckSpec.Uses (ports : List Port) (p : Pipeline) : CheckSpec → Prop
  | value actual _ => actual.Uses ports p
  | against actual expected _ => actual.Uses ports p ∧ expected.Uses ports p

/-- The rule lets a call register what reads known stages. -/
def Rule.Admits (rule : Rule) : Prop :=
  ∀ sc stage, stage.operation.ReadsFrom sc.ports → rule sc stage

/-! ## Calls of the library -/

section Library

variable {rule : Rule} (hrule : rule.Admits) {sc : Scope}

open Builder

include hrule

theorem Dataset.windowInto_global_keeps {d : Dataset k} {name : String} (hd : d.port ∈ sc.ports) :
    Keeps rule sc (d.windowInto name .global) fun sc' d' => d'.port ∈ sc'.ports :=
  .handle (hrule _ _ hd) fun _ t => sc.port_mem_learn _ t

theorem Dataset.parDo_keeps {d : Dataset k} {name : String} {doFn : DoFn k.Value l.Value}
    {declared : List SideInput} (hd : d.port ∈ sc.ports)
    (hdeclared : ∀ v ∈ declared, ∃ m, ⟨v.node, .view m⟩ ∈ sc.ports) (hf : doFn.Reads sc.ports) :
    Keeps rule sc (d.parDo l name doFn declared) fun sc' d' => d'.port ∈ sc'.ports :=
  .handle (hrule _ _ ⟨hd, hdeclared, hf⟩) fun _ t => sc.port_mem_learn _ t

theorem Dataset.view_keeps {d : Dataset k} {name : String} {f : ViewFn k.Value l.Value}
    (hd : d.port ∈ sc.ports) :
    Keeps rule sc (d.view l name f) fun sc' v => v.port ∈ sc'.ports :=
  .handle (hrule _ _ hd) fun _ t => sc.port_mem_learn _ t

theorem Pipeline.impulse_keeps (p : Pipeline) (name : String) :
    Keeps rule sc (p.impulse name) fun sc' d => d.port ∈ sc'.ports :=
  .handle (hrule _ _ trivial) fun _ t => sc.port_mem_learn _ t

theorem Pipeline.source_keeps (p : Pipeline) (name : String) (items : List k.Value)
    (codec : Codec k.Value) :
    Keeps rule sc (p.source k name items codec) fun sc' d => d.port ∈ sc'.ports := by
  have hencoded (r : Except PipelineError (List (Bytes × Timestamp))) :
      Keeps rule sc (Builder.ofExcept r) fun _ _ => True := .ofExcept fun _ _ => trivial
  exact (hencoded _).bind fun sc' _ _ _ =>
    .handle (hrule _ _ trivial) fun _ t => sc'.port_mem_learn _ t

theorem Evidence.Uses.fair {given : List Ref} {p : Pipeline} {e : Evidence k}
    (h : e.Uses (given.map Ref.port) p) : e.Fair rule given p := by
  intro under sc _ hgiven _
  have hports : given.map Ref.port ⊆ sc.ports := by
    rw [← hgiven]
    exact List.map_subset _ (List.subset_append_right _ _)
  cases h with
  | @ofDataset m _ d f fallback keyed h =>
    simp only [Evidence.ofDataset]
    split
    · exact .throw _
    rename_i hsame
    have hd : d.port ∈ sc.ports := hports (h (by simpa using hsame))
    have hcodec : Keeps rule sc (codecOf d fallback keyed under) fun _ _ => True := by
      unfold codecOf
      split
      · exact .pure trivial
      · exact .throw _
    refine hcodec.bind fun sc₁ codec h₁ _ => ?_
    refine .bind (Dataset.windowInto_global_keeps hrule (h₁.ports_subset hd))
      fun _ _ _ hmoved => ?_
    refine .bind (Dataset.parDo_keeps hrule hmoved (List.forall_mem_nil _) (DoFn.reads_map _))
      fun _ _ _ hcopies => ?_
    exact Dataset.view_keeps hrule hcopies
  | ofValues values codec f =>
    simp only [Evidence.ofValues]
    split
    · exact .throw _
    cases codec with
    | none => exact .throw _
    | some codec =>
      exact .bind (Pipeline.source_keeps hrule p _ values codec) fun _ _ _ hcreated =>
        Dataset.view_keeps hrule hcreated
  | ofView h =>
    simp only [Evidence.ofView]
    split
    · exact .throw _
    · rename_i hsame
      exact .pure (hports (h (by simpa using hsame)))

theorem attachCheck_keeps {p : Pipeline} {name : String} {body : CheckBody}
    {declared : List SideInput} (hdeclared : ∀ v ∈ declared, ∃ m, ⟨v.node, .view m⟩ ∈ sc.ports) :
    Keeps rule sc (attachCheck p name body declared) fun _ _ => True := by
  refine .bind (Pipeline.impulse_keeps hrule p _) fun sc₁ trigger h₁ htrigger => ?_
  refine .bind (Dataset.parDo_keeps hrule htrigger (fun v hv => ?_)
    (DoFn.reads_of_ne fun s _ => fire_ending_ne _ s.stage _)) fun sc₂ _ _ _ => ?_
  · obtain ⟨m, hm⟩ := hdeclared v hv
    exact ⟨m, h₁.ports_subset hm⟩
  · have hset : Keeps rule sc₂ (setCheck (name ++ "/RunChecks") .scheduled) fun _ _ => True :=
      .setCheck trivial
    exact hset.bind fun _ _ _ _ => .pure trivial

theorem CheckSpec.Uses.fair {given : List Ref} {p : Pipeline} {c : CheckSpec}
    (h : c.Uses (given.map Ref.port) p) : c.Fair rule given p := by
  cases c with
  | value actual checker => exact Evidence.Uses.fair hrule h
  | against actual expected r =>
    exact ⟨Evidence.Uses.fair hrule h.1, Evidence.Uses.fair hrule h.2⟩

theorem CheckSpec.body_keeps {p : Pipeline} {name : String} {c : CheckSpec}
    (h : c.Fair rule sc.given p) (hsc : sc.checking = true) (hframes : sc.frames ≠ []) :
    Keeps rule sc (c.body p name) fun _ _ => True := by
  cases c with
  | value actual checker =>
    refine .bind (h _ sc hsc rfl hframes) fun sc₁ v _ hv => ?_
    exact attachCheck_keeps hrule (List.forall_mem_singleton.mpr ⟨_, hv⟩)
  | against actual expected r =>
    refine .bind (h.1 _ sc hsc rfl hframes) fun sc₁ v h₁ hv => ?_
    refine .bind (h.2 _ sc₁ (h₁.checking.trans hsc) h₁.given (h₁.frames ▸ hframes))
      fun sc₂ w h₂ hw => ?_
    exact attachCheck_keeps hrule (List.forall_mem_cons.mpr
      ⟨⟨_, h₂.ports_subset hv⟩, List.forall_mem_singleton.mpr ⟨_, hw⟩⟩)

/-- A check keeps to the rule if its evidence does. -/
theorem CheckSpec.build_keeps {p : Pipeline} {name : String} {c : CheckSpec}
    (h : c.Fair rule sc.given p) (hsc : sc.checking = true) :
    Keeps rule sc (c.build p name) fun _ _ => True := by
  rw [CheckSpec.build_eq]
  refine allOrNothing_keeps (fun n => CheckSpec.body_keeps hrule ?_ ?_ ?_) fun _ _ h => h
  · exact h
  · exact hsc
  · exact List.cons_ne_nil _ _

end Library

/-! ## All calls -/

/-- A call that registers one stage and returns a handle to it. Sources without timestamps are
sources with the least one, and the common views are views by their view functions. -/
inductive StageCall where
  | create {k : Kind} (p : Pipeline) (name : String) (items : List (k.Value × Timestamp))
      (codec : Codec k.Value)
  | impulse (p : Pipeline) (name : String)
  | windowInto {k : Kind} (d : Dataset k) (name : String) (f : WindowFn)
  | parDo {k l : Kind} (d : Dataset k) (name : String) (doFn : DoFn k.Value l.Value)
      (declared : List SideInput)
  | map {k l : Kind} (d : Dataset k) (name : String) (f : k.Value → l.Value)
  | filter {k : Kind} (d : Dataset k) (name : String) (keep : k.Value → Bool)
  | view {k l : Kind} (d : Dataset k) (name : String) (f : ViewFn k.Value l.Value)

namespace StageCall

/-- The call itself, and what its handle says. -/
def call : StageCall → Builder (List Port)
  | @create k p name items codec => do return [(← p.sourceAt k name items codec).port]
  | impulse p name => do return [(← p.impulse name).port]
  | windowInto d name f => do return [(← d.windowInto name f).port]
  | @parDo _ l d name doFn declared => do return [(← d.parDo l name doFn declared).port]
  | @map _ l d name f => do return [(← d.map l name f).port]
  | filter d name keep => do return [(← d.filter name keep).port]
  | @view _ l d name f => do return [(← d.view l name f).port]

/-- The call is made on known stages, and the function of a stage declares and reads known views. -/
def Uses (ports : List Port) : StageCall → Prop
  | create .. | impulse .. => True
  | windowInto d .. | map d .. | filter d .. | view d .. => d.port ∈ ports
  | parDo d _ doFn declared =>
    d.port ∈ ports ∧ (∀ v ∈ declared, ∃ k, ⟨v.node, .view k⟩ ∈ ports) ∧ doFn.Reads ports

/-- The stage that the call registers. -/
def Registers : StageCall → Stage → Prop
  | create _ name _ codec, stage => ∃ encoded, stage = ⟨name, .create _ codec encoded⟩
  | impulse _ name, stage => stage = ⟨name, .impulse⟩
  | @windowInto k d name f, stage => stage = ⟨name, .windowInto k d.node f⟩
  | parDo d name doFn declared, stage => stage = ⟨name, .parDo _ _ d.node declared doFn⟩
  | map d name f, stage => stage = ⟨name, .parDo _ _ d.node [] (DoFn.map f)⟩
  | filter d name keep, stage => stage = ⟨name, .parDo _ _ d.node [] (DoFn.filter keep)⟩
  | view d name f, stage => stage = ⟨name, .view _ _ d.node f⟩

/-- The stage reads what the call was made on. -/
theorem Registers.readsFrom {c : StageCall} {stage : Stage} (h : c.Registers stage)
    {ports : List Port} (hc : c.Uses ports) : stage.operation.ReadsFrom ports := by
  cases c with
  | create =>
    obtain ⟨encoded, rfl⟩ := h
    trivial
  | impulse => cases h; trivial
  | windowInto => cases h; exact hc
  | parDo => cases h; exact hc
  | map d name f => cases h; exact ⟨hc, nofun, DoFn.reads_map f⟩
  | filter d name keep => cases h; exact ⟨hc, nofun, DoFn.reads_filter keep⟩
  | view => cases h; exact hc

/-- A call fails at once, or registers its stage and returns the stage's port. -/
theorem run_cases (c : StageCall) :
    (∃ e, ExceptT.run c.call = .done (.error e)) ∨
      ∃ stage, c.Registers stage ∧
        ExceptT.run c.call = .register stage fun r => .done (r.map fun n => [stage.portAt n]) := by
  cases c with
  | create p name items codec =>
    cases he : Pipeline.encodeSource name codec 0 items with
    | error e =>
      refine .inl ⟨e, ?_⟩
      simp only [call, Pipeline.sourceAt, he]
      rfl
    | ok encoded =>
      refine .inr ⟨⟨name, .create _ codec encoded⟩, ⟨encoded, rfl⟩, ?_⟩
      simp only [call, Pipeline.sourceAt, he]
      exact congrArg (Build.register _) (funext fun r => by cases r <;> rfl)
  | impulse p name =>
    exact .inr ⟨⟨name, .impulse⟩, rfl,
      congrArg (Build.register _) (funext fun r => by cases r <;> rfl)⟩
  | windowInto d name f =>
    cases hf : f.invalidSize? with
    | some size =>
      refine .inl ⟨.construction name (.windowSize size), ?_⟩
      simp only [call, Dataset.windowInto, hf]
      rfl
    | none =>
      refine .inr ⟨⟨name, .windowInto _ d.node f⟩, rfl, ?_⟩
      simp only [call, Dataset.windowInto, hf]
      exact congrArg (Build.register _) (funext fun r => by cases r <;> rfl)
  | parDo d name doFn declared =>
    exact .inr ⟨⟨name, .parDo _ _ d.node declared doFn⟩, rfl,
      congrArg (Build.register _) (funext fun r => by cases r <;> rfl)⟩
  | map d name f =>
    exact .inr ⟨⟨name, .parDo _ _ d.node [] (DoFn.map f)⟩, rfl,
      congrArg (Build.register _) (funext fun r => by cases r <;> rfl)⟩
  | filter d name keep =>
    exact .inr ⟨⟨name, .parDo _ _ d.node [] (DoFn.filter keep)⟩, rfl,
      congrArg (Build.register _) (funext fun r => by cases r <;> rfl)⟩
  | view d name f =>
    exact .inr ⟨⟨name, .view _ _ d.node f⟩, rfl,
      congrArg (Build.register _) (funext fun r => by cases r <;> rfl)⟩

end StageCall

/-- A builder call. -/
inductive BuilderCall where
  | stage (c : StageCall)
  | assertion (c : AssertionCall)

namespace BuilderCall

/-- The call builds an assertion. -/
def checking : BuilderCall → Bool
  | stage _ => false
  | assertion _ => true

/-- The call's program, and what the handle to a stage says that it returns. -/
def run : BuilderCall → Build (Except PipelineError (List Port))
  | stage c => ExceptT.run c.call
  | assertion c => ExceptT.run do
    let _ ← c.call
    return []

/-- What the call knows at its start. -/
def start (c : BuilderCall) (given : List Ref) : Scope := { checking := c.checking, given }

/-- The call keeps to the rule from its start on: the stage that it registers does, or the evidence
of its check. -/
def Fits (rule : Rule) (given : List Ref) : BuilderCall → Prop
  | stage c => ∀ stage next, ExceptT.run c.call = .register stage next →
      rule ((BuilderCall.stage c).start given) stage
  | assertion c => c.spec.Fair rule given c.pipeline

end BuilderCall

/-- What is known when a call has returned `r`: it is in the middle of no assertion, and if it
succeeded, it took none back, and registered the stages that it returned handles to. -/
def Scope.Returns (sc : Scope) (r : Except PipelineError (List Port)) : Prop :=
  sc.frames = [] ∧ ∀ ports, r = .ok ports → sc.undone = false ∧
    ∀ port ∈ ports, ∃ t, ⟨port, t⟩ ∈ sc.own

/-- An assertion keeps to the rule if the program of its check does. -/
theorem AssertionCall.keeps {rule : Rule} {c : AssertionCall} {given : List Ref}
    (hbuild : ∀ name, Builder.Keeps rule ((BuilderCall.assertion c).start given)
      (c.spec.build c.pipeline name) fun _ _ => True) :
    (BuilderCall.assertion c).run.Keeps rule Scope.Returns
      ((BuilderCall.assertion c).start given) := by
  have hcall : Builder.Keeps rule ((BuilderCall.assertion c).start given) c.call
      fun _ _ => True := by
    unfold Builder.Keeps
    rcases c.run_cases with ⟨e, he⟩ | ⟨name, hn⟩ | hn
    · rw [he]
      exact .done ⟨.refl _, nofun⟩
    · rw [hn]
      exact hbuild name
    · rw [hn]
      exact .nextAssertion hbuild
  have hrun : Builder.Keeps rule ((BuilderCall.assertion c).start given)
      (do let _ ← c.call; return []) fun _ ports => ports = ([] : List Port) :=
    hcall.bind fun _ _ _ _ => .pure rfl
  refine Build.Keeps.mono hrun fun sc' r hr => ⟨hr.1.frames, fun ports hports => ?_⟩
  obtain ⟨hundone, rfl⟩ := hr.2 ports hports
  exact ⟨hundone, nofun⟩

/-- A call that registers a stage keeps to the rule if the stage does. -/
theorem StageCall.keeps {rule : Rule} {c : StageCall} {given : List Ref}
    (h : (BuilderCall.stage c).Fits rule given) :
    (BuilderCall.stage c).run.Keeps rule Scope.Returns ((BuilderCall.stage c).start given) := by
  rcases c.run_cases with ⟨e, he⟩ | ⟨stage, -, hs⟩
  · rw [BuilderCall.run, he]
    exact .done ⟨rfl, nofun⟩
  · rw [BuilderCall.run, hs]
    refine .register (h stage _ hs) (fun n t => .done ⟨rfl, fun ports hports => ⟨rfl, ?_⟩⟩)
      fun e => .done ⟨rfl, nofun⟩
    cases hports
    exact List.forall_mem_singleton.mpr ⟨t, List.mem_cons_self⟩

/-- A call that fits keeps to the rule. -/
theorem BuilderCall.keeps {rule : Rule} (hrule : rule.Admits) {c : BuilderCall} {given : List Ref}
    (h : c.Fits rule given) : c.run.Keeps rule Scope.Returns (c.start given) := by
  cases c with
  | stage c => exact StageCall.keeps h
  | assertion c => exact AssertionCall.keeps fun _ => CheckSpec.build_keeps hrule h rfl

/-! ## Rules about stages alone -/

/-- A program that only adds stages with a property keeps to the rule that all stages have it. -/
theorem Build.Adds.keeps {P : Stage → Prop} {b : Build α} (h : b.Adds P) (sc : Scope) :
    b.Keeps (fun _ stage => P stage)
      (fun sc' _ => sc.Extends sc' ∧ sc'.undone = sc.undone) sc := by
  induction b generalizing sc with
  | done x => exact .done ⟨.refl sc, rfl⟩
  | stageCount next ih => exact .stageCount "" fun n => .leave (ih n (h n) sc)
  | register stage next ih =>
    exact .register h.1 (fun n t => (ih _ (h.2 _) _).mono fun sc' _ hsc' =>
      ⟨(sc.extends_learn _).trans hsc'.1, hsc'.2⟩) fun e => ih _ (h.2 _) sc
  | discardSince checkpoint under next => exact h.elim
  | nextAssertion next ih => exact .nextAssertion fun name => ih name (h name) sc
  | setCheck stage state next ih => exact .setCheck (ih () h sc)

/-- An assertion whose check only adds stages with a property keeps to the rule that all stages have
it. -/
theorem AssertionCall.keeps_of_adds {P : Stage → Prop} {c : AssertionCall}
    (h : ∀ name, Builder.Adds P (c.spec.body c.pipeline name)) (given : List Ref) :
    (BuilderCall.assertion c).run.Keeps (fun _ stage => P stage) Scope.Returns
      ((BuilderCall.assertion c).start given) := by
  refine AssertionCall.keeps fun name => ?_
  rw [CheckSpec.build_eq]
  have hbody : ∀ sc, Builder.Keeps (fun _ stage => P stage) sc (c.spec.body c.pipeline name)
      fun _ _ => True := fun sc => (Build.Adds.keeps (h name) sc).mono fun sc' r hsc' =>
    ⟨hsc'.1, fun _ _ => ⟨hsc'.2, trivial⟩⟩
  exact allOrNothing_keeps (fun n => hbody _) fun _ _ h => h

end CheckedFlow
