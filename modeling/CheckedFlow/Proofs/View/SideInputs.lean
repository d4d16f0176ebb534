import CheckedFlow.Proofs.Build.Handles
import CheckedFlow.Proofs.Run.Wiring

/-!
# Reading declared views

A stage's function reads a view by the number of the view's stage, and may read the numbers of the
views that the stage declared. Within a pipeline a number belongs to one stage as long as handles are
valid, so the function reads from a view of its own pipeline what that very view holds for the window
of the element, or is told that the view was not declared. The views of other pipelines have numbers
of their own, and neither a declaration nor a reader tells them apart.

* `Site.Live`: the handles of a pipeline; `Site.Declares`: what a stage declares that is given some.
* `Graph.Processes`: the surroundings in which the function of a stage processes an element.
* `sideInput_own`: what the function of a stage reads from a view of its own pipeline.
* `sideInput_foreign`: what it may read from a view of another one.
-/

namespace CheckedFlow

variable {rule : Rule} {k : Kind} {options : PipelineOptions} {stage : Stage}
  {declared : List SideInput} {outputs : Outputs} {sur : Surroundings}

/-! ## Handles and declarations -/

namespace Site

/-- The handle is out, or a call knows it while it goes on. -/
def Live (s : Site rule) (r : Ref) : Prop :=
  r ∈ s.handed ∨ ∃ id c, s.calls id = some c ∧ r ∈ c.scope.known

theorem Sound.live {s : Site rule} (hs : s.Sound) {r : Ref} (hr : s.Live r) :
    ∃ e, Denotes s.placed r e := by
  rcases hr with hr | ⟨id, c, hc, hr⟩
  · exact hs.handed r hr
  · exact hs.known hc hr

/-- Live handles with the same number are handles of the same view. -/
theorem Sound.live_unique {s : Site rule} (hs : s.Sound) {r r' : Ref} (hr : s.Live r)
    (hr' : s.Live r') (h : r.port.node = r'.port.node) : r = r' := by
  obtain ⟨e, hat, rfl⟩ := hs.live hr
  obtain ⟨e', hat', rfl⟩ := hs.live hr'
  rw [h, hat'] at hat
  cases hat
  rfl

/-- The declarations are those of views with the live handles `refs`. -/
def Declares (s : Site rule) (declared : List SideInput) (refs : List Ref) : Prop :=
  List.Forall₂ (fun w r => s.Live r ∧ ∃ (k : Kind) (v : View k), v.port = r.port ∧
    v.sideInput = w) declared refs

/-- A number is declared exactly if one of the handles has it. -/
theorem Declares.mem_nodes {s : Site rule} {refs : List Ref} (h : s.Declares declared refs)
    (n : NodeId) : n ∈ declared.map SideInput.node ↔ ∃ r ∈ refs, s.Live r ∧ r.port.node = n := by
  induction h with
  | nil => simp
  | cons hw _ ih =>
    obtain ⟨hlive, m, v, hport, rfl⟩ := hw
    have hnode : v.sideInput.node = v.port.node := rfl
    rw [List.map_cons, List.mem_cons, ih, hnode, hport]
    constructor
    · rintro (rfl | ⟨r, hr, hlive, rfl⟩)
      · exact ⟨_, List.mem_cons_self, hlive, rfl⟩
      · exact ⟨r, List.mem_cons_of_mem _ hr, hlive, rfl⟩
    · rintro ⟨r, hr, hlive', rfl⟩
      rcases List.mem_cons.mp hr with rfl | hr
      · exact .inl rfl
      · exact .inr ⟨r, hr, hlive', rfl⟩

end Site

open Site

/-! ## What a stage's function reads -/

/-- In a run of `g`, the stage `stage`, which declares the views `declared`, is evaluated behind
`outputs`, and its function processes one of its elements in the surroundings `sur`. -/
def Graph.Processes (g : Graph) (options : PipelineOptions) (stage : Stage)
    (declared : List SideInput) (outputs : Outputs) (sur : Surroundings) : Prop :=
  ∃ (n input : NodeId) (g₀ : Graph) (s : RunState) (source target : Kind)
    (doFn : DoFn source.Value target.Value) (items : List (Windowed source.Value))
    (found : List (NodeId × Output)), ∃ x ∈ items,
      g.stages[n]? = some stage ∧ stage.operation = .parDo source target input declared doFn ∧
      runStages options (g.stages.take n) { graph := g₀ } = (s, none) ∧ outputs = s.outputs ∧
      outputs.elements source input stage.name = .ok items ∧
      outputs.sideInputs stage.name declared = .ok found ∧
      sur = surround options stage.name found x

namespace Graph.Processes

variable {g : Graph}

/-- The function of a stage reads the output with the number of the view, if the number is that of
a declared view. -/
theorem lookup (h : g.Processes options stage declared outputs sur) (n : NodeId) :
    sur.sideInputs.lookup n = if n ∈ declared.map SideInput.node then outputs[n]? else none := by
  obtain ⟨-, -, -, -, -, -, -, -, found, x, -, -, -, -, -, -, hfound, rfl⟩ := h
  exact (Outputs.lookup_sideInputs hfound).2 n

/-- No view can be read whose number is not that of a declared view, whatever its pipeline is. -/
theorem undeclared (h : g.Processes options stage declared outputs sur) {v : View k}
    (hv : v.node ∉ declared.map SideInput.node) :
    sur.sideInput v = .error (.undeclaredSideInput stage.name v.name) := by
  have hstage : sur.stage = stage.name := by
    obtain ⟨-, -, -, -, -, -, -, -, -, -, -, -, -, -, -, -, -, rfl⟩ := h
    rfl
  rw [Surroundings.sideInput, h.lookup, if_neg hv, hstage]

/-- A declared view with a number of the graph is read as what the view holds. -/
theorem reads_view (h : g.Processes options stage declared outputs sur) {v : View k}
    (hv : v.node ∈ declared.map SideInput.node) {name : String} {source : Kind} {input : NodeId}
    {f : ViewFn source.Value k.Value}
    (hat : g.stages[v.node]? = some ⟨name, .view source k input f⟩) :
    ∃ items, outputs[input]? = some (.elements source items) ∧
      sur.sideInput v = (ViewContents.materialize name f items).read sur.window := by
  have hlookup := h.lookup v.node
  rw [if_pos hv] at hlookup
  obtain ⟨n, -, g₀, s, -, -, -, -, found, -, -, -, -, hrun, rfl, -, hfound, -⟩ := h
  obtain ⟨w, hw, hnode⟩ := List.mem_map.mp hv
  obtain ⟨o, ho⟩ := (Outputs.lookup_sideInputs hfound).1 w hw
  have hlt : v.node < n := by
    have hlt := (List.getElem?_eq_some_iff.mp ho).1
    rw [runStages_length hrun, List.length_take, hnode] at hlt
    exact (Nat.lt_min.mp (Nat.lt_of_lt_of_eq hlt (Nat.zero_add _))).1
  obtain ⟨items, hitems, hview⟩ := runStages_view hrun ((List.getElem?_take_of_lt hlt).trans hat)
  refine ⟨items, hitems, ?_⟩
  rw [Surroundings.sideInput, hlookup, hview]
  simp only [Output.view?_view]

end Graph.Processes

theorem Operation.eq_view {op : Operation} (h : op.leaves = .view k) :
    ∃ source input f, op = .view source k input f := by
  cases op with
  | view source target input f =>
    cases h
    exact ⟨source, input, f, rfl⟩
  | _ => cases h

/-- Considerate calls have built a pipeline, and the function of one of its stages, which declares
the views with the handles `refs`, processes an element. A view of the pipeline that is not among
them cannot be read. From one that is among them, the function reads what this very view makes, for
the window of the element, of the elements that its input left in the run. A view whose number is not
a declared one cannot be read in any case, whatever its pipeline is. -/
theorem sideInput_own {s : Site rule} (h : Run Considerate {} s) {refs : List Ref}
    (hp : s.graph.Processes options stage declared outputs sur)
    (hdeclared : s.Declares declared refs) :
    (∀ (k : Kind) (v : View k) r, s.Live r → r.port = v.port →
      (r ∉ refs → sur.sideInput v = .error (.undeclaredSideInput stage.name v.name)) ∧
      (r ∈ refs → ∃ e source input f items, Denotes s.placed r e ∧
        e.stage.operation = .view source k input f ∧
        outputs[input]? = some (.elements source items) ∧
        sur.sideInput v = (ViewContents.materialize e.stage.name f items).read sur.window)) ∧
    ∀ (k : Kind) (v : View k), v.node ∉ declared.map SideInput.node →
      sur.sideInput v = .error (.undeclaredSideInput stage.name v.name) := by
  have hs : s.Sound := h.sound sound_new
  refine ⟨fun k v r hr hport => ⟨fun hnot => hp.undeclared fun hv => ?_, fun hmem => ?_⟩,
    fun k v hv => hp.undeclared hv⟩
  · obtain ⟨r', hr', hlive, hnode⟩ := (hdeclared.mem_nodes _).mp hv
    have hsame : r'.port.node = r.port.node := by rw [hnode, hport]; rfl
    exact hnot (hs.live_unique hlive hr hsame ▸ hr')
  · obtain ⟨e, he⟩ := hs.live hr
    have hnode : r.port.node = v.node := by rw [hport]; rfl
    obtain ⟨source, input, f, hop⟩ : ∃ source input f, e.stage.operation =
        .view source k input f := by
      refine Operation.eq_view ?_
      have hleaves : e.ref.port.leaves = v.port.leaves := by rw [he.2, hport]
      exact hleaves
    have hat : s.graph.stages[v.node]? = some ⟨e.stage.name, .view source k input f⟩ := by
      rw [← hs.stages, List.getElem?_map, ← hnode, he.1, ← hop]
      rfl
    obtain ⟨items, hitems, hread⟩ :=
      hp.reads_view ((hdeclared.mem_nodes _).mpr ⟨r, hmem, hr, hnode⟩) hat
    exact ⟨e, source, input, f, items, he, hop, hitems, hread⟩

/-! ## Readers of bits -/

/-- Emits what it reads from the view, and fails if it reads an error. -/
def readingBits (v : View (.list .boolean)) : DoFn Bool (List Bool) := fun s _ =>
  match s.sideInput v with
  | .ok xs => { emitted := [s.emit xs] }
  | .error e => { ending := .failed e }

/-- A view of the bits in the stage with the number `n`. -/
def bitListAt (p : Pipeline) (n : NodeId) (name : String) : View (.list .boolean) :=
  ⟨p, n, name, .iterable⟩

/-- A stage that declares the view `All` and reads the view `v`. -/
def readerStage (v : View (.list .boolean)) : Stage :=
  ⟨"Reads", .parDo .boolean (.list .boolean) 0 [⟨1, "All"⟩] (readingBits v)⟩

/-- A source of one bit, two views of it, and a stage that declares the first of them. -/
def readerGraph (v : View (.list .boolean)) (b : Bool) : Graph where
  stages :=
    [⟨"Bits", .create .boolean (bitCodec none) [([if b then 1 else 0], .least)]⟩,
      ⟨"All", .view .boolean (.list .boolean) 0 .iterable⟩,
      ⟨"Other", .view .boolean (.list .boolean) 0 .iterable⟩, readerStage v]
  names := ["Reads", "Other", "All", "Bits"]

/-- The calls that build the graph, if the stage reads the view that `pick` makes of the declared
one. -/
def readerCalls (p : Pipeline) (b : Bool)
    (pick : View (.list .boolean) → View (.list .boolean)) : Builder (View (.list .boolean)) := do
  let bits ← p.source .boolean "Bits" [b] (bitCodec none)
  let all ← bits.asIterable "All"
  let _ ← bits.asIterable "Other"
  let _ ← bits.parDo (.list .boolean) "Reads" (readingBits (pick all)) [all.sideInput]
  return all

/-- What the function of the stage is handed with the bit. -/
def readerSurroundings (p : Pipeline) (b : Bool) : Surroundings :=
  surround p.options "Reads"
    [(1, .view (.list .boolean) (.materialize "All" .iterable [Windowed.unstamped b]))]
    (Windowed.unstamped b)

theorem readerGraph_processes (p : Pipeline) (v : View (.list .boolean)) (b : Bool) :
    ∃ outputs, (readerGraph v b).Processes p.options (readerStage v) [⟨1, "All"⟩] outputs
      (readerSurroundings p b) := by
  refine ⟨(runStages p.options ((readerGraph v b).stages.take 3) { graph := {} }).1.outputs, 3, 0,
    {}, _, .boolean, .list .boolean, readingBits v, [Windowed.unstamped b], _,
    Windowed.unstamped b, List.mem_cons_self, rfl, rfl, ?_, rfl, ?_, ?_, rfl⟩
  all_goals cases b <;> rfl

/-- Any view with the number of the declared one is read as the declared one. -/
theorem readerSurroundings_reads (p q : Pipeline) (b : Bool) (name : String) :
    (readerSurroundings p b).sideInput (bitListAt q 1 name) = .ok [b] := by
  cases b <;> rfl

/-- A single thread can go on with any call for a stage. -/
theorem Wired.can_call {s : Site Wired} (hquiet : s.Quiet) (c : StageCall) :
    ∃ s' : Site Wired, Run Solo s s' ∧ s'.Quiet ∧ s.handed ⊆ s'.handed ∧
      s'.graph = ((BuilderCall.stage c).run.run s.graph).2 ∧
      ∀ ports, ((BuilderCall.stage c).run.run s.graph).1 = .ok ports →
        ∀ port ∈ ports, ∃ r ∈ s'.handed, r.port = port := by
  obtain ⟨s', sc, hrun, hgraph, hreturns, hcalls, hhanded, -⟩ :=
    Site.can_call Solo (BuilderCall.keeps Wired.admits (Wired.fits_stage c s.handed))
      (hquiet s.clock) hquiet fun _ _ => Own.solo
  refine ⟨s', hrun, fun id => by rw [hcalls, hquiet id], ?_, hgraph, fun ports hports port hport => ?_⟩
  · rw [hhanded]
    exact List.subset_append_right _ _
  · obtain ⟨t, ht⟩ := (hreturns.2 ports hports).2 port hport
    exact ⟨_, hhanded ▸ List.mem_append_left _ ht, rfl⟩

/-- The view that the stage declares, and the other one. -/
def allBits : View (.list .boolean) := bitListAt (twice .bounded) 1 "All"

def otherBits : View (.list .boolean) := bitListAt (twice .bounded) 2 "Other"

/-- The stage reads the bit from the view that it declared, and cannot read the other view of it. -/
theorem sideInput_own_bits :
    ∃ (s : Site Wired) (refs : List Ref) (outputs : Outputs) (sur : Surroundings) (r r' : Ref),
      Run Considerate {} s ∧
      s.graph.Processes (twice .bounded).options (readerStage allBits) [allBits.sideInput] outputs
        sur ∧
      s.Declares [allBits.sideInput] refs ∧
      (s.Live r ∧ r.port = allBits.port ∧ r ∈ refs) ∧
      (s.Live r' ∧ r'.port = otherBits.port ∧ r' ∉ refs) ∧
      (∃ e source input, ∃ f : ViewFn source.Value (List Bool), ∃ items, Denotes s.placed r e ∧
        e.stage.operation = .view source (.list .boolean) input f ∧
        outputs[input]? = some (.elements source items) ∧
        (ViewContents.materialize e.stage.name f items).read sur.window = .ok [true]) ∧
      sur.sideInput allBits = .ok [true] ∧
      sur.sideInput otherBits = .error (.undeclaredSideInput "Reads" "Other") := by
  obtain ⟨s₁, hrun₁, hquiet₁, -, hgraph₁, -⟩ := Wired.can_call (s := {}) (fun _ => rfl)
    (.create (k := .boolean) (twice .bounded) "Bits" [(true, .least)] (bitCodec none))
  obtain ⟨s₂, hrun₂, hquiet₂, -, hgraph₂, hports₂⟩ := Wired.can_call hquiet₁
    (.view (l := .list .boolean) (bits (twice .bounded) none) "All" .iterable)
  obtain ⟨s₃, hrun₃, hquiet₃, hkept₃, hgraph₃, hports₃⟩ := Wired.can_call hquiet₂
    (.view (l := .list .boolean) (bits (twice .bounded) none) "Other" .iterable)
  obtain ⟨s, hrun₄, -, hkept, hgraph, -⟩ := Wired.can_call hquiet₃
    (.parDo (l := .list .boolean) (bits (twice .bounded) none) "Reads" (readingBits allBits)
      [allBits.sideInput])
  rw [hgraph₁] at hports₂ hgraph₂
  rw [hgraph₂] at hports₃ hgraph₃
  rw [hgraph₃] at hgraph
  obtain ⟨r, hr, hall⟩ := hports₂ _ rfl _ List.mem_cons_self
  obtain ⟨r', hr', hother⟩ := hports₃ _ rfl _ List.mem_cons_self
  have hrun : Run Solo {} s := ((hrun₁.trans hrun₂).trans hrun₃).trans hrun₄
  obtain ⟨hcons, -⟩ := hrun.considerate (Quiet.alone fun _ => rfl)
  have hg : s.graph = readerGraph allBits true := hgraph.trans rfl
  obtain ⟨outputs, hp⟩ := readerGraph_processes (twice .bounded) allBits true
  have hlive : s.Live r := .inl (hkept (hkept₃ hr))
  have hdeclared : s.Declares [allBits.sideInput] [r] :=
    .cons ⟨hlive, _, allBits, hall.symm, rfl⟩ .nil
  have hne : r' ∉ [r] := by
    rintro h
    rw [List.mem_singleton.mp h, hall] at hother
    cases hother
  obtain ⟨hown, -⟩ := sideInput_own hcons (hg ▸ hp) hdeclared
  obtain ⟨e, source, input, f, items, he, hop, hitems, hread⟩ :=
    (hown _ allBits r hlive hall).2 List.mem_cons_self
  have hbit := readerSurroundings_reads (twice .bounded) (twice .bounded) true "All"
  exact ⟨s, [r], outputs, _, r, r', hcons, hg ▸ hp, hdeclared, ⟨hlive, hall, List.mem_cons_self⟩,
    ⟨.inl (hkept hr'), hother, hne⟩, ⟨e, source, input, f, items, he, hop, hitems,
      hread.symm.trans hbit⟩, hbit, (hown _ otherBits r' (.inl (hkept hr')) hother).1 hne⟩

/-- A stage that reads a view with the number of the declared one emits the bit. -/
theorem readerGraph_run {p : Pipeline} (hfit : p.options.FitsTasks) (q : Pipeline) (name : String)
    (b : Bool) (g : Graph) :
    ∃ s, runStages p.options (readerGraph (bitListAt q 1 name) b).stages { graph := g } =
        (s, none) ∧
      s.outputs[3]? = some (.elements (.list .boolean) [Windowed.unstamped [b]]) := by
  let views : Output := .view (.list .boolean) (.materialize "All" .iterable [.unstamped b])
  let others : Output := .view (.list .boolean) (.materialize "Other" .iterable [.unstamped b])
  let before : RunState :=
    { outputs := [.elements .boolean [.unstamped b], views, others], graph := g }
  have hbefore : runStages p.options ((readerGraph (bitListAt q 1 name) b).stages.take 3)
      { graph := g } = (before, none) := by cases b <;> rfl
  have hreads : (readerStage (bitListAt q 1 name)).operation.evaluate p.options "Reads"
      before.outputs =
        { result := .ok (.elements (.list .boolean) [Windowed.unstamped [b]]) } := by
    have hone : readingBits (bitListAt q 1 name)
        (surround p.options "Reads" [(1, views)] (Windowed.unstamped b)) b =
          { emitted := [Windowed.unstamped [b]] } := by cases b <;> rfl
    change @evaluateParDo .boolean (.list .boolean) p.options "Reads"
      (readingBits (bitListAt q 1 name)) [(1, views)] [Windowed.unstamped b] = _
    rw [evaluateParDo_fits hfit, processInChunks_single]
    exact congrArg (fun r : Processed (List Bool) => Evaluated.mk r.effects
      (Processed.output (k := .list .boolean) "Reads" r)) hone
  refine ⟨{ before with outputs := before.outputs ++ [_] }, ?_, rfl⟩
  have hsplit : (readerGraph (bitListAt q 1 name) b).stages =
      (readerGraph (bitListAt q 1 name) b).stages.take 3 ++ [readerStage (bitListAt q 1 name)] := rfl
  rw [hsplit, runStages_append_ok hbefore]
  exact runStages_quiet hreads

/-- In another pipeline the view with the same number reads `true`. The function of a stage of the
first pipeline, which declares a view of its own, reads `false` from it, and emits that. -/
theorem sideInput_foreign :
    ∃ (p q : Pipeline) (v w : View (.list .boolean)) (g g' : Graph) (outputs outputs' : Outputs)
      (sur sur' : Surroundings) (s : RunState), p.isSame q = false ∧
      Builder.exec (readerCalls p false fun _ => w) {} = (.ok v, g) ∧
      Builder.exec (readerCalls q true id) {} = (.ok w, g') ∧
      g.Processes p.options (readerStage w) [v.sideInput] outputs sur ∧
      g'.Processes q.options (readerStage w) [w.sideInput] outputs' sur' ∧
      sur'.sideInput w = .ok [true] ∧ sur.sideInput w = .ok [false] ∧
      runStages p.options g.stages { graph := g } = (s, none) ∧
      s.outputs[3]? = some (.elements (.list .boolean) [Windowed.unstamped [false]]) := by
  obtain ⟨outputs, hp⟩ :=
    readerGraph_processes (twice .bounded) (bitListAt ⟨1, {}⟩ 1 "All") false
  obtain ⟨outputs', hp'⟩ := readerGraph_processes ⟨1, {}⟩ (bitListAt ⟨1, {}⟩ 1 "All") true
  obtain ⟨s, hrun, hemitted⟩ := readerGraph_run (p := twice .bounded) rfl ⟨1, {}⟩ "All" false
    (readerGraph (bitListAt ⟨1, {}⟩ 1 "All") false)
  exact ⟨twice .bounded, ⟨1, {}⟩, bitListAt (twice .bounded) 1 "All", bitListAt ⟨1, {}⟩ 1 "All",
    _, _, outputs, outputs', _, _, s, rfl, rfl, rfl, hp, hp', readerSurroundings_reads ..,
    readerSurroundings_reads .., hrun, hemitted⟩

end CheckedFlow
