import CheckedFlow.Proofs.Build.Expansion
import CheckedFlow.Proofs.Run.Chunks
import CheckedFlow.Proofs.Run.Source
import CheckedFlow.Proofs.View.Reading

/-!
# What evidence shows

The stages that evidence expands into leave a view and nothing else: they count nothing, enter no
state, note nothing and do not fail, whatever the elements, the codec and the view function are. All
that can go wrong is in the view, where the check that reads it finds it. The one exception is a
given value whose bytes are refused when the run decodes them.

* `RunsQuietly`: stages that leave outputs and do nothing else.
* `View.Reads`: what the global window reads from a view.
* `Evidence.Leads`: the stages of the evidence run quietly and end in a view of which a value or an
  error is read.
* `ofDataset_leads`, `ofValues_leads`, `ofView_leads`: the three sorts of evidence.
-/

namespace CheckedFlow

variable {k l : Kind} {options : PipelineOptions} {outputs os os' : Outputs}

/-! ## Quiet stages -/

/-- The stages `ss` behind the outputs `outputs` leave `os` and do nothing else. -/
def RunsQuietly (options : PipelineOptions) (ss : List Stage) (outputs os : Outputs) : Prop :=
  ∀ s : RunState, s.outputs = outputs →
    runStages options ss s = ({ s with outputs := outputs ++ os }, none)

namespace RunsQuietly

theorem nil : RunsQuietly options [] outputs [] := by
  rintro s rfl
  simp [runStages]

/-- One stage in front of others. -/
theorem cons {stage : Stage} {ss : List Stage} {o : Output}
    (h : stage.operation.evaluate options stage.name outputs = { result := .ok o })
    (hs : RunsQuietly options ss (outputs ++ [o]) os) :
    RunsQuietly options (stage :: ss) outputs (o :: os) := by
  rintro s rfl
  rw [runStages_quiet h, hs { s with outputs := s.outputs ++ [o] } rfl, List.append_assoc]
  rfl

theorem append {ss ts : List Stage} (hs : RunsQuietly options ss outputs os)
    (ht : RunsQuietly options ts (outputs ++ os) os') :
    RunsQuietly options (ss ++ ts) outputs (os ++ os') := by
  intro s h
  rw [runStages_append_ok (hs s h), ht { s with outputs := outputs ++ os } rfl, List.append_assoc]

theorem length {ss : List Stage} (h : RunsQuietly options ss outputs os) :
    os.length = ss.length := by
  have hr := runStages_length (h { outputs := outputs, graph := {} } rfl)
  simp only [List.length_append] at hr
  omega

/-- Behind a run of `g` quiet stages leave their outputs, whatever graph the run starts with. -/
theorem behind {ss : List Stage} {g g₀ : Graph} {s : RunState}
    (h : RunsQuietly options ss s.outputs os)
    (hrun : runStages options g.stages { graph := g₀ } = (s, none)) (g₁ : Graph) :
    ∃ g₂, runStages options (g.stages ++ ss) { graph := g₁ } =
      ({ s with graph := g₂, outputs := s.outputs ++ os }, none) := by
  obtain ⟨g₂, hrun'⟩ := @runStages_withGraph options g.stages { graph := g₀ } g₁
  rw [hrun] at hrun'
  exact ⟨g₂, (runStages_append_ok hrun').trans (h _ rfl)⟩

end RunsQuietly

/-! ## Reading a view -/

/-- What the global window reads from the view `v`. -/
def View.Reads (v : View k) (outputs : Outputs) (r : Except PipelineError k.Value) : Prop :=
  ∃ contents, outputs[v.node]? = some (.view k contents) ∧ contents.read .global = r

/-- Later stages do not change what is read. -/
theorem View.Reads.append {v : View k} {r : Except PipelineError k.Value}
    (h : v.Reads outputs r) (os : Outputs) : v.Reads (outputs ++ os) r := by
  obtain ⟨contents, hc, hr⟩ := h
  refine ⟨contents, ?_, hr⟩
  rw [List.getElem?_append_left (List.getElem?_eq_some_iff.mp hc).1, hc]

/-- The evidence `e`, expanded behind `g`, leads to a view of which `r` is read, by stages that do
nothing else. -/
def Evidence.Leads (e : Evidence k) (p : Pipeline) (under : String) (g : Graph)
    (outputs : Outputs) (r : Except PipelineError k.Value) : Prop :=
  ∀ v g', Builder.exec (e p under) g = (.ok v, g') →
    ∃ new os, g' = g.extend new ∧ RunsQuietly p.options new outputs os ∧
      v.Reads (outputs ++ os) r

/-! ## Stages of evidence -/

theorem Outputs.elements_ok {node : NodeId} {consumer : String}
    {items : List (Windowed k.Value)} (h : outputs[node]? = some (.elements k items)) :
    outputs.elements k node consumer = .ok items := by
  have ho : outputs.output node consumer = .ok (.elements k items) := by rw [Outputs.output, h]
  unfold Outputs.elements
  simp only [ho, bind, Except.bind, Output.elements?_elements]
  rfl

/-- What a stage reads as elements is an output. -/
theorem Outputs.elements_getElem? {node : NodeId} {consumer : String}
    {items : List (Windowed k.Value)} (h : outputs.elements k node consumer = .ok items) :
    outputs[node]? = some (.elements k items) := by
  obtain ⟨o, ho, h⟩ := Except.bind_ok h
  split at h
  · rename_i found hfound
    cases h
    cases o with
    | view => cases hfound
    | elements kind items =>
      simp only [Output.elements?] at hfound
      split at hfound
      · rename_i hk
        subst hk
        cases hfound
        unfold Outputs.output at ho
        split at ho
        · rename_i hn
          cases ho
          exact hn
        · cases ho
      · cases hfound
  · cases h

theorem evaluate_windowInto {node : NodeId} {stage : String} {f : WindowFn}
    {items : List (Windowed k.Value)} (h : outputs[node]? = some (.elements k items)) :
    (Operation.windowInto k node f).evaluate options stage outputs =
      { result := .ok (.elements k (items.map fun x => { x with window := f.assign x.timestamp })) }
      := by
  rw [Operation.evaluate, Outputs.elements_ok h]
  rfl

theorem evaluate_view {node : NodeId} {stage : String} {f : ViewFn k.Value l.Value}
    {items : List (Windowed k.Value)} (h : outputs[node]? = some (.elements k items)) :
    (Operation.view k l node f).evaluate options stage outputs =
      { result := .ok (.view l (.materialize stage f items)) } := by
  rw [Operation.evaluate, Outputs.elements_ok h]
  rfl

theorem evaluate_parDo_plain {node : NodeId} {stage : String}
    {doFn : DoFn k.Value l.Value} {items : List (Windowed k.Value)}
    (h : outputs[node]? = some (.elements k items)) :
    (Operation.parDo k l node [] doFn).evaluate options stage outputs =
      evaluateParDo options stage doFn [] items := by
  simp only [Operation.evaluate, Outputs.elements_ok h]
  rfl

/-- A stage that processes elements has an output only if its workers' tasks can be listed. -/
theorem Operation.evaluate_ok_fits {node : NodeId} {declared : List SideInput} {stage : String}
    {doFn : DoFn k.Value l.Value} {o : Output}
    (h : ((Operation.parDo k l node declared doFn).evaluate options stage outputs).result = .ok o) :
    options.FitsTasks := by
  simp only [Operation.evaluate] at h
  split at h
  · cases h
  · exact evaluateParDo_ok_fits h

/-- A run to the end of stages among which one processes elements could list the tasks of workers. -/
theorem runStages_fits {ss : List Stage} {s s' : RunState} {name : String} {node : NodeId}
    {declared : List SideInput} {doFn : DoFn k.Value l.Value}
    (h : runStages options ss s = (s', none)) (hmem : ⟨name, .parDo k l node declared doFn⟩ ∈ ss) :
    options.FitsTasks := by
  obtain ⟨before, after, rfl⟩ := List.append_of_mem hmem
  obtain ⟨s₁, -, h₁⟩ := runStages_split h
  simp only [runStages] at h₁
  split at h₁
  · rename_i ho
    exact Operation.evaluate_ok_fits ho
  · cases h₁

/-- The elements in the global window. -/
def globally (items : List (Windowed k.Value)) : List (Windowed k.Value) :=
  items.map fun x => { x with window := .global }

/-- The copies of elements as a stage leaves them, in the global window. -/
def copiesOf (codec : Codec k.Value) (items : List (Windowed k.Value)) :
    List (Windowed (Kind.copy k).Value) :=
  items.map fun x => ⟨codec.copy x.value, x.timestamp, .global⟩

/-- The view of copies reads what the view function makes of them. -/
theorem read_copies (name : String) (f : ViewFn k.Value l.Value) (codec : Codec k.Value)
    (items : List (Windowed k.Value)) :
    (ViewContents.materialize name f.afterCopying (copiesOf codec items)).read .global =
      ViewContents.valueOf name f.afterCopying (items.map fun x => codec.copy x.value) := by
  rw [ViewContents.read_global]
  · rw [copiesOf, List.map_map]
    rfl
  · intro x hx
    obtain ⟨y, -, rfl⟩ := List.mem_map.mp hx
    rfl

/-- Copying elements and viewing the copies is quiet; what went wrong is in the view. -/
theorem copyStages_quiet (hfit : options.FitsTasks) {node : NodeId} {codec : Codec k.Value}
    {f : ViewFn k.Value l.Value} {under : String} {items : List (Windowed k.Value)}
    (h : outputs[node]? = some (.elements k items)) :
    RunsQuietly options (copyStages node codec f under outputs.length) outputs
      [.elements k (globally items),
        .elements (.copy k) (copiesOf codec items),
        .view l (.materialize (under ++ "/View") f.afterCopying (copiesOf codec items))] := by
  have hisolate : (Operation.parDo k (.copy k) outputs.length [] (DoFn.map codec.copy)).evaluate
      options (under ++ "/Isolate") (outputs ++ [.elements k (globally items)]) =
        { result := .ok (.elements (.copy k) (copiesOf codec items)) } := by
    rw [evaluate_parDo_plain List.getElem?_concat_length, evaluateParDo_map hfit, globally,
      List.map_map]
    rfl
  exact .cons (evaluate_windowInto h) (.cons hisolate (.cons (evaluate_view (by simp)) .nil))

/-- Evidence about a dataset shows the view function's value of the copies, by whatever codec makes
them. -/
theorem Evidence.ofDataset_leads {p : Pipeline} (hfit : p.options.FitsTasks) {d : Dataset k}
    {f : ViewFn k.Value l.Value} {fallback : Option (Codec k.Value)} {keyed : Bool}
    {under : String} {g : Graph} {items : List (Windowed k.Value)}
    {r : Except PipelineError l.Value} (hlen : outputs.length = g.stages.length)
    (h : outputs[d.node]? = some (.elements k items))
    (hr : ∀ codec, (d.codec <|> fallback) = some codec →
      ViewContents.valueOf (under ++ "/View") f.afterCopying
        (items.map fun x => codec.copy x.value) = r) :
    (ofDataset d f fallback keyed).Leads p under g outputs r := by
  intro v g' he
  obtain ⟨codec, hc, rfl, hg⟩ := ofDataset_ok he
  obtain rfl := hr codec hc
  refine ⟨_, _, hg, hlen ▸ copyStages_quiet hfit h, _, ?_, read_copies ..⟩
  rw [← hlen]
  simp

/-- Values that all decode are viewed quietly. -/
theorem valueStages_quiet {encoded : List (Bytes × Timestamp)} {codec : Codec k.Value}
    {f : ViewFn k.Value l.Value} {under : String} {items : List (Windowed k.Value)}
    (h : decodeSource (under ++ "/Values") codec encoded = .ok items) :
    RunsQuietly options (valueStages encoded codec f under outputs.length) outputs
      [.elements k items, .view l (.materialize (under ++ "/View") f items)] := by
  have hcreate : (Operation.create k codec encoded).evaluate options (under ++ "/Values") outputs =
      { result := .ok (.elements k items) } := by
    rw [Operation.evaluate, h]
    rfl
  exact .cons hcreate (.cons (evaluate_view List.getElem?_concat_length) .nil)

/-- Evidence about values that all decode shows the view function's value of their copies. -/
theorem Evidence.ofValues_leads {p : Pipeline} {values copies : List k.Value}
    {codec : Codec k.Value} {f : ViewFn k.Value l.Value} {under : String} {g : Graph}
    (hcopies : values.map codec.copy = copies.map .ok)
    (hlen : outputs.length = g.stages.length) :
    (ofValues values (some codec) f).Leads p under g outputs
      (ViewContents.valueOf (under ++ "/View") f copies) := by
  intro v g' he
  obtain ⟨codec', encoded, hc, henc, rfl, hg⟩ := ofValues_ok he
  cases hc
  have hdecoded : decodeSource (under ++ "/Values") codec encoded = .ok (copies.map .unstamped) :=
    decodeSource_unstamped henc hcopies
  have hread : (ViewContents.materialize (under ++ "/View") f
      (copies.map Windowed.unstamped)).read .global =
        ViewContents.valueOf (under ++ "/View") f copies := by
    rw [ViewContents.read_global, List.map_map]
    · exact congrArg _ (List.map_id copies)
    · intro x hx
      obtain ⟨y, -, rfl⟩ := List.mem_map.mp hx
      rfl
  refine ⟨_, _, hg, hlen ▸ valueStages_quiet hdecoded, _, ?_, hread⟩
  rw [← hlen]
  simp

/-- Evidence about values that are their own copies, if they have encodings, shows the view
function's value of them. -/
theorem Evidence.ofValues_leads_roundTrips {p : Pipeline} {values : List k.Value}
    {codec : Codec k.Value} {f : ViewFn k.Value l.Value} {under : String} {g : Graph}
    (h : ∀ x ∈ values, ∀ bytes, codec.encode x = .ok bytes → codec.RoundTrips x)
    (hlen : outputs.length = g.stages.length) :
    (ofValues values (some codec) f).Leads p under g outputs
      (ViewContents.valueOf (under ++ "/View") f values) := by
  intro v g' he
  obtain ⟨codec', encoded, hc, henc, -, -⟩ := ofValues_ok he
  cases hc
  have hcopies : values.map codec.copy = values.map .ok := by
    refine List.map_congr_left fun x hx => ?_
    obtain ⟨bytes, hbytes⟩ := encodeSource_encodes henc (x, Timestamp.least)
      (List.mem_map_of_mem hx)
    exact h x hx bytes hbytes
  exact ofValues_leads hcopies hlen v g' he

/-- Evidence about a view shows the view. -/
theorem Evidence.ofView_leads {p : Pipeline} {v : View k} {under : String} {g : Graph}
    {r : Except PipelineError k.Value} (h : v.Reads outputs r) :
    (ofView v).Leads p under g outputs r := by
  intro w g' he
  obtain ⟨rfl, rfl⟩ := ofView_ok he
  exact ⟨[], [], (Graph.extend_nil _).symm, .nil, by rwa [List.append_nil]⟩

end CheckedFlow
