import CheckedFlow.Proofs.Assertion.AllOrNothing
import CheckedFlow.Proofs.Build.Ownership
import CheckedFlow.Proofs.Run.Windows
import CheckedFlow.Proofs.Run.Wiring

/-!
# Assertions on a view that is there already

A check fires in the global window, and a view holds the elements of its dataset window by window. So
a view with intervals has no list of all elements to be checked. As the elements of a dataset are all
in the global window or all in intervals, the one window that a check reads holds all of them, or
none: the checker sees the whole dataset, or the check fails and the checker sees nothing.

* `InWindows`: the rule that stages emit in the windows of their elements;
  `BuilderCall.EmitsInWindow.keeps`: calls with such functions keep to it.
* `Windowed.Uniform.reads_iterable`: what the global window reads from a view of uniform elements.
* `assertThatIterable_whole`: what the check of a view finds.
-/

namespace CheckedFlow

open Site

variable {k : Kind} {g₀ g' later : Graph} {st : RunState}

/-! ## Calls whose functions emit in the window of their element -/

/-- The function of a stage emits in the windows of its elements. -/
def InWindows : Rule := fun _ stage => stage.operation.EmitsInWindow

/-- The function that the call is made with emits in the window of its element. An assertion is one
on datasets, values and views. -/
def BuilderCall.EmitsInWindow : BuilderCall → Prop
  | stage (.parDo _ _ doFn _) => doFn.EmitsInWindow
  | stage _ => True
  | assertion c => ∃ names, c.spec.Registers names

theorem StageCall.Registers.emitsInWindow {c : StageCall} {stage : Stage} (h : c.Registers stage)
    (hc : (BuilderCall.stage c).EmitsInWindow) : stage.operation.EmitsInWindow := by
  cases c with
  | create =>
    obtain ⟨encoded, rfl⟩ := h
    trivial
  | parDo d name doFn declared =>
    cases h
    exact hc
  | map d name f =>
    cases h
    exact DoFn.map_emitsInWindow f
  | filter d name keep =>
    cases h
    exact DoFn.filter_emitsInWindow keep
  | _ =>
    cases h
    trivial

theorem Operation.OfEvidence.emitsInWindow {op : Operation} (h : op.OfEvidence) :
    op.EmitsInWindow := by
  cases op with
  | parDo source target input declared doFn =>
    obtain ⟨-, f, rfl⟩ := h
    exact DoFn.map_emitsInWindow f
  | _ => trivial

/-- A call with functions that emit in the windows of their elements keeps to the rule. -/
theorem BuilderCall.EmitsInWindow.keeps {c : BuilderCall} (h : c.EmitsInWindow)
    (given : List Ref) : c.run.Keeps InWindows Scope.Returns (c.start given) := by
  cases c with
  | stage c =>
    refine StageCall.keeps fun stage next hnext => ?_
    rcases c.run_cases with ⟨e, he⟩ | ⟨stage', hstage, hs⟩
    · rw [he] at hnext
      cases hnext
    · rw [hs] at hnext
      cases hnext
      exact hstage.emitsInWindow h
  | assertion c =>
    obtain ⟨names, hnames⟩ := h
    exact AssertionCall.keeps_of_adds (fun name => hnames.adds_of c.pipeline name
      (fun _ _ hop => hop.emitsInWindow) trivial fun _ _ _ => fire_emitsInWindow _ _) given

/-- A site can go on with such a call, which leaves what its program leaves. -/
theorem BuilderCall.EmitsInWindow.can_call {c : BuilderCall} (h : c.EmitsInWindow)
    {s : Site InWindows} (hquiet : s.Quiet) :
    ∃ s' : Site InWindows, Run (fun _ _ => True) s s' ∧ s'.Quiet ∧
      s'.graph = (c.run.run s.graph).2 := by
  obtain ⟨s', -, hrun, hgraph, -, hcalls, -⟩ := Site.can_call (fun _ _ => True) (h.keeps s.handed)
    (hquiet s.clock) trivial fun _ _ _ => trivial
  exact ⟨s', hrun, fun id => by rw [hcalls, hquiet id], hgraph⟩

/-! ## Reading a view of uniform elements -/

/-- The global window of a view of uniform elements reads all of them in their order, if they are in
the global window. If not, it is told that there are intervals only. -/
theorem Windowed.Uniform.reads_iterable {xs : List (Windowed k.Value)} (h : Windowed.Uniform xs)
    (name : String) :
    ((∀ x ∈ xs, x.window = .global) →
      (ViewContents.materialize name .iterable xs).read .global = .ok (xs.map Windowed.value)) ∧
    (¬ (∀ x ∈ xs, x.window = .global) → ∃ n, (ViewContents.materialize name .iterable xs).read
      .global = .error (.viewMaterialization name (.intervalsOnly n))) := by
  refine ⟨fun hall => ViewContents.read_global name _ hall, fun hsome => ?_⟩
  have hnone : (xs.filter fun x => x.window = .global).map Windowed.value = [] := by
    rw [List.map_eq_nil_iff, List.filter_eq_nil_iff]
    exact fun x hx hw => h.resolve_left hsome x hx (of_decide_eq_true hw)
  have hne : xs ≠ [] := by
    rintro rfl
    exact hsome nofun
  rw [ViewContents.read_materialize, if_pos ⟨hnone, rfl, hne⟩]
  exact ⟨_, rfl⟩

/-! ## The check of a view -/

/-- In any pipeline that calls with functions that emit in the windows of their elements have built,
every stage leaves elements that are all in the global window or all in intervals. If `v` is the
iterable view of the dataset `d`, then in every run that gets to the check of `v`, the checker
inspects the list of all elements of `d` in their order; or there are elements in intervals, and the
check fails because the view has no value for all time. -/
theorem assertThatIterable_whole {s : Site InWindows} (h : Run (fun _ _ => True) {} s)
    {d : Dataset k} {v : View (.list k)} {checker : Checker (List k.Value)} {c : CheckHandle}
    (hv : s.graph.stages[v.node]? = some ⟨v.name, .view k (.list k) d.node .iterable⟩)
    (he : Builder.exec ((assertThatIterable v).satisfies checker) s.graph = (.ok c, g'))
    (hlater : g'.stages <+: later.stages)
    (hrun : runStages v.pipeline.options s.graph.stages { graph := g₀ } = (st, none)) :
    (∀ o ∈ st.outputs, o.Uniform) ∧
    ∃ items i, st.outputs[d.node]? = some (.elements k items) ∧
      c.Inspects (k := .list k) later checker i ∧
      ((∀ x ∈ items, x.window = .global) → i = checker (items.map Windowed.value)) ∧
      (¬ (∀ x ∈ items, x.window = .global) →
        ∃ n, i = unreadable (.viewMaterialization v.name (.intervalsOnly n))) := by
  have huniform : ∀ o ∈ st.outputs, o.Uniform := by
    have hrule : ∀ stage ∈ s.graph.stages, stage.operation.EmitsInWindow := fun stage hstage =>
      (h.ruled stage hstage).elim fun _ hop => hop
    have hall : ∀ o ∈ (runStages v.pipeline.options s.graph.stages { graph := g₀ }).1.outputs,
        o.Uniform := runStages_uniform hrule nofun
    rwa [hrun] at hall
  obtain ⟨items, hitems, hview⟩ := runStages_view hrun hv
  have hreads : v.Reads st.outputs ((ViewContents.materialize v.name .iterable items).read
    .global) := ⟨_, hview, rfl⟩
  obtain ⟨hwhole, hnone⟩ := Windowed.Uniform.reads_iterable (k := k)
    (huniform _ (List.mem_of_getElem? hitems)) v.name
  obtain ⟨w, hb⟩ := checkValue_builds (k := .list k) (g := s.graph.nextAssertion.2)
    (runStages_outputs_length hrun) (Evidence.ofView_leads hreads)
    (IterableAssertion.satisfies_ok he)
  refine ⟨huniform, items, _, hitems, ⟨w, hb.finds hrun hlater⟩, fun hall => ?_, fun hsome => ?_⟩
  · rw [hwhole hall]
    rfl
  · obtain ⟨n, hn⟩ := hnone hsome
    exact ⟨n, congrArg (inspectRead · checker) hn⟩

/-- The bits in intervals of ten milliseconds. -/
def spreadBits : Dataset .boolean := ⟨twice .bounded, 1, "Spread", some (bitCodec none)⟩

/-- The graph with the bits, the bits in intervals, and a view of each. -/
def bitsViewsGraph : Graph where
  stages :=
    [⟨"Bits", .create .boolean (bitCodec none) [([0], .least), ([1], .least)]⟩,
      ⟨"Spread", .windowInto .boolean 0 (.fixed 10)⟩,
      ⟨"All", .view .boolean (.list .boolean) 0 .iterable⟩,
      ⟨"Parts", .view .boolean (.list .boolean) 1 .iterable⟩]
  names := ["Parts", "All", "Spread", "Bits"]

theorem bitsViewsGraph_site :
    ∃ s : Site InWindows, Run (fun _ _ => True) {} s ∧ s.graph = bitsViewsGraph := by
  obtain ⟨s₁, hrun₁, hquiet₁, hgraph₁⟩ := BuilderCall.EmitsInWindow.can_call (s := {})
    (c := .stage (.create (k := .boolean) (twice .bounded) "Bits" [(false, .least), (true, .least)]
      (bitCodec none))) trivial fun _ => rfl
  obtain ⟨s₂, hrun₂, hquiet₂, hgraph₂⟩ := BuilderCall.EmitsInWindow.can_call
    (c := .stage (.windowInto (bits (twice .bounded) none) "Spread" (.fixed 10))) trivial hquiet₁
  obtain ⟨s₃, hrun₃, hquiet₃, hgraph₃⟩ := BuilderCall.EmitsInWindow.can_call
    (c := .stage (.view (l := .list .boolean) (bits (twice .bounded) none) "All" .iterable))
    trivial hquiet₂
  obtain ⟨s₄, hrun₄, -, hgraph₄⟩ := BuilderCall.EmitsInWindow.can_call
    (c := .stage (.view (l := .list .boolean) spreadBits "Parts" .iterable)) trivial hquiet₃
  refine ⟨s₄, ((hrun₁.trans hrun₂).trans hrun₃).trans hrun₄, ?_⟩
  rw [hgraph₄, hgraph₃, hgraph₂, hgraph₁]
  rfl

/-- The view with the number `n` of the graph. -/
def bitsViewAt (n : NodeId) (name : String) : View (.list .boolean) :=
  ⟨twice .bounded, n, name, .iterable⟩

/-- Accepts the two bits in their order. -/
def bothBits : Checker (List Bool) := fun xs =>
  if xs = [false, true] then ⟨.passed, []⟩ else ⟨.panicked none, []⟩

/-- The check of the view of the bits sees both of them. That of the view of the same bits in
intervals fails. -/
theorem assertThatIterable_whole_bits :
    ∃ (c c' : CheckHandle) (g g' : Graph) (n : Nat),
      Builder.exec ((assertThatIterable (bitsViewAt 2 "All")).satisfies bothBits) bitsViewsGraph =
        (.ok c, g) ∧
      c.Inspects (k := .list .boolean) g bothBits ⟨.passed, []⟩ ∧
      Builder.exec ((assertThatIterable (bitsViewAt 3 "Parts")).satisfies bothBits)
        bitsViewsGraph = (.ok c', g') ∧
      c'.Inspects (k := .list .boolean) g' bothBits
        (unreadable (.viewMaterialization "Parts" (.intervalsOnly n))) := by
  obtain ⟨s, hsite, hgraph⟩ := bitsViewsGraph_site
  obtain ⟨st, hst⟩ : ∃ st, st =
    (runStages (twice .bounded).options bitsViewsGraph.stages { graph := {} }).1 := ⟨_, rfl⟩
  have hrun : runStages (twice .bounded).options s.graph.stages { graph := {} } = (st, none) := by
    rw [hgraph, hst]
    rfl
  have hbits : st.outputs[0]? =
      some (.elements .boolean [.unstamped false, .unstamped true]) := by rw [hst]; rfl
  have hspread : ∃ w x y, w ≠ .global ∧
      st.outputs[1]? = some (.elements .boolean [⟨x, .least, w⟩, ⟨y, .least, w⟩]) :=
    ⟨(WindowFn.fixed 10).assign .least, false, true, nofun, by rw [hst]; rfl⟩
  obtain ⟨c, g, hc⟩ : ∃ c g, Builder.exec
    ((assertThatIterable (bitsViewAt 2 "All")).satisfies bothBits) bitsViewsGraph = (.ok c, g) :=
    ⟨_, _, rfl⟩
  obtain ⟨c', g', hc'⟩ : ∃ c g, Builder.exec
    ((assertThatIterable (bitsViewAt 3 "Parts")).satisfies bothBits) bitsViewsGraph = (.ok c, g) :=
    ⟨_, _, rfl⟩
  obtain ⟨-, items, i, hitems, hfinds, hwhole, -⟩ := assertThatIterable_whole hsite
    (d := bits (twice .bounded) none) (by rw [hgraph]; rfl) (hgraph ▸ hc) (List.prefix_refl _) hrun
  obtain ⟨-, parts, i', hitems', hfinds', -, hnone⟩ := assertThatIterable_whole hsite
    (d := spreadBits) (by rw [hgraph]; rfl) (hgraph ▸ hc') (List.prefix_refl _) hrun
  obtain ⟨w, x, y, hw, hspread⟩ := hspread
  cases hbits.symm.trans hitems
  cases hspread.symm.trans hitems'
  obtain rfl := hwhole (by simp [Windowed.unstamped])
  obtain ⟨n, rfl⟩ := hnone fun hall => hw (hall _ List.mem_cons_self)
  exact ⟨c, c', g, g', n, hc, hfinds, hc', hfinds'⟩

end CheckedFlow
