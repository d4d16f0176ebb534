import CheckedFlow.Proofs.Check.Firing

/-!
# Checks see copies

The checker of a dataset never sees an element: it is handed what the view function makes of the
elements' copies, in the order of the dataset. Neither the windows and timestamps of the elements
nor the number of workers matters. If a copy fails, the checker is not asked: the check fails with
the place and the cause of the first copy that did.

* `ReadsCopies`: what is read from a view of copies.
* `Evidence.Ready`: evidence whose stages do not fail, whatever they meet; `Evidence.Ready.leads`.
* `check_reads_copies`: the law for checks of one value and for checks against an expected one.
-/

namespace CheckedFlow

variable {k l : Kind} {g : Graph}

/-! ## Views of copies -/

/-- What is read from the view `view` of the copies of `xs`: the view function's value of the copies
or its own refusal, if all of them succeed; else the first copy that failed. -/
structure ReadsCopies (codec : Codec k.Value) (f : ViewFn k.Value l.Value) (view : String)
    (xs : List k.Value) (r : Except PipelineError l.Value) : Prop where
  copied : ∀ copies, xs.map codec.copy = copies.map .ok → r = ViewContents.valueOf view f copies
  failed : ∀ i e, (xs.map codec.copy)[i]? = some (.error e) →
    (∀ j < i, ∃ y, (xs.map codec.copy)[j]? = some (.ok y)) →
    r = .error (.viewMaterialization view (.view (.copyFailed i e)))

theorem readsCopies_valueOf (codec : Codec k.Value) (f : ViewFn k.Value l.Value) (view : String)
    (xs : List k.Value) :
    ReadsCopies codec f view xs
      (ViewContents.valueOf view f.afterCopying (xs.map codec.copy)) where
  copied copies h := by
    simp only [ViewContents.valueOf, ViewFn.afterCopying, h, ViewFn.copied_ok]
    rfl
  failed i e hi hfirst := by
    have hc : ViewFn.copied 0 (xs.map codec.copy) = .error (.copyFailed (0 + i) e) :=
      ViewFn.copied_error hi hfirst
    simp only [ViewContents.valueOf, ViewFn.afterCopying, hc, Nat.zero_add]
    rfl

/-- The message of a check that found a failed copy names the copy's place and its error. -/
theorem failedCopy_message (view : String) (i : Nat) (e : SerializationError) :
    (CheckFailure.sideInput (.viewMaterialization view (.view (.copyFailed i e)))).message =
      "Could not read checked value: " ++ ("View '" ++ view ++ "' could not be materialized: " ++
        ("element " ++ Text.decimal i ++ " failed to round-trip: " ++ e.message)) :=
  rfl

/-! ## Evidence that does not fail -/

/-- Evidence about handles of `g` whose stages do not fail. Of given values this needs that their
encodings can be decoded again. -/
inductive Evidence.Ready (g : Graph) : {k : Kind} → Evidence k → Prop
  | ofDataset {k l : Kind} {d : Dataset k} (f : ViewFn k.Value l.Value)
      (fallback : Option (Codec k.Value)) (keyed : Bool) (hd : d.In g) :
      Ready g (ofDataset d f fallback keyed)
  | ofValues {k l : Kind} {values : List k.Value} {codec : Codec k.Value}
      (f : ViewFn k.Value l.Value) (h : ∀ x ∈ values, ∃ y, codec.copy x = .ok y) :
      Ready g (ofValues values (some codec) f)
  | ofView {k : Kind} {v : View k} (hv : v.In g) : Ready g (ofView v)

/-- Behind a run of `g`, ready evidence shows the same wherever it is expanded. -/
theorem Evidence.Ready.leads_anywhere {e : Evidence k} (he : e.Ready g) {p : Pipeline}
    (hfit : p.options.FitsTasks) {g₀ : Graph} {s : RunState}
    (hrun : runStages p.options g.stages { graph := g₀ } = (s, none)) (under : String) :
    ∃ r, ∀ g₁ os, (s.outputs ++ os).length = g₁.stages.length →
      e.Leads p under g₁ (s.outputs ++ os) r := by
  cases he with
  | ofDataset f fallback keyed hd =>
    rename_i k d
    obtain ⟨items, hitems⟩ := hd.elements hrun
    have hitems' (os : Outputs) : (s.outputs ++ os)[d.node]? = some (.elements k items) := by
      rw [List.getElem?_append_left (List.getElem?_eq_some_iff.mp hitems).1, hitems]
    have hread : ∃ r, ∀ codec, (d.codec <|> fallback) = some codec →
        ViewContents.valueOf (under ++ "/View") f.afterCopying
          (items.map fun x => codec.copy x.value) = r := by
      cases d.codec <|> fallback with
      | none => exact ⟨.error (.internal (.told "")), nofun⟩
      | some codec =>
        refine ⟨ViewContents.valueOf (under ++ "/View") f.afterCopying
          (items.map fun x => codec.copy x.value), fun codec' h => ?_⟩
        rw [Option.some.inj h]
    obtain ⟨r, hr⟩ := hread
    exact ⟨r, fun g₁ os hlen => ofDataset_leads hfit hlen (hitems' os) hr⟩
  | ofValues f h =>
    obtain ⟨copies, hcopies⟩ := exists_copies h
    exact ⟨_, fun g₁ os hlen => ofValues_leads hcopies hlen⟩
  | ofView hv =>
    obtain ⟨stage, hn, hl⟩ := hv
    obtain ⟨o, ho, hs⟩ := runStages_output hrun hn
    obtain ⟨contents, rfl⟩ := Output.eq_view (hs.trans hl)
    exact ⟨_, fun g₁ os _ => ofView_leads (View.Reads.append ⟨contents, ho, rfl⟩ os)⟩

/-- Ready evidence shows the same whether or not other stages are registered before it. -/
theorem Evidence.Ready.leads {e : Evidence k} (he : e.Ready g) {p : Pipeline}
    (hfit : p.options.FitsTasks) {g₀ g₁ : Graph} {s : RunState}
    (hrun : runStages p.options g.stages { graph := g₀ } = (s, none)) (hg : g₁.stages = g.stages)
    (under : String) :
    ∃ r, e.Leads p under g₁ s.outputs r ∧ ∀ new os, os.length = new.length →
      e.Leads p under (g₁.extend new) (s.outputs ++ os) r := by
  have hlen : s.outputs.length = g₁.stages.length := hg ▸ runStages_outputs_length hrun
  obtain ⟨r, hr⟩ := he.leads_anywhere hfit hrun under
  refine ⟨r, ?_, fun new os hos => hr _ os ?_⟩
  · have hnil := hr g₁ []
    rw [List.append_nil] at hnil
    exact hnil hlen
  · exact Graph.length_extend hlen hos

/-! ## The law -/

/-- A check of a dataset is handed the view function's value of the copies of all elements, in their
order, whatever their windows and timestamps are and however many workers there are; if a copy
fails, the check fails with the first one and its checker or relation is not asked. -/
theorem check_reads_copies {p : Pipeline} (hfit : p.options.FitsTasks) {s : RunState}
    (hrun : runStages p.options g.stages { graph := g } = (s, none)) {d : Dataset k}
    {items : List (Windowed k.Value)} (hd : s.outputs[d.node]? = some (.elements k items))
    (f : ViewFn k.Value l.Value) (fallback : Option (Codec k.Value)) (keyed : Bool)
    (name : String) :
    let view := name ++ "/CreateActual" ++ "/View"
    (∀ checker h g' later,
      Builder.exec (checkValue p name (.ofDataset d f fallback keyed) checker) g = (.ok h, g') →
      g'.stages <+: later.stages →
      ∃ codec r, (d.codec <|> fallback) = some codec ∧
        ReadsCopies codec f view (items.map Windowed.value) r ∧
        h.Inspects later checker (inspectRead r checker)) ∧
    (∀ {m : Kind} (expected : Evidence m) relation h g' later, expected.Ready g →
      Builder.exec (checkAgainst p name (.ofDataset d f fallback keyed) expected relation) g =
        (.ok h, g') →
      g'.stages <+: later.stages →
      ∃ codec r r', (d.codec <|> fallback) = some codec ∧
        ReadsCopies codec f view (items.map Windowed.value) r ∧
        h.Compares later relation
          (inspectRead r fun x => inspectRead r' fun y => relation.bind y x)) ∧
    ∀ i e,
      (CheckFailure.sideInput (.viewMaterialization view (.view (.copyFailed i e)))).message =
        "Could not read checked value: " ++ ("View '" ++ view ++ "' could not be materialized: " ++
          ("element " ++ Text.decimal i ++ " failed to round-trip: " ++ e.message)) := by
  intro view
  have hlen : s.outputs.length = g.stages.length := runStages_outputs_length hrun
  have hcopies (codec : Codec k.Value) := readsCopies_valueOf codec f view
    (items.map Windowed.value)
  simp only [List.map_map] at hcopies
  have hleads : ∀ codec, (d.codec <|> fallback) = some codec →
      (Evidence.ofDataset d f fallback keyed).Leads p (name ++ "/CreateActual") g s.outputs
        (ViewContents.valueOf view f.afterCopying (items.map fun x => codec.copy x.value)) :=
    fun codec hcodec => Evidence.ofDataset_leads hfit hlen hd
      fun codec' h => by rw [Option.some.inj (h.symm.trans hcodec)]
  refine ⟨fun checker h g' later he hlater => ?_, fun expected relation h g' later hready he
    hlater => ?_, failedCopy_message view⟩
  · obtain ⟨v, g₁, hv, -⟩ := Builder.exec_bind_ok.mp (allOrNothing_ok he)
    obtain ⟨codec, hcodec, -⟩ := Evidence.ofDataset_ok hv
    exact ⟨codec, _, hcodec, hcopies codec,
      (checkValue_builds hlen (hleads codec hcodec) he).imp fun _ hb => hb.finds hrun hlater⟩
  · obtain ⟨v, g₁, hv, -⟩ := Builder.exec_bind_ok.mp (allOrNothing_ok he)
    obtain ⟨codec, hcodec, -⟩ := Evidence.ofDataset_ok hv
    obtain ⟨r', -, hr'⟩ := hready.leads hfit hrun rfl (name ++ "/CreateExpected")
    obtain ⟨v, w, hb⟩ := checkAgainst_builds hlen (hleads codec hcodec) hr' he
    exact ⟨codec, _, r', hcodec, hcopies codec, v, w, hb.finds hrun hlater⟩

/-! ## A refused copy -/

/-- Accepts every list. -/
def acceptsAll : Checker (List Bool) := fun _ => ⟨.passed, []⟩

/-- A check of the bits that copies them with a codec that refuses `true`, and accepts the copies. -/
def refusingCheck (mode : RunMode) : Builder CheckHandle :=
  checkValue (k := .list .boolean) (twice mode) "Check"
    (.ofDataset (l := .list .boolean) (bits (twice mode) (some true)) .iterable) acceptsAll

/-- The second copy failed. -/
def secondRefused : PipelineError :=
  .viewMaterialization "Check/CreateActual/View"
    (.view (.copyFailed 1 (.decoding (.told "refused"))))

/-- The second copy is refused; the checker, which accepts everything, is not asked. So it is in both
run modes, and the bounded run reports the place and the cause. -/
theorem check_reads_copies_refused :
    (∃ h g' r, Builder.exec (refusingCheck .bounded) (bitsGraph (twice .bounded)) = (.ok h, g') ∧
      h.Inspects (k := .list .boolean) g' acceptsAll (unreadable secondRefused) ∧
      ((twice .bounded).run g').1 = some r ∧
      r.failure = some (.stageFailed "Check/RunChecks" (.check (.sideInput secondRefused)))) ∧
    ∃ h g', Builder.exec (refusingCheck .unbounded) (bitsGraph (twice .unbounded)) = (.ok h, g') ∧
      h.Inspects (k := .list .boolean) g' acceptsAll (unreadable secondRefused) := by
  have hfirst : ∀ j < 1, ∃ y, ([false, true].map (bitCodec (some true)).copy)[j]? =
      some (.ok y) := by
    intro j hj
    obtain rfl : j = 0 := by omega
    exact ⟨false, rfl⟩
  have hfinds : ∀ mode h g', Builder.exec (refusingCheck mode) (bitsGraph (twice mode)) =
      (.ok h, g') → h.Inspects (k := .list .boolean) g' acceptsAll (unreadable secondRefused) := by
    intro mode h g' he
    have hfit : (twice mode).options.FitsTasks := rfl
    obtain ⟨codec, r, hc, hr, hf⟩ := (check_reads_copies (l := .list .boolean)
      (d := bits (twice mode) (some true)) hfit (bitsGraph_run mode) rfl .iterable none
      false "Check").1 acceptsAll h g' g' he (List.prefix_refl _)
    cases hc
    rwa [hr.failed 1 _ rfl hfirst] at hf
  refine ⟨?_, _, _, rfl, hfinds .unbounded _ _ rfl⟩
  obtain ⟨h, g', he, hp, hs⟩ : ∃ h g', Builder.exec (refusingCheck .bounded)
      (bitsGraph (twice .bounded)) = (.ok h, g') ∧ h.pipeline = twice .bounded ∧
        h.stage = "Check/RunChecks" := ⟨_, _, rfl, rfl, rfl⟩
  obtain ⟨v, hf⟩ := hfinds .bounded h g' he
  obtain ⟨r, hrun, hfailure⟩ := hf.failure (by rw [hp]; rfl) (by rw [hp]; rfl) rfl
  rw [hp] at hrun
  rw [hs] at hfailure
  exact ⟨h, g', r, he, ⟨v, hf⟩, hrun, hfailure⟩

end CheckedFlow
