import CheckedFlow.Proofs.Assertion.Terminal
import CheckedFlow.Proofs.Check.Relation

/-!
# What `containsInAnyOrder` decides

From the source of a dataset to the verdict: if the codecs keep the values, every firing of the
check passes exactly if the collection is a reordering of the expected values, in every run mode,
with any number of workers and whatever windows and timestamps the elements have.

* `containsInAnyOrder_finds`: what the firings find, for a collection that was read or could not be.
* `containsInAnyOrder_verdict`: the verdict on all elements of a dataset and on its only list.
-/

namespace CheckedFlow

variable {k l : Kind} {g g' later : Graph} {s : RunState} {h : CheckHandle}

/-- Codecs that keep the values leave the view function the values themselves. -/
theorem valueOf_roundTrips {codec : Codec k.Value} {f : ViewFn k.Value l.Value} {view : String}
    {items : List (Windowed k.Value)} (h : ∀ x ∈ items, codec.RoundTrips x.value) :
    ViewContents.valueOf view f.afterCopying (items.map fun x => codec.copy x.value) =
      ViewContents.valueOf view f (items.map Windowed.value) := by
  have hcopies : (items.map Windowed.value).map codec.copy =
      (items.map Windowed.value).map .ok := by
    rw [List.map_map, List.map_map]
    exact List.map_congr_left h
  rw [← (readsCopies_valueOf codec f view _).copied _ hcopies, List.map_map]
  rfl

/-- The firings read the collection that the evidence shows, and compare it with the expected
values themselves. -/
theorem containsInAnyOrder_finds {a : IterableAssertion k} {expected : List k.Value}
    (hrun : runStages a.pipeline.options g.stages { graph := g } = (s, none))
    (hb : Builder.exec (a.containsInAnyOrder expected) g = (.ok h, g'))
    (hlater : g'.stages <+: later.stages)
    (hexpected : ∀ c, a.codec = some c → ∀ y ∈ expected, c.RoundTrips y)
    {r : Except PipelineError (List k.Value)}
    (ha : Evidence.Leads (k := .list k) a.evidence a.pipeline
      (g.nextAssertion.1 ++ "/CreateActual") g.nextAssertion.2 s.outputs r) :
    h.Compares (k := .list k) (l := .list k) later (.containsInAnyOrder k.equal k.describe)
      (inspectRead r fun xs =>
        (Relation.containsInAnyOrder k.equal k.describe).bind expected xs) := by
  obtain ⟨codec, hcodec, hc⟩ := IterableAssertion.satisfiesRelation_ok hb
  have hlen : s.outputs.length = g.nextAssertion.2.stages.length := runStages_outputs_length hrun
  have hcopies : expected.map codec.copy = expected.map .ok :=
    List.map_congr_left (hexpected codec hcodec)
  have hgiven : ∀ new os, os.length = new.length →
      Evidence.Leads (k := .list k) (.ofValues expected (some codec) .iterable) a.pipeline
        (g.nextAssertion.1 ++ "/CreateExpected") (g.nextAssertion.2.extend new) (s.outputs ++ os)
        (.ok expected) := by
    intro new os hos
    exact Evidence.ofValues_leads hcopies (Graph.length_extend hlen hos)
  obtain ⟨v, w, hbuilt⟩ := checkAgainst_builds (k := .list k) (l := .list k) hlen ha hgiven hc
  exact ⟨v, w, hbuilt.finds hrun hlater⟩

/-- The verdict of `containsInAnyOrder`, if the codecs keep the values and the equality of elements
is an equivalence. On all elements of a dataset every firing passes exactly if they are a reordering
of the expected values, and else finds a mismatch. On the only list of a dataset every firing passes
exactly if there is one list and it is such a reordering; another list is a mismatch. -/
theorem containsInAnyOrder_verdict (he : IsEquality k.equal) {a : IterableAssertion k}
    (hfit : a.pipeline.options.FitsTasks)
    (hrun : runStages a.pipeline.options g.stages { graph := g } = (s, none))
    {expected : List k.Value}
    (hexpected : ∀ c, a.codec = some c → ∀ y ∈ expected, c.RoundTrips y)
    (hb : Builder.exec (a.containsInAnyOrder expected) g = (.ok h, g'))
    (hlater : g'.stages <+: later.stages) :
    (∀ (d : Dataset k) items, a.actual = .elements d →
      s.outputs[d.node]? = some (.elements k items) →
      (∀ c, (d.codec <|> a.codec) = some c → ∀ x ∈ items, c.RoundTrips x.value) →
      ∃ i, h.Compares (k := .list k) (l := .list k) later
          (.containsInAnyOrder k.equal k.describe) i ∧
        (i.verdict = .passed ↔ Reorders k.equal (items.map Windowed.value) expected) ∧
        (¬ Reorders k.equal (items.map Windowed.value) expected →
          ∃ diff, i.verdict = .failed (.mismatch diff))) ∧
    (∀ (d : Dataset (.list k)) items, a.actual = .singleton d →
      s.outputs[d.node]? = some (.elements (.list k) items) →
      (∀ c, (d.codec <|> a.codec.map Codec.list) = some c → ∀ x ∈ items, c.RoundTrips x.value) →
      ∃ i, h.Compares (k := .list k) (l := .list k) later
          (.containsInAnyOrder k.equal k.describe) i ∧
        (i.verdict = .passed ↔ ∃ x, items = [x] ∧ Reorders k.equal x.value expected) ∧
        (∀ x, items = [x] → ¬ Reorders k.equal x.value expected →
          ∃ diff, i.verdict = .failed (.mismatch diff))) := by
  have hlen : s.outputs.length = g.nextAssertion.2.stages.length := runStages_outputs_length hrun
  refine ⟨fun d items ha hd hround => ?_, fun d items ha hd hround => ?_⟩
  · refine ⟨_, containsInAnyOrder_finds hrun hb hlater hexpected
      (r := .ok (items.map Windowed.value)) ?_, Relation.containsInAnyOrder_passes he ..⟩
    simp only [IterableAssertion.evidence, ha]
    exact Evidence.ofDataset_leads hfit hlen hd fun c hc => valueOf_roundTrips (hround c hc)
  · let view := g.nextAssertion.1 ++ "/CreateActual" ++ "/View"
    refine ⟨_, containsInAnyOrder_finds hrun hb hlater hexpected
      (r := ViewContents.valueOf view .singleton (items.map Windowed.value)) ?_, ?_⟩
    · simp only [IterableAssertion.evidence, ha]
      exact Evidence.ofDataset_leads hfit hlen hd fun c hc => valueOf_roundTrips (hround c hc)
    · match items with
      | [] => simp [ViewContents.valueOf, ViewFn.singleton, inspectRead, unreadable]
      | [x] =>
        have hv := Relation.containsInAnyOrder_passes he k.describe expected x.value
        refine ⟨⟨fun hp => ⟨x, rfl, hv.1.mp hp⟩, ?_⟩, ?_⟩
        · rintro ⟨y, hy, hr⟩
          cases hy
          exact hv.1.mpr hr
        · rintro y hy hr
          cases hy
          exact hv.2 hr
      | x :: y :: rest => simp [ViewContents.valueOf, ViewFn.singleton, inspectRead, unreadable]

theorem isEquality_boolean : IsEquality Kind.boolean.equal where
  refl b := beq_self_eq_true b
  symm h := beq_iff_eq.mpr (beq_iff_eq.mp h).symm
  trans h h' := beq_iff_eq.mpr ((beq_iff_eq.mp h).trans (beq_iff_eq.mp h'))

/-- The values `false` and `true` are expected in the other order. -/
theorem containsInAnyOrder_verdict_bits :
    ∃ h g' i, Builder.exec ((assertThat (bits (twice .bounded) none)).containsInAnyOrder
        [true, false]) (bitsGraph (twice .bounded)) = (.ok h, g') ∧
      h.Compares (k := .list .boolean) (l := .list .boolean) g'
        (.containsInAnyOrder Kind.boolean.equal Kind.boolean.describe) i ∧
      i.verdict = .passed := by
  have hfit : (assertThat (bits (twice .bounded) none)).pipeline.options.FitsTasks := rfl
  have hexpected : ∀ c, (assertThat (bits (twice .bounded) none)).codec = some c →
      ∀ y ∈ [true, false], c.RoundTrips y := by
    rintro c hc y -
    cases hc
    exact bitCodec_roundTrips y
  obtain ⟨i, hfinds, hverdict, -⟩ := (containsInAnyOrder_verdict isEquality_boolean hfit
    (bitsGraph_run .bounded) hexpected rfl (List.prefix_refl _)).1 (bits (twice .bounded) none)
    [.unstamped false, .unstamped true] rfl rfl
    (by rintro c hc x -; cases hc; exact bitCodec_roundTrips x.value)
  exact ⟨_, _, i, rfl, hfinds,
    hverdict.mpr ⟨[false, true], List.Perm.swap .., .cons rfl (.cons rfl .nil)⟩⟩

end CheckedFlow
