import CheckedFlow.Proofs.Assertion.Mapping
import CheckedFlow.Proofs.Assertion.Unbounded

/-!
# Equality and its opposite

Two calls on the same dataset, one for equality with a value and one for the opposite, build two
fragments of a graph, or of two graphs, that share nothing. They read the same nevertheless. If the
value can be read, exactly one of the checks passes; if it cannot, both fail, for the same reason.
So the opposite of equality is not its negation: a value that cannot be read is neither equal nor
unequal to the expected one.

* `SingletonSubject`: the three ways to assert about one value of a dataset. `Readable` says of which
  copies the value can be read.
* `SingletonSubject.relates_built`, `SingletonSubject.relates_finds`: what the firings of a check on
  such a value find, for any relation.
* `InTurn`: a call whose check gets its turn in a run; `InTurn.both`: two calls on one pipeline;
  `InTurn.behind`: the stages behind a check in unbounded mode.
* `SingletonSubject.isEqualTo_notEqualTo`: the two checks.
-/

namespace CheckedFlow

variable {k l m : Kind} {g g' g₀ : Graph} {s : RunState} {h : CheckHandle}

/-! ## Subjects -/

/-- The ways to assert about one value of kind `k` of a dataset of elements of kind `m`. -/
inductive SingletonSubject : (m k : Kind) → Type
  /-- The only element. -/
  | element (k : Kind) : SingletonSubject k k
  /-- What the keys map to. -/
  | map (key : KeyKind) (k : Kind) : SingletonSubject (.entry key k) (.dictionary key k)
  /-- The values of each key. -/
  | multimap (key : KeyKind) (k : Kind) :
    SingletonSubject (.entry key k) (.dictionary key (.list k))

namespace SingletonSubject

/-- The way in. -/
def assertThat : {m k : Kind} → SingletonSubject m k → Dataset m → SingletonAssertion k
  | _, _, element _, d => assertThatSingleton d
  | _, _, map _ _, d => assertThatMap d
  | _, _, multimap _ _, d => assertThatMultimap d

/-- The assertion, with another codec for the expected value if one is given. -/
def assertion (t : SingletonSubject m k) (d : Dataset m) :
    Option (Codec k.Value) → SingletonAssertion k
  | none => t.assertThat d
  | some codec => (t.assertThat d).setCodec codec

/-- The view of the value. -/
def viewFn : {m k : Kind} → SingletonSubject m k → ViewFn m.Value k.Value
  | _, _, element _ => .singleton
  | _, _, map key _ => .dictionary key.describe
  | _, _, multimap _ _ => .grouped

/-- The codec for copies of elements, if the dataset has none and expected values have `codec`. -/
def fallback : {m k : Kind} → SingletonSubject m k → Option (Codec k.Value) → Option (Codec m.Value)
  | _, _, element _, codec => codec
  | _, _, map _ _, _ => none
  | _, _, multimap _ _, _ => none

/-- The elements have keys. -/
def keyed : {m k : Kind} → SingletonSubject m k → Bool
  | _, _, element _ => false
  | _, _, map _ _ => true
  | _, _, multimap _ _ => true

/-- The codec that copies the elements of `d`. -/
def isolation (t : SingletonSubject m k) (d : Dataset m) (given : Option (Codec k.Value)) :
    Option (Codec m.Value) :=
  d.codec <|> t.fallback (t.assertion d given).codec

/-- The value of the elements `xs` can be read. -/
def Readable : {m k : Kind} → SingletonSubject m k → List m.Value → Prop
  | _, _, element _, xs => xs.length = 1
  | _, _, map _ _, xs => (xs.map Prod.fst).Nodup
  | _, _, multimap _ _, _ => True

/-- The view function accepts exactly the elements of which the value can be read. -/
theorem exists_apply_iff (t : SingletonSubject m k) (xs : List m.Value) :
    (∃ x, t.viewFn.apply xs = .ok x) ↔ t.Readable xs := by
  cases t with
  | element k =>
    match xs with
    | [] =>
      constructor
      · rintro ⟨_, ⟨⟩⟩
      · rintro ⟨⟩
    | [x] => exact ⟨fun _ => rfl, fun _ => ⟨x, rfl⟩⟩
    | x :: y :: xs =>
      constructor
      · rintro ⟨_, ⟨⟩⟩
      · rintro ⟨⟩
  | map key k =>
    simp only [viewFn, ViewFn.dictionary, Readable]
    cases hd : Dictionary.ofEntries xs with
    | ok d => exact ⟨fun _ => Dictionary.ofEntries_eq_ok.mp hd ▸ d.nodup, fun _ => ⟨d, rfl⟩⟩
    | error first =>
      refine ⟨?_, fun hn => absurd hn (Dictionary.ofEntries_error hd).not_nodup⟩
      rintro ⟨_, ⟨⟩⟩
  | multimap key k => exact ⟨fun _ => trivial, fun _ => ⟨_, rfl⟩⟩

theorem assertion_pipeline (t : SingletonSubject m k) (d : Dataset m)
    (given : Option (Codec k.Value)) : (t.assertion d given).pipeline = d.pipeline := by
  cases t <;> cases given <;> rfl

/-- All three ways view copies of the dataset's elements. -/
theorem assertion_evidence (t : SingletonSubject m k) (d : Dataset m)
    (given : Option (Codec k.Value)) :
    (t.assertion d given).evidence =
      .ofDataset d t.viewFn (t.fallback (t.assertion d given).codec) t.keyed := by
  cases t <;> cases given <;> rfl

end SingletonSubject

/-! ## What the firings find -/

namespace SingletonSubject

variable {t : SingletonSubject m k} {d : Dataset m} {given : Option (Codec k.Value)}
  {r : Relation k.Value k.Value} {v : k.Value} {items : List (Windowed m.Value)}

/-- The view that the next check on the subject reads. -/
def viewName (g : Graph) : String := g.nextAssertion.1 ++ "/CreateActual" ++ "/View"

/-- If the stages before the check leave outputs, the expected value has a copy, and the check is
built behind them to compare it with what is read from the view of the copies of the elements. -/
theorem relates_built (hd : d.In g)
    (hb : Builder.exec ((t.assertion d given).satisfiesRelation r v) g = (.ok h, g'))
    (hrun : runStages d.pipeline.options g'.stages.dropLast { graph := g₀ } = (s, none))
    (hitems : s.outputs[d.node]? = some (.elements m items)) :
    d.pipeline.options.FitsTasks ∧ ∃ copying codec w s₀, t.isolation d given = some copying ∧
      (t.assertion d given).codec = some codec ∧ codec.copy v = .ok w ∧
      runStages d.pipeline.options g.stages { graph := g₀ } = (s₀, none) ∧
      ∃ actual expected, CheckBuilt d.pipeline g.nextAssertion.2 s₀.outputs
        (.against actual expected r) (inspectRead
          (ViewContents.valueOf (viewName g) t.viewFn.afterCopying
            ((items.map Windowed.value).map copying.copy)) (r.bind w)) h g' := by
  obtain ⟨codec, hcodec, hc⟩ := SingletonAssertion.satisfiesRelation_ok hb
  rw [assertion_pipeline, assertion_evidence] at hc
  obtain ⟨hfit, s₀, os, hrun₀, hos⟩ := checkAgainst_earlier hc hrun
  obtain ⟨codec', hcodec', hcopies⟩ := checkAgainst_decodes hc hrun
  cases hcodec'
  obtain ⟨w, hw⟩ := hcopies v List.mem_cons_self
  have hlen : s₀.outputs.length = g.nextAssertion.2.stages.length := runStages_outputs_length hrun₀
  have hitems₀ : s₀.outputs[d.node]? = some (.elements m items) := hd.earlier hlen hos hitems
  obtain ⟨u, g₁, hu, -⟩ := Builder.exec_bind_ok.mp (allOrNothing_ok hc)
  obtain ⟨copying, hcopying, -, -⟩ := Evidence.ofDataset_ok hu
  have ha : Evidence.Leads (.ofDataset d t.viewFn (t.fallback (t.assertion d given).codec) t.keyed)
      d.pipeline (g.nextAssertion.1 ++ "/CreateActual") g.nextAssertion.2 s₀.outputs
      (ViewContents.valueOf (viewName g) t.viewFn.afterCopying
        (items.map fun x => copying.copy x.value)) :=
    Evidence.ofDataset_leads hfit hlen hitems₀ fun c hc' => by
      rw [Option.some.inj (hc'.symm.trans hcopying)]
      rfl
  have hgiven : ∀ new os, os.length = new.length →
      Evidence.Leads (.ofValues [v] (some codec) .singleton) d.pipeline
        (g.nextAssertion.1 ++ "/CreateExpected") (g.nextAssertion.2.extend new) (s₀.outputs ++ os)
        (.ok w) := by
    intro new os hos
    have hcopies : [v].map codec.copy = [w].map .ok := by
      rw [List.map_singleton, hw]
      rfl
    exact Evidence.ofValues_leads hcopies (Graph.length_extend hlen hos)
  refine ⟨hfit, copying, codec, w, s₀, hcopying, hcodec, hw, hrun₀, ?_⟩
  rw [List.map_map]
  exact checkAgainst_builds hlen ha hgiven hc

/-- Every firing of the check finds the same. -/
theorem relates_finds (hd : d.In g)
    (hb : Builder.exec ((t.assertion d given).satisfiesRelation r v) g = (.ok h, g'))
    (hrun : runStages d.pipeline.options g'.stages.dropLast { graph := g₀ } = (s, none))
    (hitems : s.outputs[d.node]? = some (.elements m items)) :
    ∃ copying codec w, t.isolation d given = some copying ∧
      (t.assertion d given).codec = some codec ∧ codec.copy v = .ok w ∧
      ∀ later : Graph, g'.stages <+: later.stages → h.Compares later r (inspectRead
        (ViewContents.valueOf (viewName g) t.viewFn.afterCopying
          ((items.map Windowed.value).map copying.copy)) (r.bind w)) := by
  obtain ⟨-, copying, codec, w, s₀, hcopying, hcodec, hw, hrun₀, actual, expected, hbuilt⟩ :=
    relates_built hd hb hrun hitems
  exact ⟨copying, codec, w, hcopying, hcodec, hw,
    fun later hlater => ⟨actual, expected, hbuilt.finds hrun₀ hlater⟩⟩

end SingletonSubject

/-! ## Calls whose checks get their turn -/

/-- The call `b` on the dataset `d` built the check `h`, and all stages before the check leave
outputs, among them the elements `xs` of the dataset. -/
structure InTurn (b : Builder CheckHandle) (d : Dataset m) (xs : List m.Value) (g g' : Graph)
    (h : CheckHandle) : Prop where
  known : d.In g
  built : Builder.exec b g = (.ok h, g')
  runs : ∃ s items, runStages d.pipeline.options g'.stages.dropLast { graph := g' } = (s, none) ∧
    s.outputs[d.node]? = some (.elements m items) ∧ items.map Windowed.value = xs

/-- What stands in the first part of a list stands in the list. -/
theorem getElem?_of_leading {α : Type} {xs ys : List α} {x : α} {n : Nat} (hxs : xs <+: ys)
    (h : xs[n]? = some x) : ys[n]? = some x := by
  obtain ⟨hn, rfl⟩ := List.getElem?_eq_some_iff.mp h
  exact List.prefix_iff_getElem?.mp hxs n hn

/-- The first stages of a run that gets to its end get to theirs, whatever graph they start with. -/
theorem runStages_prefix {options : PipelineOptions} {first ss : List Stage} (hfirst : first <+: ss)
    (h : runStages options ss { graph := g₀ } = (s, none)) (g₁ : Graph) :
    ∃ s₁, runStages options first { graph := g₁ } = (s₁, none) ∧ s₁.outputs <+: s.outputs := by
  obtain ⟨rest, rfl⟩ := hfirst
  obtain ⟨s₁, hs₁, hrest⟩ := runStages_split h
  obtain ⟨os, hos, -⟩ := runStages_outputs hrest
  obtain ⟨g₂, hg₂⟩ := @runStages_withGraph options first { graph := g₀ } g₁
  rw [hs₁] at hg₂
  exact ⟨_, hg₂, os, hos.symm⟩

section Both

variable {t : SingletonSubject m k} {d : Dataset m} {given given' : Option (Codec k.Value)}
  {r r' : Relation k.Value k.Value} {v v' : k.Value} {g₁ g₂ g₃ : Graph} {h' : CheckHandle}

variable (t given) in
/-- A check adds at least one stage. -/
theorem SingletonSubject.relates_stages
    (hb : Builder.exec ((t.assertion d given).satisfiesRelation r v) g = (.ok h, g')) :
    g.stages <+: g'.stages.dropLast := by
  obtain ⟨codec, -, hc⟩ := SingletonAssertion.satisfiesRelation_ok hb
  rw [assertion_evidence] at hc
  obtain ⟨_, _, _, _, stage, -, -, hstages⟩ := checkAgainst_copies hc
  rw [hstages, List.dropLast_concat]
  exact List.prefix_append ..

/-- Two calls on the same dataset of one pipeline, one after the other: if all stages before the
later check leave outputs, then so do those before the earlier one, and both find the same elements
of the dataset. -/
theorem InTurn.both (hd : d.In g)
    (hb : Builder.exec ((t.assertion d given).satisfiesRelation r v) g = (.ok h, g₁))
    (hgrown : g₁.stages <+: g₂.stages)
    (hb' : Builder.exec ((t.assertion d given').satisfiesRelation r' v') g₂ = (.ok h', g₃))
    (hrun : runStages d.pipeline.options g₃.stages.dropLast { graph := g₃ } = (s, none)) :
    ∃ xs, InTurn ((t.assertion d given).satisfiesRelation r v) d xs g g₁ h ∧
      InTurn ((t.assertion d given').satisfiesRelation r' v') d xs g₂ g₃ h' := by
  have hg : g.stages <+: g₁.stages.dropLast := t.relates_stages given hb
  have hg₂ : g₂.stages <+: g₃.stages.dropLast := t.relates_stages given' hb'
  have hg₁ : g₁.stages.dropLast <+: g₃.stages.dropLast :=
    (List.dropLast_prefix _).trans (hgrown.trans hg₂)
  obtain ⟨s₁, hrun₁, hs₁⟩ := runStages_prefix hg₁ hrun g₁
  obtain ⟨s₀, hrun₀, hs₀⟩ := runStages_prefix hg hrun₁ g
  obtain ⟨items, hitems⟩ := hd.elements hrun₀
  have hitems₁ := getElem?_of_leading hs₀ hitems
  have hd₂ : d.In g₂ := by
    obtain ⟨stage, hstage, hleaves⟩ := hd
    have hgrown₂ := (hg.trans (List.dropLast_prefix _)).trans hgrown
    exact ⟨stage, getElem?_of_leading hgrown₂ hstage, hleaves⟩
  exact ⟨items.map Windowed.value, ⟨hd, hb, s₁, items, hrun₁, hitems₁, rfl⟩,
    hd₂, hb', s, items, hrun, getElem?_of_leading hs₁ hitems₁, rfl⟩

/-- In unbounded mode the stages behind a check get their turns too, whatever the check finds. -/
theorem InTurn.behind {xs : List m.Value}
    (hturn : InTurn ((t.assertion d given).satisfiesRelation r v) d xs g g' h)
    (hmode : d.pipeline.options.runMode = .unbounded) (g₁ : Graph) :
    ∃ s, runStages d.pipeline.options g'.stages { graph := g₁ } = (s, none) := by
  obtain ⟨s, items, hrun, hitems, -⟩ := hturn.runs
  obtain ⟨hfit, _, _, _, s₀, -, -, -, hrun₀, _, _, hbuilt⟩ :=
    SingletonSubject.relates_built hturn.known hturn.built hrun hitems
  obtain ⟨s', hrun', -⟩ := hbuilt.run hfit hmode hrun₀ g₁
  exact ⟨s', hrun'⟩

end Both

/-! ## Equality and its opposite -/

namespace SingletonSubject

/-- What is found by a check `i` for equality with `w` and by a check `i'` for the opposite, when
they look at `copies` through the views `view` and `view'`. If the value of the copies can be read,
exactly one of the checks passes. If not, both fail for the same reason, each with its own view. -/
structure Complementary (t : SingletonSubject m k) (copies : List (Except SerializationError m.Value))
    (w : k.Value) (view view' : String) (i i' : Inspection) : Prop where
  readable : ∀ xs, copies = xs.map .ok → t.Readable xs →
    ∃ x, t.viewFn.apply xs = .ok x ∧ (i.verdict = .passed ↔ k.equal x w = true) ∧
      (i'.verdict = .passed ↔ ¬ k.equal x w = true)
  unreadable : (¬ ∃ xs, copies = xs.map .ok ∧ t.Readable xs) →
    ∃ e, i.verdict = .failed (.sideInput (ViewContents.refusal view e)) ∧
      i'.verdict = .failed (.sideInput (ViewContents.refusal view' e))

/-- A view of copies has a value exactly if all copies succeeded and their value can be read. -/
theorem afterCopying_cases (t : SingletonSubject m k)
    (copies : List (Except SerializationError m.Value)) :
    (∃ xs x, copies = xs.map .ok ∧ t.Readable xs ∧ t.viewFn.apply xs = .ok x ∧
      t.viewFn.afterCopying.apply copies = .ok x) ∨
    ((¬ ∃ xs, copies = xs.map .ok ∧ t.Readable xs) ∧
      ∃ e, t.viewFn.afterCopying.apply copies = .error e) := by
  cases hcopied : ViewFn.copied 0 copies with
  | ok xs =>
    obtain rfl := ViewFn.eq_of_copied_ok hcopied
    have happly : t.viewFn.afterCopying.apply (xs.map .ok) = t.viewFn.apply xs := by
      simp only [ViewFn.afterCopying, hcopied]
      rfl
    rw [happly]
    cases hx : t.viewFn.apply xs with
    | ok x => exact .inl ⟨xs, x, rfl, (t.exists_apply_iff xs).mp ⟨x, hx⟩, hx, rfl⟩
    | error e =>
      refine .inr ⟨?_, e, rfl⟩
      rintro ⟨ys, hys, hread⟩
      obtain rfl := List.map_injective_iff.mpr (fun _ _ => Except.ok.inj) hys
      obtain ⟨x, hx'⟩ := (t.exists_apply_iff xs).mpr hread
      rw [hx] at hx'
      cases hx'
  | error e =>
    refine .inr ⟨?_, e, ?_⟩
    · rintro ⟨xs, rfl, -⟩
      rw [ViewFn.copied_ok] at hcopied
      cases hcopied
    · simp only [ViewFn.afterCopying, hcopied]
      rfl

/-- Both checks look at the same copies, and at the same copy of the expected value. -/
theorem complementary_inspect (t : SingletonSubject m k)
    (copies : List (Except SerializationError m.Value)) (w : k.Value) (view view' : String) :
    t.Complementary copies w view view'
      (inspectRead (ViewContents.valueOf view t.viewFn.afterCopying copies)
        ((Relation.isEqualTo k.equal k.describe).bind w))
      (inspectRead (ViewContents.valueOf view' t.viewFn.afterCopying copies)
        ((Relation.notEqualTo k.equal k.describe).bind w)) := by
  obtain ⟨xs, x, hxs, hread, happly, hcopies⟩ | ⟨hnone, e, hcopies⟩ := t.afterCopying_cases copies
  · simp only [ViewContents.valueOf, hcopies]
    refine ⟨fun ys hys _ => ?_, fun hn => absurd ⟨xs, hxs, hread⟩ hn⟩
    obtain rfl := List.map_injective_iff.mpr (fun _ _ => Except.ok.inj) (hxs.symm.trans hys)
    exact ⟨x, happly, Relation.isEqualTo_passes .., Relation.notEqualTo_passes ..⟩
  · simp only [ViewContents.valueOf, hcopies]
    exact ⟨fun xs hxs hread => absurd ⟨xs, hxs, hread⟩ hnone, fun _ => ⟨e, rfl, rfl⟩⟩

/-- Two calls on a dataset, for equality with a value and for the opposite, find complementary
results, if all stages before their checks leave outputs. Then the expected value has a copy, and if
the value of the dataset can be read, exactly one of the checks passes: that for equality exactly if
the value is equal to the copy. If it cannot be read, both checks fail for the same reason. So it is
with two calls on one pipeline, where in unbounded mode no failed check keeps the stages behind it
from their turns, and with one call on each of two pipelines whose datasets have the same elements. -/
theorem isEqualTo_notEqualTo (t : SingletonSubject m k) (given : Option (Codec k.Value))
    (v : k.Value) :
    (∀ {d : Dataset m} {r r' : Relation k.Value k.Value} {g g₁ g₂ g₃ : Graph} {h h' : CheckHandle}
      {s : RunState}, d.In g →
      Builder.exec ((t.assertion d given).satisfiesRelation r v) g = (.ok h, g₁) →
      g₁.stages <+: g₂.stages →
      Builder.exec ((t.assertion d given).satisfiesRelation r' v) g₂ = (.ok h', g₃) →
      runStages d.pipeline.options g₃.stages.dropLast { graph := g₃ } = (s, none) →
      ∃ xs, InTurn ((t.assertion d given).satisfiesRelation r v) d xs g g₁ h ∧
        InTurn ((t.assertion d given).satisfiesRelation r' v) d xs g₂ g₃ h') ∧
    (∀ {d : Dataset m} {r : Relation k.Value k.Value} {xs : List m.Value} {g g₁ : Graph}
      {h : CheckHandle}, d.pipeline.options.runMode = .unbounded →
      InTurn ((t.assertion d given).satisfiesRelation r v) d xs g g₁ h →
      ∃ s, runStages d.pipeline.options g₁.stages { graph := g₁ } = (s, none)) ∧
    (∀ {d d' : Dataset m} {xs : List m.Value} {g g' e e' : Graph} {h h' : CheckHandle},
      d'.codec = d.codec →
      InTurn ((t.assertion d given).isEqualTo v) d xs g g' h →
      InTurn ((t.assertion d' given).notEqualTo v) d' xs e e' h' →
      ∃ copying codec w i i', t.isolation d given = some copying ∧
        (t.assertion d given).codec = some codec ∧ codec.copy v = .ok w ∧
        t.Complementary (xs.map copying.copy) w (viewName g) (viewName e) i i' ∧
        (∀ later : Graph, g'.stages <+: later.stages →
          h.Compares later (.isEqualTo k.equal k.describe) i) ∧
        ∀ later : Graph, e'.stages <+: later.stages →
          h'.Compares later (.notEqualTo k.equal k.describe) i') := by
  refine ⟨fun hd hb hgrown hb' hrun => InTurn.both hd hb hgrown hb' hrun,
    fun hmode hturn => hturn.behind hmode _, ?_⟩
  intro d d' xs g g' e e' h h' hcodecs hequal hnot
  obtain ⟨s, items, hrun, hitems, rfl⟩ := hequal.runs
  obtain ⟨s', items', hrun', hitems', hsame⟩ := hnot.runs
  obtain ⟨copying, codec, w, hcopying, hcodec, hw, hfinds⟩ :=
    t.relates_finds hequal.known hequal.built hrun hitems
  obtain ⟨copying', codec', w', hcopying', hcodec', hw', hfinds'⟩ :=
    t.relates_finds hnot.known hnot.built hrun' hitems'
  have hassertion : (t.assertion d' given).codec = (t.assertion d given).codec := by
    cases t <;> cases given <;> simp only [assertion, assertThat, assertThatSingleton,
      assertThatMap, assertThatMultimap, SingletonAssertion.setCodec, hcodecs]
  rw [isolation, hassertion, hcodecs] at hcopying'
  obtain rfl := Option.some.inj (hcopying'.symm.trans hcopying)
  obtain rfl := Option.some.inj (hcodec'.symm.trans (hassertion.trans hcodec))
  obtain rfl := Except.ok.inj (hw'.symm.trans hw)
  rw [hsame] at hfinds'
  exact ⟨copying', codec', w', _, _, hcopying, hcodec, hw, t.complementary_inspect .., hfinds,
    hfinds'⟩

/-- In an unbounded run the check for equality and the opposite behind it get their turns. The
entries of the dataset are those of the expected dictionary in another order, so the first check
passes and the second fails. -/
theorem isEqualTo_notEqualTo_pairs :
    ∃ h h' g₁ g₂ i i',
      Builder.exec (((map .integer .boolean).assertion (pairs (twice .unbounded)) none).isEqualTo
        swappedPairs) (pairsGraph (twice .unbounded)) = (.ok h, g₁) ∧
      Builder.exec (((map .integer .boolean).assertion (pairs (twice .unbounded)) none).notEqualTo
        swappedPairs) g₁ = (.ok h', g₂) ∧
      h.Compares g₂ (.isEqualTo (Kind.dictionary .integer .boolean).equal
        (Kind.dictionary .integer .boolean).describe) i ∧ i.verdict = .passed ∧
      h'.Compares g₂ (.notEqualTo (Kind.dictionary .integer .boolean).equal
        (Kind.dictionary .integer .boolean).describe) i' ∧ i'.verdict ≠ .passed := by
  have hfit : (twice .unbounded).options.FitsTasks := rfl
  have hround := pairs_keeps (twice .unbounded)
  have hin : (pairs (twice .unbounded)).In (pairsGraph (twice .unbounded)) := ⟨_, rfl, rfl⟩
  obtain ⟨h, g₁, hb, h', g₂, hb'⟩ : ∃ h g₁, Builder.exec
      ((assertThatMap (pairs (twice .unbounded))).isEqualTo swappedPairs)
        (pairsGraph (twice .unbounded)) = (.ok h, g₁) ∧
      ∃ h' g₂, Builder.exec
        ((assertThatMap (pairs (twice .unbounded))).notEqualTo swappedPairs) g₁ = (.ok h', g₂) :=
    ⟨_, _, rfl, _, _, rfl⟩
  have hgrown : (pairsGraph (twice .unbounded)).stages <+: g₁.stages :=
    ((map .integer .boolean).relates_stages none hb).trans (List.dropLast_prefix _)
  have hgrown' : g₁.stages <+: g₂.stages :=
    ((map .integer .boolean).relates_stages none hb').trans (List.dropLast_prefix _)
  -- Behind the first check, which does not end the run, the dataset has the same elements.
  obtain ⟨_, _, hbuilt⟩ := assertThatMap_builds hfit
    (runStages_outputs_length (pairsGraph_run .unbounded)) rfl hround hb
  obtain ⟨s₁, hrun₁, -⟩ := hbuilt.run hfit rfl (pairsGraph_run .unbounded) g₁
  have hitems₁ : s₁.outputs[0]? = some (.elements (.entry .integer .boolean)
      [.unstamped (1, true), .unstamped (2, false)]) := by
    obtain ⟨s₀, hrun₀, hs₀⟩ := runStages_prefix hgrown hrun₁ (pairsGraph (twice .unbounded))
    obtain rfl := congrArg Prod.fst ((pairsGraph_run .unbounded).symm.trans hrun₀)
    exact getElem?_of_leading hs₀ rfl
  obtain ⟨_, _, hbuilt'⟩ := assertThatMap_builds hfit (runStages_outputs_length hrun₁) hitems₁
    hround hb'
  obtain ⟨s, os, hrun, hos⟩ := hbuilt'.earlier hrun₁ g₂
  have hlaw := isEqualTo_notEqualTo (map .integer .boolean) none swappedPairs
  obtain ⟨xs, hequal, hnot⟩ := hlaw.1 hin hb (List.prefix_refl _) hb' hrun
  obtain ⟨copying, codec, w, i, i', hcopying, hcodec, hw, hi, hfinds, hfinds'⟩ :=
    hlaw.2.2 rfl hequal hnot
  have hxs : xs = [(1, true), (2, false)] := by
    obtain ⟨s', items, hrun', hitems, rfl⟩ := hnot.runs
    obtain rfl := congrArg Prod.fst (hrun.symm.trans hrun')
    rw [hos] at hitems
    have := hitems.symm.trans (getElem?_of_leading (List.prefix_append _ os) hitems₁)
    cases this
    rfl
  subst hxs
  cases hcopying
  cases hcodec
  cases hw
  have hnodup : ([1, 2] : List Int64).Nodup := by decide
  obtain ⟨x, hx, hpasses, hfails⟩ := hi.readable [(1, true), (2, false)] rfl hnodup
  cases hx
  exact ⟨h, h', g₁, g₂, i, i', hb, hb', hfinds g₂ hgrown', hpasses.mpr (by decide),
    hfinds' g₂ (List.prefix_refl _), fun hpassed => hfails.mp hpassed (by decide)⟩

end SingletonSubject

end CheckedFlow
