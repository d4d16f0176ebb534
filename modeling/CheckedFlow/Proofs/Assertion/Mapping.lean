import CheckedFlow.Proofs.Assertion.Containment
import CheckedFlow.Proofs.Element.Dictionary

/-!
# What assertions on dictionaries decide

A dataset of entries is rebuilt as a dictionary from the copies of its entries, and the expected
dictionary goes through the frames of its own entries in whatever order they are enumerated. Both
arrive as they were: if the codec of the entries keeps those involved, the check compares the entries
of the dataset with the expected ones. Entries that share a key make no dictionary, and the check
fails with the first repeated key whatever was expected.

* `checkAgainst_copies`: the stages before a check of a dataset against given values;
  `checkAgainst_earlier`, `checkAgainst_decodes`: what it says if all of them leave outputs.
* `assertThatMap_builds`, `assertThatMap_finds`: what the firings find, for any relation.
* `assertThatMap_verdict`: the verdicts of `isEqualTo` and `notEqualTo`.
-/

namespace CheckedFlow

variable {k l m : Kind} {key : KeyKind} {g g' g₀ later : Graph} {s : RunState} {h : CheckHandle}

open Dictionary (FirstRepeated)

/-! ## The stages before the check -/

section Earlier

variable {p : Pipeline} {name : String} {d : Dataset k} {f : ViewFn k.Value l.Value}
  {fallback : Option (Codec k.Value)} {keyed : Bool} {values : List m.Value}
  {given : Option (Codec m.Value)} {w : ViewFn m.Value m.Value} {r : Relation l.Value m.Value}

/-- A check of a dataset against given values stands behind the copies of the dataset's elements and
the encoded values. -/
theorem checkAgainst_copies (hb : Builder.exec (checkAgainst p name
      (.ofDataset d f fallback keyed) (.ofValues values given w) r) g = (.ok h, g')) :
    ∃ copying codec encoded n stage, given = some codec ∧
      Pipeline.encodeSource (name ++ "/CreateExpected" ++ "/Values") codec 0
        (values.map fun x => (x, Timestamp.least)) = .ok encoded ∧
      g'.stages = g.stages ++
        (copyStages d.node copying f (name ++ "/CreateActual") g.stages.length ++
          (valueStages encoded codec w (name ++ "/CreateExpected") n ++
            [⟨name ++ "/Trigger", .impulse⟩])) ++ [stage] := by
  obtain ⟨v, g₁, hv, h₁⟩ := Builder.exec_bind_ok.mp (allOrNothing_ok hb)
  obtain ⟨copying, -, -, rfl⟩ := Evidence.ofDataset_ok hv
  obtain ⟨u, g₂, hu, hc⟩ := Builder.exec_bind_ok.mp h₁
  obtain ⟨codec, encoded, hcodec, hencoded, -, rfl⟩ := Evidence.ofValues_ok hu
  obtain ⟨-, -, rfl⟩ := attachCheck_ok hc
  exact ⟨copying, codec, encoded, _, _, hcodec, hencoded, by simp [checkStages]; rfl⟩

/-- If the stages before such a check leave outputs, then so do those before the call, and the tasks
of workers can be listed. -/
theorem checkAgainst_earlier (hb : Builder.exec (checkAgainst p name
      (.ofDataset d f fallback keyed) (.ofValues values given w) r) g = (.ok h, g'))
    (hrun : runStages p.options g'.stages.dropLast { graph := g₀ } = (s, none)) :
    p.options.FitsTasks ∧ ∃ s₀ os, runStages p.options g.stages { graph := g₀ } = (s₀, none) ∧
      s.outputs = s₀.outputs ++ os := by
  obtain ⟨codec, _, _, _, stage, -, -, hstages⟩ := checkAgainst_copies hb
  rw [hstages, List.dropLast_concat] at hrun
  refine ⟨?_, ?_⟩
  · have hmem : (⟨name ++ "/CreateActual" ++ "/Isolate",
        .parDo k (.copy k) g.stages.length [] (DoFn.map codec.copy)⟩ : Stage) ∈
          copyStages d.node codec f (name ++ "/CreateActual") g.stages.length :=
      .tail _ (.head _)
    exact runStages_fits hrun (List.mem_append_right _ (List.mem_append_left _ hmem))
  · obtain ⟨s₀, hs₀, hs⟩ := runStages_split hrun
    obtain ⟨os, hos, -⟩ := runStages_outputs hs
    exact ⟨s₀, os, hs₀, hos⟩

/-- A dataset of the graph before the call is known to the run before the call. -/
theorem Dataset.In.earlier {d : Dataset k} {outputs os more : Outputs} {o : Output} (hd : d.In g)
    (hlen : outputs.length = g.stages.length) (hmore : more = outputs ++ os)
    (ho : more[d.node]? = some o) : outputs[d.node]? = some o := by
  obtain ⟨stage, hstage, -⟩ := hd
  have hlt : d.node < outputs.length := hlen ▸ (List.getElem?_eq_some_iff.mp hstage).1
  rwa [hmore, List.getElem?_append_left hlt] at ho

/-- And the given values decode from their encodings. -/
theorem checkAgainst_decodes (hb : Builder.exec (checkAgainst p name
      (.ofDataset d f fallback keyed) (.ofValues values given w) r) g = (.ok h, g'))
    (hrun : runStages p.options g'.stages.dropLast { graph := g₀ } = (s, none)) :
    ∃ codec, given = some codec ∧ ∀ x ∈ values, ∃ y, codec.copy x = .ok y := by
  obtain ⟨_, codec, encoded, _, stage, hcodec, hencoded, hstages⟩ := checkAgainst_copies hb
  refine ⟨codec, hcodec, Classical.byContradiction fun hbad => ?_⟩
  obtain ⟨e, -, hdecode⟩ := decodeSource_undecodable hencoded hbad
  rw [hstages, List.dropLast_concat] at hrun
  obtain ⟨s₀, -, hs⟩ := runStages_split hrun
  obtain ⟨s₁, -, hs₁⟩ := runStages_split hs
  simp only [valueStages, List.cons_append, runStages, Operation.evaluate, hdecode] at hs₁
  cases hs₁

end Earlier

/-! ## What the firings find -/

variable {d : Dataset (.entry key k)} {expected : Dictionary key.Key k.Value}
  {r : Relation (Kind.dictionary key k).Value (Kind.dictionary key k).Value}
  {items : List (Windowed (Kind.entry key k).Value)}

/-- The codec of the dataset keeps its entries and the expected ones. -/
def Dataset.Keeps (d : Dataset (.entry key k)) (items : List (Windowed (Kind.entry key k).Value))
    (expected : Dictionary key.Key k.Value) : Prop :=
  ∀ c, d.codec = some c →
    (∀ x ∈ items, c.RoundTrips x.value) ∧ ∀ e ∈ expected.entries, c.RoundTrips e

/-- The check reads the dictionary of the entries, or what is in its way, and compares it with the
expected dictionary itself. -/
theorem assertThatMap_builds (hfit : d.pipeline.options.FitsTasks) {outputs : Outputs}
    (hlen : outputs.length = g.stages.length)
    (hitems : outputs[d.node]? = some (.elements (.entry key k) items))
    (hround : d.Keeps items expected)
    (hb : Builder.exec ((assertThatMap d).satisfiesRelation r expected) g = (.ok h, g')) :
    ∃ v w, CheckBuilt d.pipeline g.nextAssertion.2 outputs (.against v w r) (inspectRead
      (ViewContents.valueOf (g.nextAssertion.1 ++ "/CreateActual" ++ "/View")
        (.dictionary key.describe) (items.map Windowed.value)) (r.bind expected)) h g' := by
  obtain ⟨codec, hcodec, hc⟩ := SingletonAssertion.satisfiesRelation_ok hb
  obtain ⟨entry, hentry, rfl⟩ := Option.map_eq_some_iff.mp hcodec
  obtain ⟨hactual, hexpected⟩ := hround entry hentry
  have hcopies : ∀ c, (d.codec <|> none) = some c → ∀ x ∈ items, c.RoundTrips x.value := by
    intro c hc
    rw [hentry] at hc
    cases hc
    exact hactual
  let under := g.nextAssertion.1
  have hlen' : outputs.length = g.nextAssertion.2.stages.length := hlen
  have ha : Evidence.Leads (assertThatMap d).evidence d.pipeline (under ++ "/CreateActual")
      g.nextAssertion.2 outputs (ViewContents.valueOf (under ++ "/CreateActual" ++ "/View")
        (.dictionary key.describe) (items.map Windowed.value)) :=
    Evidence.ofDataset_leads (k := .entry key k) (l := .dictionary key k) hfit hlen' hitems
      fun c hc => valueOf_roundTrips (k := .entry key k) (l := .dictionary key k) (hcopies c hc)
  have hgiven : ∀ new os, os.length = new.length →
      Evidence.Leads (k := .dictionary key k) (.ofValues (k := .dictionary key k) [expected]
        (some (Codec.dictionary key.describe entry)) .singleton) d.pipeline
        (under ++ "/CreateExpected") (g.nextAssertion.2.extend new) (outputs ++ os)
        (.ok expected) := by
    intro new os hos
    refine Evidence.ofValues_leads_roundTrips (k := .dictionary key k) (l := .dictionary key k)
      (fun x hx payload henc => ?_) (Graph.length_extend hlen' hos)
    obtain rfl := List.mem_singleton.mp hx
    exact Codec.dictionary_copy hexpected henc
  exact checkAgainst_builds hlen' ha hgiven hc

/-- The firings find so in every run in which the stages before the check leave outputs. -/
theorem assertThatMap_finds (hd : d.In g) (hround : d.Keeps items expected)
    (hb : Builder.exec ((assertThatMap d).satisfiesRelation r expected) g = (.ok h, g'))
    (hrun : runStages d.pipeline.options g'.stages.dropLast { graph := g' } = (s, none))
    (hitems : s.outputs[d.node]? = some (.elements (.entry key k) items))
    (hlater : g'.stages <+: later.stages) :
    h.Compares later r (inspectRead
      (ViewContents.valueOf (g.nextAssertion.1 ++ "/CreateActual" ++ "/View")
        (.dictionary key.describe) (items.map Windowed.value)) (r.bind expected)) := by
  obtain ⟨codec, -, hc⟩ := SingletonAssertion.satisfiesRelation_ok hb
  obtain ⟨hfit, s₀, os, hrun₀, hos⟩ := checkAgainst_earlier hc hrun
  have hlen : s₀.outputs.length = g.stages.length := runStages_outputs_length hrun₀
  have hitems₀ : s₀.outputs[d.node]? = some (.elements (.entry key k) items) :=
    hd.earlier hlen hos hitems
  obtain ⟨v, w, hbuilt⟩ := assertThatMap_builds hfit hlen hitems₀ hround hb
  exact ⟨v, w, hbuilt.finds hrun₀ hlater⟩

/-! ## The verdict -/

/-- What is decided about `entries` in the view `view`: they pass exactly if their keys are distinct
and they are accepted; and if a key occurs twice, the failure tells the first repeated one. -/
structure DecidesEntries (view : String) (entries : List (Kind.entry key k).Value) (accepted : Prop)
    (i : Inspection) : Prop where
  passes : i.verdict = .passed ↔ (entries.map Prod.fst).Nodup ∧ accepted
  repeated : ¬ (entries.map Prod.fst).Nodup → ∃ first, FirstRepeated first entries ∧
    i.verdict = .failed (.sideInput (.duplicateKey view (key.describe first)))

/-- A checker of a dictionary decides about its entries. -/
theorem decidesEntries_inspect {view : String} {entries : List (Kind.entry key k).Value}
    {accepted : Prop} {checker : Checker (Kind.dictionary key k).Value}
    (hchecker : ∀ d : Dictionary key.Key k.Value, d.entries = entries →
      ((checker d).verdict = .passed ↔ accepted)) :
    DecidesEntries view entries accepted
      (inspectRead (ViewContents.valueOf view (.dictionary key.describe) entries) checker) := by
  cases hd : Dictionary.ofEntries entries with
  | ok d =>
    have hentries : d.entries = entries := Dictionary.ofEntries_eq_ok.mp hd
    have hread : ViewContents.valueOf view (.dictionary key.describe) entries = .ok d := by
      simp only [ViewContents.valueOf, ViewFn.dictionary, hd]
    rw [hread]
    refine ⟨?_, fun hn => absurd (hentries ▸ d.nodup) hn⟩
    exact (hchecker d hentries).trans ⟨fun ha => ⟨hentries ▸ d.nodup, ha⟩, And.right⟩
  | error first =>
    have hfirst : FirstRepeated first entries := Dictionary.ofEntries_error hd
    have hread : ViewContents.valueOf view (.dictionary key.describe) entries =
        .error (.duplicateKey view (key.describe first)) := by
      simp only [ViewContents.valueOf, ViewFn.dictionary, hd, ViewContents.refusal]
    rw [hread]
    refine ⟨⟨fun hpassed => ?_, fun hp => absurd hp.1 hfirst.not_nodup⟩,
      fun _ => ⟨first, hfirst, rfl⟩⟩
    cases hpassed

/-- The verdict of `isEqualTo` and `notEqualTo` on a dataset of entries, if all stages before the
check leave outputs and the codec keeps the entries involved. The check for equality passes exactly
if the keys of the dataset are distinct and its entries are those of the expected dictionary, the
other check if the keys are distinct and the entries are not those. If a key occurs twice, both
checks fail with the key of the first entry whose key occurred before, whatever was expected. -/
theorem assertThatMap_verdict (hd : d.In g) (hround : d.Keeps items expected)
    (hrun : runStages d.pipeline.options g'.stages.dropLast { graph := g' } = (s, none))
    (hitems : s.outputs[d.node]? = some (.elements (.entry key k) items))
    (hlater : g'.stages <+: later.stages) :
    let entries := items.map Windowed.value
    let view := g.nextAssertion.1 ++ "/CreateActual" ++ "/View"
    let same := Reorders (Kind.entry key k).equal entries expected.entries
    let kind := Kind.dictionary key k
    (Builder.exec ((assertThatMap d).isEqualTo expected) g = (.ok h, g') →
      ∃ i, h.Compares later (.isEqualTo kind.equal kind.describe) i ∧
        DecidesEntries view entries same i) ∧
    (Builder.exec ((assertThatMap d).notEqualTo expected) g = (.ok h, g') →
      ∃ i, h.Compares later (.notEqualTo kind.equal kind.describe) i ∧
        DecidesEntries view entries (¬ same) i) := by
  intro entries view same kind
  have hequal : ∀ e : Dictionary key.Key k.Value, e.entries = entries →
      ((Kind.dictionary key k).equal e expected = true ↔ same) := by
    rintro e he
    rw [Kind.equal, Dictionary.equal_iff_reorders, he]
    rfl
  refine ⟨fun hb => ?_, fun hb => ?_⟩
  · refine ⟨_, assertThatMap_finds hd hround hb hrun hitems hlater,
      decidesEntries_inspect fun e he => ?_⟩
    exact (Relation.isEqualTo_passes _ expected e).trans (hequal e he)
  · refine ⟨_, assertThatMap_finds hd hround hb hrun hitems hlater,
      decidesEntries_inspect fun e he => ?_⟩
    exact (Relation.notEqualTo_passes _ expected e).trans (not_congr (hequal e he))

/-- Entries of small numbers and truth values as two bytes. -/
def pairCodec : Codec (Kind.entry .integer .boolean).Value where
  encode e := .ok [UInt8.ofNat e.1.toNatClampNeg, if e.2 then 1 else 0]
  decode
    | [n, b] => .ok (Int64.ofNat n.toNat, b == 1)
    | _ => .error (.decoding (.told "no pair"))

/-- A dataset of two entries. -/
def pairs (p : Pipeline) : Dataset (.entry .integer .boolean) := ⟨p, 0, "Pairs", some pairCodec⟩

/-- The graph with the source of the dataset. -/
def pairsGraph (p : Pipeline) : Graph :=
  (Builder.exec (p.source (.entry .integer .boolean) "Pairs" [(1, true), (2, false)] pairCodec)
    {}).2

/-- The two entries, enumerated in the other order. -/
def swappedPairs : Dictionary Int64 Bool := ⟨[(2, false), (1, true)], by decide⟩

theorem pairsGraph_run (mode : RunMode) :
    runStages (twice mode).options (pairsGraph (twice mode)).stages
        { graph := pairsGraph (twice mode) } =
      ({ outputs := [.elements (.entry .integer .boolean)
          [.unstamped (1, true), .unstamped (2, false)]],
         graph := pairsGraph (twice mode) }, none) := by
  cases mode <;> rfl

theorem pairs_keeps (p : Pipeline) : (pairs p).Keeps
    [.unstamped (1, true), .unstamped (2, false)] swappedPairs := by
  rintro c hc
  cases hc
  exact ⟨List.forall_mem_cons.mpr ⟨rfl, List.forall_mem_cons.mpr ⟨rfl, nofun⟩⟩,
    List.forall_mem_cons.mpr ⟨rfl, List.forall_mem_cons.mpr ⟨rfl, nofun⟩⟩⟩

/-- The dictionary is expected with its entries in the other order. -/
theorem assertThatMap_verdict_pairs :
    ∃ h g' i, Builder.exec ((assertThatMap (pairs (twice .bounded))).isEqualTo swappedPairs)
        (pairsGraph (twice .bounded)) = (.ok h, g') ∧
      h.Compares g' (.isEqualTo (Kind.dictionary .integer .boolean).equal
        (Kind.dictionary .integer .boolean).describe) i ∧ i.verdict = .passed := by
  have hin : (pairs (twice .bounded)).In (pairsGraph (twice .bounded)) := ⟨_, rfl, rfl⟩
  have hfit : (pairs (twice .bounded)).pipeline.options.FitsTasks := rfl
  have hround := pairs_keeps (twice .bounded)
  obtain ⟨h, g', hb⟩ : ∃ h g', Builder.exec
      ((assertThatMap (pairs (twice .bounded))).isEqualTo swappedPairs)
      (pairsGraph (twice .bounded)) = (.ok h, g') := ⟨_, _, rfl⟩
  obtain ⟨_, _, hbuilt⟩ := assertThatMap_builds hfit
    (runStages_outputs_length (pairsGraph_run .bounded)) rfl hround hb
  obtain ⟨s, os, hrun, hos⟩ := hbuilt.earlier (pairsGraph_run .bounded) g'
  have hitems : s.outputs[0]? = some (.elements (.entry .integer .boolean)
      [.unstamped (1, true), .unstamped (2, false)]) := by
    rw [hos]
    rfl
  obtain ⟨i, hfinds, hdecides⟩ :=
    (assertThatMap_verdict hin hround hrun hitems (List.prefix_refl _)).1 hb
  refine ⟨h, g', i, hb, hfinds, hdecides.passes.mpr ⟨by decide, ?_⟩⟩
  exact ⟨[(1, true), (2, false)], List.Perm.swap .., .cons rfl (.cons rfl .nil)⟩

end CheckedFlow
