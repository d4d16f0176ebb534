import CheckedFlow.Proofs.Assertion.Terminal
import CheckedFlow.Proofs.Check.Accounting
import CheckedFlow.Proofs.Run.Report
import CheckedFlow.Script.Codec

/-!
# Assertions in unbounded runs

An assertion promises to do no harm to an unbounded run: the run ends well if it did before, the
counters of its stages are what they were, and whatever goes wrong in the check is counted as a
failure of the check. Copies, views, side inputs and checkers keep the promise. Two things do not:
the source of the expected values, which fails if it meets bytes that its codec refuses, and the
cells of counters, which counters with the same digest share.

* `CheckBuilt.run`: a run with a check, if all stages before the check come to their end.
* `checkAgainst_undecodable`: a run with expected values that do not decode.
* `CheckHandle.Harmless`: the promise. `Terminal.harmless_iff` says exactly when it is kept.
-/

namespace CheckedFlow

variable {k l : Kind} {p : Pipeline} {g g' g₀ : Graph} {s : RunState} {h : CheckHandle}

/-! ## Runs with a check -/

/-- Firings that all find the same add their number to one counter. -/
theorem CheckHandle.run_table {i : Inspection} {trace : List (Nat × FiringStep)}
    {t : Team RunState (Nat × FiringStep)}
    (hpolicy : h.policy = .ofRunMode h.pipeline.options.runMode)
    (hpos : 0 < h.pipeline.options.firings)
    (hrun : Team.Run (RunState.perform h.stage) (h.team (fun _ => i) s) trace t)
    (hend : t.Finished) (key : CounterKey) :
    t.state.counters.table.get key =
      (s.counters.add (h.key i) (UInt64.ofNat h.pipeline.options.firings)).table.get key := by
  have hkeys : key ∈ t.state.counters.keys ↔ key = h.key i ∨ key ∈ s.counters.keys := by
    rw [run_keys hpolicy hrun hend, or_comm]
    refine or_congr ⟨?_, fun he => ⟨0, List.mem_range.mpr hpos, he⟩⟩ Iff.rfl
    rintro ⟨j, -, he⟩
    exact he
  have hcount : t.state.counters.count key = s.counters.count key +
      UInt64.ofNat (h.firings.countP fun _ => (h.key i).digest = key.digest) :=
    run_count hpolicy hrun hend (q := fun i => (h.key i).digest = key.digest)
      fun _ => decide_eq_true_iff.symm
  simp only [Counters.table_get, Counters.mem_keys_add, Counters.count_add, hkeys, hcount]
  by_cases hd : key.digest = (h.key i).digest
  · simp [hd, firings]
  · simp [hd, Ne.symm hd]

/-- Behind a run that gets to its end, a run with a check in unbounded mode gets to its end, and if
there are firings the check adds them to the counter of what they found. -/
theorem CheckBuilt.run {body : CheckBody} {i : Inspection}
    (hb : CheckBuilt p g s.outputs body i h g')
    (hfit : p.options.FitsTasks) (hmode : p.options.runMode = .unbounded)
    (hrun : runStages p.options g.stages { graph := g₀ } = (s, none)) (g₁ : Graph) :
    ∃ s', runStages p.options g'.stages { graph := g₁ } = (s', none) ∧
      (0 < p.options.firings → ∀ key, s'.counters.table.get key =
        (s.counters.add (h.key i) (UInt64.ofNat p.options.firings)).table.get key) := by
  obtain ⟨rfl, hpolicy, -, quiet, stage, os, hs, hname, hq, hf⟩ := hb
  obtain ⟨g₂, hbefore⟩ := hq.behind hrun g₁
  let s₁ : RunState := { s with graph := g₂, outputs := s.outputs ++ os }
  change _ = (s₁, none) at hbefore
  obtain ⟨trace, t, hteam, hend, hstate, hresult⟩ :=
    Stage.Fires.isRun (s := s₁) hpolicy hfit hname hf
  rw [CheckHandle.outcome_unbounded hpolicy hmode] at hresult
  refine ⟨{ t.state with outputs := t.state.outputs ++ [.elements .unit []] }, ?_,
    fun hpos => CheckHandle.run_table (s := s₁) hpolicy hpos hteam hend⟩
  rw [hs, runStages_append_ok hbefore, hstate]
  simp only [runStages, hresult]

/-- Behind a run that gets to its end, a run with expected values that do not all decode ends at
their source, whatever the run mode is. -/
theorem checkAgainst_undecodable {m : Kind} {name : String} {actual : Evidence k}
    {values : List m.Value} {codec : Codec m.Value} {f : ViewFn m.Value l.Value}
    {relation : Relation k.Value l.Value} {r : Except PipelineError k.Value}
    (ha : actual.Leads p (name ++ "/CreateActual") g s.outputs r)
    (hrun : runStages p.options g.stages { graph := g₀ } = (s, none))
    (hbad : ¬ ∀ x ∈ values, ∃ y, codec.copy x = .ok y)
    (he : Builder.exec (checkAgainst p name actual (.ofValues values (some codec) f) relation) g =
      (.ok h, g')) (g₁ : Graph) :
    ∃ s' e, (∃ x ∈ values, codec.copy x = .error e) ∧
      runStages p.options g'.stages { graph := g₁ } =
        (s', some (.failed (.serialization (name ++ "/CreateExpected" ++ "/Values") e))) := by
  obtain ⟨v, g₂, hv, he₁⟩ := Builder.exec_bind_ok.mp (allOrNothing_ok he)
  obtain ⟨w, g₃, hw, hc⟩ := Builder.exec_bind_ok.mp he₁
  obtain ⟨new, os, rfl, hq, -⟩ := ha v g₂ hv
  obtain ⟨codec', encoded, hcodec, hencoded, -, rfl⟩ := Evidence.ofValues_ok hw
  cases hcodec
  obtain ⟨-, -, rfl⟩ := attachCheck_ok hc
  obtain ⟨e, hcopy, hdecode⟩ := decodeSource_undecodable hencoded hbad
  obtain ⟨g₂, hbefore⟩ := hq.behind hrun g₁
  refine ⟨{ s with graph := g₂, outputs := s.outputs ++ os }, e, hcopy, ?_⟩
  rw [Graph.setCheck_stages, Graph.extend_stages, Graph.extend_stages, List.append_assoc,
    Graph.extend_stages, runStages_append_ok hbefore]
  simp only [valueStages, List.cons_append, runStages, Operation.evaluate, hdecode]
  rfl

/-! ## Runs with an assertion -/

namespace Terminal

variable {t : Terminal}

/-- A call whose expected values decode built a check whose firings all find the same. -/
theorem built (hin : t.In g) (hfit : t.pipeline.options.FitsTasks)
    (hrun : runStages t.pipeline.options g.stages { graph := g₀ } = (s, none))
    (he : Builder.exec t.call g = (.ok h, g')) (hdecodes : t.Decodes) :
    ∃ body i, t.LooksThrough body ∧
      CheckBuilt t.pipeline g.nextAssertion.2 s.outputs body i h g' := by
  have hg : g.nextAssertion.2.stages = g.stages := rfl
  have hlen : s.outputs.length = g.nextAssertion.2.stages.length := runStages_outputs_length hrun
  rcases call_ok hin he with ⟨k, actual, checker, hready, -, hlooks, hc⟩ |
    ⟨k, l, m, actual, values, codec, f, r, hready, hiff, hlooks, hc⟩
  · obtain ⟨x, hx, -⟩ := hready.leads hfit hrun hg (g.nextAssertion.1 ++ "/CreateActual")
    obtain ⟨v, hb⟩ := checkValue_builds hlen hx hc
    exact ⟨_, _, hlooks v, hb⟩
  · have hgiven : Evidence.Ready g (.ofValues values (some codec) f) :=
      .ofValues f (hiff.mp hdecodes)
    obtain ⟨x, hx, -⟩ := hready.leads hfit hrun hg (g.nextAssertion.1 ++ "/CreateActual")
    obtain ⟨y, -, hy⟩ := hgiven.leads hfit hrun hg (g.nextAssertion.1 ++ "/CreateExpected")
    obtain ⟨v, w, hb⟩ := checkAgainst_builds hlen hx hy hc
    exact ⟨_, _, hlooks v w, hb⟩

/-- A run behind a call whose expected values do not all decode ends at their source. -/
theorem stops (hin : t.In g) (hfit : t.pipeline.options.FitsTasks)
    (hrun : runStages t.pipeline.options g.stages { graph := g₀ } = (s, none))
    (he : Builder.exec t.call g = (.ok h, g')) (hdecodes : ¬ t.Decodes) (g₁ : Graph) :
    ∃ s' e, runStages t.pipeline.options g'.stages { graph := g₁ } = (s', some (.failed
      (.serialization (g.nextAssertion.1 ++ "/CreateExpected" ++ "/Values") e))) := by
  have hg : g.nextAssertion.2.stages = g.stages := rfl
  rcases call_ok hin he with ⟨k, actual, checker, -, hd, -, -⟩ |
    ⟨k, l, m, actual, values, codec, f, r, hready, hiff, -, hc⟩
  · exact absurd hd hdecodes
  · have hbad := fun hall => hdecodes (hiff.mpr hall)
    obtain ⟨x, hx, -⟩ := hready.leads hfit hrun hg (g.nextAssertion.1 ++ "/CreateActual")
    obtain ⟨s', e, -, hs'⟩ := checkAgainst_undecodable hx hrun hbad hc g₁
    exact ⟨s', e, hs'⟩

end Terminal

/-! ## The promise -/

namespace CheckHandle

/-- What an assertion promises of unbounded runs: with its check a run that reported `r` reports
`r'`, without a failure, with all counters of the stages of `g` as they were, and with as many
successes and failures of the check as there are firings. -/
structure Harmless (h : CheckHandle) (g : Graph) (r r' : RunReport) : Prop where
  done : r'.failure = none
  kept : ∀ key, key.stage ∈ g.stageNames → r'.counters.get key = r.counters.get key
  reported : (r'.counters.get h.successKey).toNat + (r'.counters.get h.failureKey).toNat =
    h.pipeline.options.triggerFirings.toNat

/-- The number of firings in unbounded mode is kept as it is. -/
theorem toNat_firings (hmode : h.pipeline.options.runMode = .unbounded) :
    (UInt64.ofNat h.pipeline.options.firings).toNat = h.pipeline.options.triggerFirings.toNat := by
  have hlt := h.pipeline.options.triggerFirings.toNat_lt
  simp only [PipelineOptions.firings, hmode, UInt64.toNat_ofNat']
  omega

theorem successKey_ne_failureKey (h : CheckHandle) : h.successKey ≠ h.failureKey :=
  fun he => success_digest_ne_failure h.stage (congrArg CounterKey.digest he)

section Promise

variable {i : Inspection} {r r' : RunReport}

/-- What a run with a check reports of another counter. -/
theorem get_other {n : UInt64} {key : CounterKey}
    (hr' : r'.counters.get key = (s.counters.add (h.key i) n).table.get key)
    (hne : key ≠ h.key i) :
    r'.counters.get key = s.counters.table.get key +
      if key ∈ s.counters.keys ∧ key.digest = (h.key i).digest then n else 0 := by
  rw [hr', Counters.get_add, if_neg hne]

/-- A check whose counter has a cell of its own keeps the promise. -/
theorem harmless_of_clear (hmode : h.pipeline.options.runMode = .unbounded)
    (hrun : runStages h.pipeline.options g.stages { graph := g₀ } = (s, none))
    (hfresh : h.stage ∉ g.stageNames) (hr : r.counters = s.counters.table)
    (hdone : r'.failure = none)
    (hr' : ∀ key, r'.counters.get key = (s.counters.add (h.key i)
      (UInt64.ofNat h.pipeline.options.firings)).table.get key)
    (hclear : ∀ key ∈ s.counters.keys, key.digest ≠ (h.key i).digest) : h.Harmless g r r' := by
  have hown : r'.counters.get (h.key i) = UInt64.ofNat h.pipeline.options.firings := by
    rw [hr', Counters.get_add, if_pos rfl, runStages_count_zero hrun hclear, UInt64.zero_add]
  have hother : ∀ key, key ≠ h.key i → r'.counters.get key = s.counters.table.get key := by
    intro key hne
    rw [get_other (hr' key) hne, if_neg fun hc => hclear key hc.1 hc.2, UInt64.add_zero]
  have hnew : ∀ key, key.stage = h.stage → key ≠ h.key i → r'.counters.get key = 0 := by
    intro key hstage hne
    have hnone : key ∉ s.counters.keys := fun hc => hfresh (hstage ▸ runStages_keys hrun hc)
    rw [hother key hne, Counters.table_get, if_neg hnone]
  refine ⟨hdone, fun key hstage => ?_, ?_⟩
  · have hne : key ≠ h.key i := by
      rintro rfl
      exact hfresh hstage
    rw [hother key hne, hr]
  · cases hp : i.passes with
    | true =>
      have hkey : h.key i = h.successKey := by rw [CheckHandle.key, Inspection.counter, hp]; rfl
      have hzero := hnew h.failureKey rfl (hkey ▸ h.successKey_ne_failureKey.symm)
      rw [← hkey, hown, hzero, toNat_firings hmode]
      rfl
    | false =>
      have hkey : h.key i = h.failureKey := by rw [CheckHandle.key, Inspection.counter, hp]; rfl
      have hzero := hnew h.successKey rfl (hkey ▸ h.successKey_ne_failureKey)
      rw [← hkey, hown, hzero, toNat_firings hmode]
      exact Nat.zero_add _

/-- If a check adds its firings to one counter, it keeps the promise exactly if no counter of the
run before shares the cell of that counter. -/
theorem kept_iff_clear (hmode : h.pipeline.options.runMode = .unbounded)
    (hpos : 0 < h.pipeline.options.firings)
    (hrun : runStages h.pipeline.options g.stages { graph := g₀ } = (s, none))
    (hfresh : h.stage ∉ g.stageNames) (hr : r.counters = s.counters.table)
    (hdone : r'.failure = none)
    (hr' : ∀ key, r'.counters.get key = (s.counters.add (h.key i)
      (UInt64.ofNat h.pipeline.options.firings)).table.get key) :
    h.Harmless g r r' ↔ ∀ e ∈ r.counters.entries, e.1.digest ≠ (h.key i).digest := by
  have hentries : (∀ e ∈ r.counters.entries, e.1.digest ≠ (h.key i).digest) ↔
      ∀ key ∈ s.counters.keys, key.digest ≠ (h.key i).digest := by
    rw [hr, Counters.table]
    simp
  rw [hentries]
  refine ⟨fun hh key hkey hd => ?_, harmless_of_clear hmode hrun hfresh hr hdone hr'⟩
  have hstage : key.stage ∈ g.stageNames := runStages_keys hrun hkey
  have hne : key ≠ h.key i := by
    rintro rfl
    exact hfresh hstage
  have hkept := hh.kept key hstage
  rw [get_other (hr' key) hne, if_pos ⟨hkey, hd⟩, hr] at hkept
  have hzero : UInt64.ofNat h.pipeline.options.firings = 0 := by simpa using hkept
  have hnat := toNat_firings hmode
  rw [hzero, UInt64.toNat_zero] at hnat
  simp only [PipelineOptions.firings, hmode] at hpos
  omega

end Promise

end CheckHandle

/-- In an unbounded run an assertion keeps its promise exactly if the expected values decode and no
counter of the run before shares the cell of the counter that the check adds to. If a value does not
decode, the run fails at the source of the expected values; otherwise it ends well, and every firing
runs the checker or the relation of the call. -/
theorem Terminal.harmless_iff {t : Terminal} {r : RunReport} (hg : g.Reachable)
    (hvalid : t.pipeline.options.validate = .ok ())
    (hmode : t.pipeline.options.runMode = .unbounded) (hfit : t.pipeline.options.FitsTasks)
    (hrun : (t.pipeline.run g).1 = some r) (hdone : r.failure = none) (hin : t.In g)
    (he : Builder.exec t.call g = (.ok h, g')) :
    ∃ r' body i, (t.pipeline.run g').1 = some r' ∧
      (h.Harmless g r r' ↔
        t.Decodes ∧ ∀ e ∈ r.counters.entries, e.1.digest ≠ (h.key i).digest) ∧
      (t.Decodes → t.LooksThrough body ∧ h.Finds g' body i ∧ r'.failure = none) ∧
      (¬ t.Decodes → ∃ e, r'.failure = some
        (.serialization (g.nextAssertion.1 ++ "/CreateExpected" ++ "/Values") e)) := by
  obtain ⟨s, hstages, hr⟩ := Pipeline.run_done hrun hdone
  have hpos := PipelineOptions.firings_pos hvalid
  by_cases hdecodes : t.Decodes
  · obtain ⟨body, i, hlooks, hb⟩ := t.built hin hfit hstages he hdecodes
    have hfresh : h.stage ∉ g.stageNames := fun hc => hb.fresh ((hg.sound.names _).mpr hc)
    have hfinds : h.Finds g' body i := hb.finds hstages (List.prefix_refl _)
    obtain ⟨s', hstages', hget⟩ := hb.run hfit hmode hstages g'
    replace hget := hget hpos
    obtain ⟨r', hrun', hdone', hr'⟩ := Pipeline.run_ok hstages'
    have hp := hb.pipeline
    rw [← hr', ← hp] at hget
    rw [← hp] at hmode hpos hstages
    have hiff := CheckHandle.kept_iff_clear hmode hpos hstages hfresh hr hdone' hget
    exact ⟨r', body, i, hrun', by simpa [hdecodes] using hiff, fun _ => ⟨hlooks, hfinds, hdone'⟩,
      fun hn => absurd hdecodes hn⟩
  · obtain ⟨s', e, hstages'⟩ := t.stops hin hfit hstages he hdecodes g'
    obtain ⟨r', hrun', hfail⟩ := Pipeline.run_failed hstages'
    refine ⟨r', fun _ => ⟨.passed, []⟩, ⟨.passed, []⟩, hrun',
      ⟨fun hh => ?_, fun hc => absurd hc.1 hdecodes⟩,
      fun hd => absurd hd hdecodes, fun _ => ⟨e, hfail⟩⟩
    rw [hh.done] at hfail
    cases hfail

/-- Two values are expected and found; the two firings are two successes. -/
theorem Terminal.harmless_iff_bits :
    ∃ h g' r r', Builder.exec ((assertThat (bits (twice .unbounded) none)).containsInAnyOrder
        [true, false]) (bitsGraph (twice .unbounded)) = (.ok h, g') ∧
      ((twice .unbounded).run (bitsGraph (twice .unbounded))).1 = some r ∧ r.failure = none ∧
      ((twice .unbounded).run g').1 = some r' ∧
      h.Harmless (bitsGraph (twice .unbounded)) r r' := by
  let t : Terminal := .collectionRelates (assertThat (bits (twice .unbounded) none))
    (.containsInAnyOrder Kind.boolean.equal Kind.boolean.describe) [true, false]
  have hdecodes : t.Decodes := by
    rintro codec hc x -
    cases hc
    exact ⟨x, bitCodec_roundTrips x⟩
  have hvalid : (twice .unbounded).options.validate = .ok () := rfl
  have hfit : (twice .unbounded).options.FitsTasks := rfl
  have hrun : ((twice .unbounded).run (bitsGraph (twice .unbounded))).1 =
      some ⟨"velo-pipeline", .unbounded, none, ⟨[]⟩, 1, []⟩ := rfl
  have hin : t.In (bitsGraph (twice .unbounded)) := ⟨_, rfl, rfl⟩
  obtain ⟨r', body, i, hrun', hiff, -⟩ :=
    Terminal.harmless_iff (t := t) (.build _ .new) hvalid rfl hfit hrun rfl hin rfl
  exact ⟨_, _, _, r', rfl, hrun, rfl, hrun', hiff.mpr ⟨hdecodes, by simp⟩⟩

/-- An empty dataset on a pipeline that fires twice. -/
def noBits : Dataset .boolean := ⟨twice .unbounded, 0, "N", some (.json .boolean)⟩

/-- The graph with the source of the dataset. -/
def noBitsGraph : Graph :=
  (Builder.exec ((twice .unbounded).source .boolean "N" [] (.json .boolean)) {}).2

/-- An assertion on the dataset with a codec that encodes `true` and refuses its bytes. -/
def refusingBits : IterableAssertion .boolean :=
  (assertThat noBits).setCodec (Script.pickyCodec .boolean [] ["true"])

/-- A value is expected whose bytes are refused: the run fails at the source of the expected
values. -/
theorem Terminal.harmless_undecodable :
    (twice .unbounded).options.validate = .ok () ∧ (twice .unbounded).options.FitsTasks ∧
      Builder.exec ((twice .unbounded).source .boolean "N" [] (.json .boolean)) {} =
        (.ok noBits, noBitsGraph) ∧
      ∃ h g' r r' e, ((twice .unbounded).run noBitsGraph).1 = some r ∧ r.failure = none ∧
        Builder.exec (refusingBits.containsInAnyOrder [true]) noBitsGraph = (.ok h, g') ∧
        ((twice .unbounded).run g').1 = some r' ∧
        r'.failure = some (.serialization "Assert$0/CreateExpected/Values" e) ∧
        ¬ h.Harmless noBitsGraph r r' := by
  let t : Terminal := .collectionRelates refusingBits
    (.containsInAnyOrder Kind.boolean.equal Kind.boolean.describe) [true]
  have hfit : (twice .unbounded).options.FitsTasks := rfl
  have hrun : runStages (twice .unbounded).options noBitsGraph.stages { graph := noBitsGraph } =
      ({ outputs := [.elements .boolean []], graph := noBitsGraph }, none) := rfl
  have hrefused : (Script.pickyCodec .boolean [] ["true"]).copy true =
      .error (.decoding (.told "rejected true")) := rfl
  have hdecodes : ¬ t.Decodes := by
    intro hall
    obtain ⟨y, hy⟩ := hall _ rfl true List.mem_cons_self
    rw [hrefused] at hy
    cases hy
  have hin : t.In noBitsGraph := ⟨_, rfl, rfl⟩
  let g' := (Builder.exec (refusingBits.containsInAnyOrder [true]) noBitsGraph).2
  have he : Builder.exec (refusingBits.containsInAnyOrder [true]) noBitsGraph =
      (.ok ⟨twice .unbounded, "Assert$0", "Assert$0/RunChecks", .countOnly⟩, g') := rfl
  obtain ⟨s', e, hstages⟩ := t.stops hin hfit hrun he hdecodes g'
  obtain ⟨r', hrun', hfailure⟩ := Pipeline.run_failed hstages
  refine ⟨rfl, hfit, rfl, _, g', ⟨"velo-pipeline", .unbounded, none, ⟨[]⟩, 1, []⟩, r', e,
    rfl, rfl, he, hrun', hfailure, fun hh => ?_⟩
  rw [hh.done] at hfailure
  cases hfailure

end CheckedFlow
