import CheckedFlow.Proofs.Assertion.Call

/-!
# Building an assertion is all or nothing

A call that builds a check registers the stages of both sides and of the check itself one after the
other, and any of these registrations may fail: a name may be taken, a codec missing, a value without
an encoding, a handle of another pipeline. A call that fails leaves no trace among the stages and the
taken names. A call that succeeds leaves all its stages, whose names follow from the sources of its
sides: a side that reads a view of the pipeline registers nothing.

* `CheckSpec.Registers`: the names of a check's stages, behind the name of the check.
* `AssertionCall.all_or_nothing`: the law, for all calls on all graphs.
-/

namespace CheckedFlow

variable {k l : Kind} {g g' : Graph}

open Builder

/-- The names of the check's stages, behind the check's name: those of the actual value's evidence,
those of the expected value's evidence if there is one, and the check's own. -/
inductive CheckSpec.Registers : CheckSpec → List String → Prop
  | value {k : Kind} {actual : Evidence k} {names : List String} (h : actual.Registers names)
      (checker : Checker k.Value) :
      Registers (.value actual checker)
        (names.map ("/CreateActual" ++ ·) ++ ["/Trigger", "/RunChecks"])
  | against {k l : Kind} {actual : Evidence k} {expected : Evidence l} {names names' : List String}
      (h : actual.Registers names) (h' : expected.Registers names')
      (r : Relation k.Value l.Value) :
      Registers (.against actual expected r)
        (names.map ("/CreateActual" ++ ·) ++ names'.map ("/CreateExpected" ++ ·) ++
          ["/Trigger", "/RunChecks"])

/-! ## What a check adds -/

/-- Evidence that is a part of a check adds stages under the check's name. -/
theorem Evidence.Registers.adds_part {e : Evidence k} {names : List String}
    (h : e.Registers names) (p : Pipeline) (name part : String) :
    Builder.Adds (fun stage => stage.Under name ∧ stage.operation.OfEvidence)
      (e p (name ++ ("/" ++ part))) :=
  (h.adds p _).imp fun stage hstage => by
    rw [← String.append_assoc] at hstage
    exact ⟨hstage.1.part, hstage.2⟩

/-- A check adds stages with a property if evidence, triggers and stages that run checks have it. -/
theorem CheckSpec.Registers.adds_of {P : Stage → Prop} {c : CheckSpec} {names : List String}
    (h : c.Registers names) (p : Pipeline) (name : String)
    (hevidence : ∀ stage : Stage, stage.Under name → stage.operation.OfEvidence → P stage)
    (htrigger : P ⟨name ++ "/Trigger", .impulse⟩)
    (hcheck : ∀ body declared n,
      P (checkStage (.ofRunMode p.options.runMode) body declared name n)) :
    Builder.Adds P (c.body p name) := by
  have hpart {m : Kind} {e : Evidence m} {names : List String} (h : e.Registers names)
      (part : String) : Builder.Adds P (e p (name ++ ("/" ++ part))) :=
    (h.adds_part p name part).imp fun stage hstage => hevidence stage hstage.1 hstage.2
  cases h with
  | value h checker =>
    exact .bind (hpart h "CreateActual") fun v => attachCheck_adds htrigger (hcheck _ _)
  | against h h' r =>
    exact .bind (hpart h "CreateActual") fun v =>
      .bind (hpart h' "CreateExpected") fun w => attachCheck_adds htrigger (hcheck _ _)

theorem CheckSpec.Registers.adds {c : CheckSpec} {names : List String} (h : c.Registers names)
    (p : Pipeline) (name : String) : Builder.Adds (Stage.Under name) (c.body p name) :=
  h.adds_of p name (fun _ hunder _ => hunder) (Stage.under_append "Trigger")
    fun _ _ _ => Stage.under_append "RunChecks"

/-! ## What a check registered -/

theorem Evidence.Registers.ok {e : Evidence k} {names : List String} (h : e.Registers names)
    {p : Pipeline} {under : String} {v : View k} (he : exec (e p under) g = (.ok v, g')) :
    ∃ added, g' = g.extend added ∧ added.map Stage.name = names.map (under ++ ·) := by
  cases h with
  | ofDataset d f fallback keyed =>
    obtain ⟨codec, -, -, rfl⟩ := Evidence.ofDataset_ok he
    exact ⟨_, rfl, rfl⟩
  | ofValues values codec f =>
    obtain ⟨codec, encoded, -, -, -, rfl⟩ := Evidence.ofValues_ok he
    exact ⟨_, rfl, rfl⟩
  | ofView w =>
    obtain ⟨-, rfl⟩ := Evidence.ofView_ok he
    exact ⟨[], by simp, rfl⟩

theorem attachCheck_names {p : Pipeline} {name : String} {body : CheckBody}
    {declared : List SideInput} {handle : CheckHandle}
    (h : exec (attachCheck p name body declared) g = (.ok handle, g')) :
    handle.name = name ∧ ∃ added, g'.stages = g.stages ++ added ∧
      added.map Stage.name = ["/Trigger", "/RunChecks"].map (name ++ ·) := by
  obtain ⟨rfl, -, rfl⟩ := attachCheck_ok h
  exact ⟨rfl, _, rfl, rfl⟩

/-- The names of a part of a check, behind the check's name. -/
theorem map_part (name part : String) (names : List String) :
    names.map ((name ++ part) ++ ·) = (names.map (part ++ ·)).map (name ++ ·) := by
  rw [List.map_map]
  exact List.map_congr_left fun n _ => String.append_assoc ..

theorem CheckSpec.Registers.ok {c : CheckSpec} {names : List String} (h : c.Registers names)
    {p : Pipeline} {name : String} {handle : CheckHandle}
    (he : exec (c.body p name) g = (.ok handle, g')) :
    handle.name = name ∧
      ∃ added, g'.stages = g.stages ++ added ∧
        added.map Stage.name = names.map (name ++ ·) := by
  cases h with
  | value h checker =>
    obtain ⟨v, g₁, hv, hc⟩ := exec_bind_ok.mp he
    obtain ⟨added, rfl, hadded⟩ := h.ok hv
    obtain ⟨hname, own, hstages, hown⟩ := attachCheck_names hc
    refine ⟨hname, added ++ own, by rw [hstages]; simp, ?_⟩
    rw [List.map_append, List.map_append, hadded, hown, map_part]
  | against h h' r =>
    obtain ⟨v, g₁, hv, hw⟩ := exec_bind_ok.mp he
    obtain ⟨added, rfl, hadded⟩ := h.ok hv
    obtain ⟨w, g₂, hw, hc⟩ := exec_bind_ok.mp hw
    obtain ⟨added', rfl, hadded'⟩ := h'.ok hw
    obtain ⟨hname, own, hstages, hown⟩ := attachCheck_names hc
    refine ⟨hname, added ++ added' ++ own, by rw [hstages]; simp, ?_⟩
    simp only [List.map_append, hadded, hadded', hown, map_part]

/-! ## The law -/

/-- The law for the program of one check. -/
theorem CheckSpec.build_all_or_nothing {c : CheckSpec} {names : List String}
    (h : c.Registers names) (p : Pipeline) (name : String) (g : Graph) :
    (∀ e g', exec (c.build p name) g = (.error e, g') →
      g'.stages = g.stages ∧ g'.names = g.names) ∧
    (∀ handle g', exec (c.build p name) g = (.ok handle, g') → handle.name = name ∧
      ∃ added, g'.stages = g.stages ++ added ∧ added.map Stage.name = names.map (name ++ ·) ∧
        g'.names = (added.map Stage.name).reverse ++ g.names ∧
        ∀ stage ∈ added, stage.Under name ∧ stage.name ∉ g.names) := by
  rw [CheckSpec.build_eq]
  refine ⟨fun e g' he => exec_allOrNothing_error (h.adds p name) he, fun handle g' he => ?_⟩
  have hbody := allOrNothing_ok he
  obtain ⟨hname, added, hstages, hadded⟩ := h.ok hbody
  obtain ⟨added', hstages', hnames', hadded'⟩ := (h.adds p name).run g
  have hrun : (Build.run (ExceptT.run (c.body p name)) g).2 = g' := congrArg Prod.snd hbody
  rw [hrun] at hstages' hnames'
  obtain rfl : added' = added := List.append_cancel_left (hstages'.symm.trans hstages)
  exact ⟨hname, added', hstages, hadded, hnames', hadded'⟩

/-- A call that fails leaves the stages and the taken names as they were. A call that succeeds leaves
the old stages, and behind them those of its check, whose names were free and are taken now. -/
theorem AssertionCall.all_or_nothing {c : AssertionCall} {names : List String}
    (h : c.spec.Registers names) (g : Graph) :
    (∀ e g', exec c.call g = (.error e, g') → g'.stages = g.stages ∧ g'.names = g.names) ∧
    (∀ handle g', exec c.call g = (.ok handle, g') → handle.name = c.name g ∧
      ∃ added, g'.stages = g.stages ++ added ∧
        added.map Stage.name = names.map (c.name g ++ ·) ∧
        g'.names = (added.map Stage.name).reverse ++ g.names ∧
        ∀ stage ∈ added, stage.Under (c.name g) ∧ stage.name ∉ g.names) := by
  cases c with
  | apply p name c => exact CheckSpec.build_all_or_nothing h p name g
  | terminal t =>
    rcases t.call_run with ⟨e, ht⟩ | ht
    · have hexec : exec t.call g = (.error e, g) := by rw [exec, ht]; rfl
      refine ⟨fun e' g' he => ?_, fun handle g' he => ?_⟩
      · rw [call, hexec] at he
        cases he
        exact ⟨rfl, rfl⟩
      · rw [call, hexec] at he
        cases he
    · have hexec : exec t.call g =
          exec (t.spec.build t.pipeline g.nextAssertion.1) g.nextAssertion.2 := by
        rw [exec, ht]; rfl
      rw [call, hexec]
      exact CheckSpec.build_all_or_nothing h t.pipeline g.nextAssertion.1 g.nextAssertion.2

/-- Whether any bit is true, as a check of a dataset's copies. -/
def anyBit (p : Pipeline) : CheckSpec :=
  .value (k := .list .boolean)
    (.ofDataset (k := .boolean) (l := .list .boolean) (bits p none) .iterable none)
    fun bs => ⟨if true ∈ bs then .passed else .failed (.custom "none"), []⟩

theorem anyBit_registers (p : Pipeline) : (anyBit p).Registers
    ["/CreateActual/RewindowActuals", "/CreateActual/Isolate", "/CreateActual/View", "/Trigger",
      "/RunChecks"] :=
  .value (.ofDataset ..) _

/-- A stage of the user's has the last of the names that the check needs. -/
def takenGraph (p : Pipeline) : Graph :=
  (exec (p.impulse "Any/RunChecks") (bitsGraph p)).2

/-- A check that finds its last name taken is taken back; with the name free it is built. -/
theorem AssertionCall.all_or_nothing_bits :
    (∃ e g', exec (AssertionCall.apply (twice .bounded) "Any" (anyBit (twice .bounded))).call
        (takenGraph (twice .bounded)) = (.error e, g') ∧
      g'.stageNames = ["Bits", "Any/RunChecks"] ∧ g'.names = ["Any/RunChecks", "Bits"]) ∧
    ∃ handle g', exec (AssertionCall.apply (twice .bounded) "Any" (anyBit (twice .bounded))).call
        (bitsGraph (twice .bounded)) = (.ok handle, g') ∧
      g'.stageNames = ["Bits", "Any/CreateActual/RewindowActuals", "Any/CreateActual/Isolate",
        "Any/CreateActual/View", "Any/Trigger", "Any/RunChecks"] := by
  have hlaw := AssertionCall.all_or_nothing
    (c := .apply (twice .bounded) "Any" (anyBit (twice .bounded))) (anyBit_registers _)
  constructor
  · obtain ⟨hstages, hnames⟩ := (hlaw (takenGraph (twice .bounded))).1 _ _ rfl
    exact ⟨_, _, rfl, by rw [Graph.stageNames, hstages]; rfl, by rw [hnames]; rfl⟩
  · obtain ⟨-, added, hstages, hadded, -⟩ := (hlaw (bitsGraph (twice .bounded))).2 _ _ rfl
    exact ⟨_, _, rfl, by rw [Graph.stageNames, hstages, List.map_append, hadded]; rfl⟩

/-- The graph with the source of the bits and a view of them. -/
def bitsViewGraph (p : Pipeline) : Graph :=
  (exec ((bits p none).asIterable "View") (bitsGraph p)).2

/-- The view of the bits. -/
def bitsView (p : Pipeline) : View (.list .boolean) := ⟨p, 1, "View", .iterable⟩

/-- A check of a view against a view has an expected value, and no stage that creates it. -/
theorem AssertionCall.views_create_nothing :
    ∃ handle g', exec (AssertionCall.apply (twice .bounded) "Same"
        (.against (.ofView (bitsView (twice .bounded))) (.ofView (bitsView (twice .bounded)))
          (.containsInAnyOrder Kind.boolean.equal Kind.boolean.describe))).call
        (bitsViewGraph (twice .bounded)) = (.ok handle, g') ∧
      g'.stageNames = (bitsViewGraph (twice .bounded)).stageNames ++
        ["Same/Trigger", "Same/RunChecks"] ∧
      ∀ n ∈ g'.stageNames, ¬ "Same/CreateExpected/".toList.isPrefixOf n.toList :=
  ⟨_, _, rfl, rfl, by decide⟩

end CheckedFlow
