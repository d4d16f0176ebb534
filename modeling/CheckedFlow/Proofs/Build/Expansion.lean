import CheckedFlow.Assertion.Singleton
import CheckedFlow.Proofs.Build.Reach

/-!
# What a successful call registered

A builder call that succeeds added stages at the end of the graph, and which ones is known from its
arguments and from the number of stages before them. There is one lemma for each call; a proof about
a check takes a successful terminal call apart with them and never opens a builder program.

* `copyStages`, `valueStages`, `checkStages`: the stages of evidence about a dataset, of evidence
  about given values, and of a check itself.
* `ofDataset_ok`, `ofValues_ok`, `ofView_ok`, `attachCheck_ok`: the calls that register them.
* `allOrNothing_ok`: nothing is taken back from a program that succeeds.
-/

namespace CheckedFlow

variable {α : Type} {k l : Kind} {g g' : Graph}

namespace Builder

/-- A call that registers one stage and returns a handle to it. -/
theorem exec_handle_ok {s : Stage} {handle : NodeId → α} {x : α} :
    exec (register s >>= fun n => pure (handle n)) g = (.ok x, g') ↔
      Text.isBlankText s.name = false ∧ s.name ∉ g.names ∧ x = handle g.stages.length ∧
        g' = g.extend [s] := by
  rw [exec_bind_ok]
  constructor
  · rintro ⟨n, g₁, hr, hp⟩
    obtain ⟨hb, hn, rfl, rfl⟩ := exec_register_ok.mp hr
    cases hp
    exact ⟨hb, hn, rfl, rfl⟩
  · rintro ⟨hb, hn, rfl, rfl⟩
    exact ⟨_, _, exec_register_ok.mpr ⟨hb, hn, rfl, rfl⟩, rfl⟩

end Builder

open Builder

/-! ## Transforms and sources -/

theorem Dataset.windowInto_global_ok {d d' : Dataset k} {name : String}
    (h : exec (d.windowInto name .global) g = (.ok d', g')) :
    d' = ⟨d.pipeline, g.stages.length, name, d.codec⟩ ∧
      g' = g.extend [⟨name, .windowInto k d.node .global⟩] := by
  obtain ⟨-, -, hd, hg⟩ := exec_handle_ok.mp h
  exact ⟨hd, hg⟩

theorem Dataset.parDo_ok {d : Dataset k} {d' : Dataset l} {name : String}
    {doFn : DoFn k.Value l.Value} {declared : List SideInput}
    (h : exec (d.parDo l name doFn declared) g = (.ok d', g')) :
    name ∉ g.names ∧ d' = ⟨d.pipeline, g.stages.length, name, none⟩ ∧
      g' = g.extend [⟨name, .parDo k l d.node declared doFn⟩] := by
  obtain ⟨-, hn, hd, hg⟩ := exec_handle_ok.mp h
  exact ⟨hn, hd, hg⟩

theorem Dataset.view_ok {d : Dataset k} {v : View l} {name : String}
    {f : ViewFn k.Value l.Value} (h : exec (d.view l name f) g = (.ok v, g')) :
    v = ⟨d.pipeline, g.stages.length, name, f.shape⟩ ∧
      g' = g.extend [⟨name, .view k l d.node f⟩] := by
  obtain ⟨-, -, hv, hg⟩ := exec_handle_ok.mp h
  exact ⟨hv, hg⟩

theorem Pipeline.impulse_ok {p : Pipeline} {name : String} {d : Dataset .unit}
    (h : exec (p.impulse name) g = (.ok d, g')) :
    d = ⟨p, g.stages.length, name, some (.json .unit)⟩ ∧ g' = g.extend [⟨name, .impulse⟩] := by
  obtain ⟨-, -, hd, hg⟩ := exec_handle_ok.mp h
  exact ⟨hd, hg⟩

theorem Pipeline.source_ok {p : Pipeline} {name : String} {items : List k.Value}
    {codec : Codec k.Value} {d : Dataset k}
    (h : exec (p.source k name items codec) g = (.ok d, g')) :
    ∃ encoded, Pipeline.encodeSource name codec 0 (items.map fun x => (x, Timestamp.least)) =
        .ok encoded ∧
      d = ⟨p, g.stages.length, name, some codec⟩ ∧
      g' = g.extend [⟨name, .create k codec encoded⟩] := by
  obtain ⟨encoded, g₁, he, hr⟩ := exec_bind_ok.mp h
  rw [exec_ofExcept, Prod.mk.injEq] at he
  obtain ⟨he, rfl⟩ := he
  obtain ⟨-, -, hd, hg⟩ := exec_handle_ok.mp hr
  exact ⟨encoded, he, hd, hg⟩

/-! ## Evidence -/

/-- The stages that copy the elements of the stage `node` and view the copies; `n` stages are
before them. -/
def copyStages (node : NodeId) (codec : Codec k.Value) (f : ViewFn k.Value l.Value)
    (under : String) (n : Nat) : List Stage :=
  [⟨under ++ "/RewindowActuals", .windowInto k node .global⟩,
    ⟨under ++ "/Isolate", .parDo k (.copy k) n [] (DoFn.map codec.copy)⟩,
    ⟨under ++ "/View", .view (.copy k) l (n + 1) (.afterCopying f)⟩]

/-- The stages that view given values; `n` stages are before them. -/
def valueStages (encoded : List (Bytes × Timestamp)) (codec : Codec k.Value)
    (f : ViewFn k.Value l.Value) (under : String) (n : Nat) : List Stage :=
  [⟨under ++ "/Values", .create k codec encoded⟩, ⟨under ++ "/View", .view k l n f⟩]

theorem Evidence.codecOf_ok {d : Dataset k} {fallback : Option (Codec k.Value)} {keyed : Bool}
    {under : String} {codec : Codec k.Value}
    (h : exec (codecOf d fallback keyed under) g = (.ok codec, g')) :
    (d.codec <|> fallback) = some codec ∧ g' = g := by
  unfold codecOf at h
  split at h
  · rename_i hc
    cases h
    exact ⟨hc, rfl⟩
  · cases h

theorem Evidence.ofDataset_ok {d : Dataset k} {f : ViewFn k.Value l.Value}
    {fallback : Option (Codec k.Value)} {keyed : Bool} {p : Pipeline} {under : String}
    {v : View l} (h : exec (ofDataset d f fallback keyed p under) g = (.ok v, g')) :
    ∃ codec, (d.codec <|> fallback) = some codec ∧
      v = ⟨d.pipeline, g.stages.length + 2, under ++ "/View", f.shape⟩ ∧
      g' = g.extend (copyStages d.node codec f under g.stages.length) := by
  simp only [ofDataset] at h
  split at h
  · cases h
  obtain ⟨codec, g₁, hr, h₁⟩ := exec_bind_ok.mp h
  obtain ⟨hc, rfl⟩ := codecOf_ok hr
  obtain ⟨moved, g₂, hm, h₂⟩ := exec_bind_ok.mp h₁
  obtain ⟨rfl, rfl⟩ := Dataset.windowInto_global_ok hm
  obtain ⟨copies, g₃, hp, h₃⟩ := exec_bind_ok.mp h₂
  obtain ⟨-, rfl, rfl⟩ := Dataset.parDo_ok hp
  obtain ⟨rfl, rfl⟩ := Dataset.view_ok h₃
  exact ⟨codec, hc, by simp [ViewFn.afterCopying], by simp [copyStages]⟩

theorem Evidence.ofValues_ok {values : List k.Value} {given : Option (Codec k.Value)}
    {f : ViewFn k.Value l.Value} {p : Pipeline} {under : String} {v : View l}
    (h : exec (ofValues values given f p under) g = (.ok v, g')) :
    ∃ codec encoded, given = some codec ∧
      Pipeline.encodeSource (under ++ "/Values") codec 0
        (values.map fun x => (x, Timestamp.least)) = .ok encoded ∧
      v = ⟨p, g.stages.length + 1, under ++ "/View", f.shape⟩ ∧
      g' = g.extend (valueStages encoded codec f under g.stages.length) := by
  simp only [ofValues] at h
  split at h
  · cases h
  cases given with
  | none => cases h
  | some codec =>
    obtain ⟨created, g₁, hs, h₁⟩ := exec_bind_ok.mp h
    obtain ⟨encoded, he, rfl, rfl⟩ := Pipeline.source_ok hs
    obtain ⟨rfl, rfl⟩ := Dataset.view_ok h₁
    exact ⟨codec, encoded, rfl, he, by simp, by simp [valueStages]⟩

theorem Evidence.ofView_ok {w v : View k} {p : Pipeline} {under : String}
    (h : exec (ofView w p under) g = (.ok v, g')) : v = w ∧ g' = g := by
  simp only [ofView] at h
  split at h
  · cases h
  · cases h
    exact ⟨rfl, rfl⟩

/-! ## Checks -/

/-- The stage that runs the check `name` at every firing of the stage `trigger`. -/
def checkStage (policy : FailurePolicy) (body : CheckBody) (declared : List SideInput)
    (name : String) (trigger : NodeId) : Stage :=
  ⟨name ++ "/RunChecks",
    .parDo .unit .unit trigger declared fun s _ => fire policy s.stage (body s)⟩

/-- The stages of the check `name` itself; `n` stages are before them. -/
def checkStages (policy : FailurePolicy) (body : CheckBody) (declared : List SideInput)
    (name : String) (n : Nat) : List Stage :=
  [⟨name ++ "/Trigger", .impulse⟩, checkStage policy body declared name n]

/-- The name of the stage that runs a check is new. -/
theorem attachCheck_ok {p : Pipeline} {name : String} {body : CheckBody}
    {declared : List SideInput} {c : CheckHandle}
    (h : exec (attachCheck p name body declared) g = (.ok c, g')) :
    c = ⟨p, name, name ++ "/RunChecks", .ofRunMode p.options.runMode⟩ ∧ c.stage ∉ g.names ∧
      g' = (g.extend (checkStages c.policy body declared name g.stages.length)).setCheck c.stage
        .scheduled := by
  obtain ⟨trigger, g₁, ht, h₁⟩ := exec_bind_ok.mp h
  obtain ⟨rfl, rfl⟩ := Pipeline.impulse_ok ht
  obtain ⟨done, g₂, hp, h₂⟩ := exec_bind_ok.mp h₁
  obtain ⟨hn, -, rfl⟩ := Dataset.parDo_ok hp
  cases h₂
  refine ⟨rfl, fun hc => hn ?_, by simp [checkStages, checkStage]⟩
  simp [hc]

theorem allOrNothing_ok {name : String} {build : Builder α} {x : α}
    (h : exec (allOrNothing name build) g = (.ok x, g')) : exec build g = (.ok x, g') := by
  obtain ⟨n, g₁, hn, h₁⟩ := exec_bind_ok.mp h
  cases hn
  rw [exec_tryCatch] at h₁
  split at h₁
  · rename_i hb
    rw [hb, h₁]
  · obtain ⟨m, g₂, -, h₂⟩ := exec_bind_ok.mp h₁
    cases h₂

end CheckedFlow
