import CheckedFlow.Proofs.Build.Exec
import CheckedFlow.Proofs.Run.Stages

/-!
# The graphs of a pipeline

The graph of a pipeline is new, or what a builder program or a run made of another one. Whatever the
programs are, the taken names are those of the registered stages, no two stages share a name and no
name is blank.

* `Graph.Reachable`: the graphs that a pipeline can have.
* `Graph.Sound`: the invariant of names. `register_sound`, `discardSince_sound`: the two operations
  that touch names keep it; `Build.run_sound`: so do all programs.
* `Graph.Reachable.sound`: it holds of every graph that a pipeline can have.
-/

namespace CheckedFlow

namespace Graph

/-- The graphs that a pipeline can have. -/
inductive Reachable : Graph → Prop
  | new : Reachable {}
  | build {α : Type} {g : Graph} (b : Build α) : Reachable g → Reachable (b.run g).2
  | run {g : Graph} (p : Pipeline) : Reachable g → Reachable (p.run g).2

/-- The names that are taken are those of the stages, which are told apart by them. -/
structure Sound (g : Graph) : Prop where
  nodup : g.stageNames.Nodup
  names : ∀ n, n ∈ g.names ↔ n ∈ g.stageNames
  notBlank : ∀ n ∈ g.stageNames, Text.isBlankText n = false

/-- The invariant speaks of stages and names alone. -/
theorem Sound.congr {g g' : Graph} (h : g.Sound) (hs : g'.stages = g.stages)
    (hn : g'.names = g.names) : g'.Sound := by
  have e : g'.stageNames = g.stageNames := by unfold stageNames; rw [hs]
  exact ⟨e ▸ h.nodup, fun n => by rw [hn, e]; exact h.names n, e ▸ h.notBlank⟩

theorem register_sound {g : Graph} (h : g.Sound) (s : Stage) : (g.register s).2.Sound := by
  rw [register_eq]
  split
  · exact h
  split
  · exact h
  rename_i hb hn
  have hn' : s.name ∉ g.stageNames := fun hc => hn ((h.names _).mpr hc)
  have e : (g.extend [s]).stageNames = g.stageNames ++ [s.name] := by simp [stageNames]
  refine ⟨?_, fun n => ?_, fun n hm => ?_⟩
  · rw [e]
    exact List.nodup_append.mpr ⟨h.nodup, by simp, by
      intro a ha b hb hab
      rw [List.mem_singleton.mp hb] at hab
      exact hn' (hab ▸ ha)⟩
  · rw [e]
    simp [h.names n, or_comm]
  · rw [e] at hm
    rcases List.mem_append.mp hm with hm | hm
    · exact h.notBlank n hm
    · rw [List.mem_singleton.mp hm]
      simpa using hb

/-- The stages that stay are named apart from those that go. -/
theorem discardSince_sound {g : Graph} (h : g.Sound) (n : Nat) (under : String) :
    (g.discardSince n under).2.Sound := by
  have e : g.stageNames = (g.stages.take n).map Stage.name ++ (g.stages.drop n).map Stage.name := by
    rw [stageNames, ← List.map_append, List.take_append_drop]
  have hd := h.nodup
  rw [e, List.nodup_append] at hd
  obtain ⟨hkept, -, hapart⟩ := hd
  simp only [discardSince]
  split
  · refine ⟨hkept, fun m => ?_, fun m hm => h.notBlank m ?_⟩
    · change m ∈ g.names.filter _ ↔ m ∈ (g.stages.take n).map Stage.name
      rw [List.mem_filter, h.names m, e, List.mem_append, decide_eq_true_eq]
      exact ⟨fun ⟨hm, hnot⟩ => hm.resolve_right hnot,
        fun hm => ⟨.inl hm, fun hgone => hapart m hm m hgone rfl⟩⟩
    · rw [e]
      exact List.mem_append_left _ hm
  · exact h

end Graph

/-- A builder program keeps the invariant of names, whatever it does. -/
theorem Build.run_sound {α : Type} (b : Build α) {g : Graph} (h : g.Sound) : (b.run g).2.Sound := by
  induction b generalizing g with
  | done x => exact h
  | stageCount next ih => exact ih _ h
  | register stage next ih => exact ih _ (Graph.register_sound h stage)
  | discardSince checkpoint under next ih =>
    exact ih _ (Graph.discardSince_sound h checkpoint under)
  | nextAssertion next ih => exact ih _ (h.congr rfl rfl)
  | setCheck stage state next ih => exact ih _ (h.congr rfl rfl)

/-- One step of a program keeps the invariant of names. -/
theorem Build.step_sound {α : Type} {b b' : Build α} {g g' : Graph}
    (hstep : b.step g = some (b', g')) (h : g.Sound) : g'.Sound := by
  cases b with
  | done x => cases hstep
  | stageCount next => cases hstep; exact h
  | register stage next => cases hstep; exact Graph.register_sound h stage
  | discardSince checkpoint under next =>
    cases hstep
    exact Graph.discardSince_sound h checkpoint under
  | nextAssertion next => cases hstep; exact h.congr rfl rfl
  | setCheck stage state next => cases hstep; exact h.congr rfl rfl

/-- A run keeps the stages and their names. -/
theorem Pipeline.run_graph (p : Pipeline) (g : Graph) :
    (p.run g).2.stages = g.stages ∧ (p.run g).2.names = g.names := by
  have h := @runStages_graph p.options g.stages { graph := g }
  have e : (p.run g).2 = (runStages p.options g.stages { graph := g }).1.graph := by
    simp only [Pipeline.run]
    split <;> rfl
  rw [e]
  exact h

/-- Every graph that a pipeline can have keeps the invariant of names. -/
theorem Graph.Reachable.sound {g : Graph} (h : g.Reachable) : g.Sound := by
  induction h with
  | new => exact ⟨List.nodup_nil, fun n => by simp [stageNames], by simp [stageNames]⟩
  | build b _ ih => exact b.run_sound ih
  | run p _ ih => exact ih.congr (p.run_graph _).1 (p.run_graph _).2

end CheckedFlow
