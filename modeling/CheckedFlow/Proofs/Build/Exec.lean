import CheckedFlow.Graph.Transform

/-!
# Uninterrupted builder programs

`Builder.exec` runs a builder program that nobody interrupts: its result or error, and the graph
after it. What the operations of a graph do is said once here; a proof about a builder call
rewrites with these equations (`simp only [exec_bind, exec_register, ...]`) or takes a successful
call apart with `exec_bind_ok`.

* `Graph.extend`: `g` with stages added at its end, which is what a registration that succeeds does.
* `exec_register_ok`: a registration succeeds exactly if the name is neither blank nor taken.
* `exec_bind_ok`: a program succeeds exactly if its parts do, one after the other.
-/

namespace CheckedFlow

namespace Graph

/-- `g` with the stages `ss` at its end, and their names taken. -/
def extend (g : Graph) (ss : List Stage) : Graph :=
  { g with stages := g.stages ++ ss, names := (ss.map Stage.name).reverse ++ g.names }

@[simp] theorem extend_stages (g : Graph) (ss : List Stage) :
    (g.extend ss).stages = g.stages ++ ss := rfl

@[simp] theorem extend_names (g : Graph) (ss : List Stage) :
    (g.extend ss).names = (ss.map Stage.name).reverse ++ g.names := rfl

@[simp] theorem extend_nil (g : Graph) : g.extend [] = g := by simp [extend]

@[simp] theorem extend_extend (g : Graph) (ss ts : List Stage) :
    (g.extend ss).extend ts = g.extend (ss ++ ts) := by
  simp [extend]

@[simp] theorem setCheck_stages (g : Graph) (stage : String) (state : CheckState) :
    (g.setCheck stage state).stages = g.stages := rfl

@[simp] theorem setCheck_names (g : Graph) (stage : String) (state : CheckState) :
    (g.setCheck stage state).names = g.names := rfl

@[simp] theorem check_setCheck (g : Graph) (stage : String) (state : CheckState) :
    (g.setCheck stage state).check stage = state := by
  simp [setCheck, check]

/-- A registration that succeeds adds the stage, and nothing else succeeds. -/
theorem register_eq (g : Graph) (s : Stage) :
    g.register s =
      if Text.isBlankText s.name then (.error (.construction s.name .blankName), g)
      else if s.name ∈ g.names then (.error (.duplicateStageName s.name), g)
      else (.ok g.stages.length, g.extend [s]) := by
  simp [register, extend]

end Graph

namespace Builder

variable {α β : Type}

/-- Runs a builder program without interruption. -/
def exec (b : Builder α) (g : Graph) : Except PipelineError α × Graph := Build.run (ExceptT.run b) g

@[simp] theorem exec_pure (x : α) (g : Graph) : exec (pure x) g = (.ok x, g) := rfl

@[simp] theorem exec_throw (e : PipelineError) (g : Graph) :
    exec (throw e : Builder α) g = (.error e, g) := rfl

@[simp] theorem exec_ofExcept (r : Except PipelineError α) (g : Graph) :
    exec (ofExcept r) g = (r, g) := rfl

@[simp] theorem exec_stageCount (g : Graph) : exec stageCount g = (.ok g.stages.length, g) := rfl

theorem exec_register (s : Stage) (g : Graph) : exec (register s) g = g.register s := rfl

@[simp] theorem exec_discardSince (n : Nat) (under : String) (g : Graph) :
    exec (discardSince n under) g = (.ok (g.discardSince n under).1, (g.discardSince n under).2) :=
  rfl

@[simp] theorem exec_nextAssertion (g : Graph) :
    exec nextAssertion g = (.ok g.nextAssertion.1, g.nextAssertion.2) := rfl

@[simp] theorem exec_setCheck (stage : String) (state : CheckState) (g : Graph) :
    exec (setCheck stage state) g = (.ok (), g.setCheck stage state) := rfl

/-- The second program runs on what the first one left, if that succeeded. -/
theorem exec_bind (b : Builder α) (f : α → Builder β) (g : Graph) :
    exec (b >>= f) g =
      match exec b g with
      | (.ok x, g₁) => exec (f x) g₁
      | (.error e, g₁) => (.error e, g₁) := by
  have h : exec (b >>= f) g = ((ExceptT.run b).bind (ExceptT.bindCont f)).run g := rfl
  rw [h, Build.run_bind]
  unfold exec
  obtain ⟨r, g₁⟩ := Build.run (ExceptT.run b) g
  cases r <;> rfl

/-- The handler runs on what a failing program left. -/
theorem exec_tryCatch (b : Builder α) (f : PipelineError → Builder α) (g : Graph) :
    exec (tryCatch b f) g =
      match exec b g with
      | (.ok x, g₁) => (.ok x, g₁)
      | (.error e, g₁) => exec (f e) g₁ := by
  change Build.run (Build.bind (ExceptT.run b) _) g = _
  rw [Build.run_bind]
  unfold exec
  obtain ⟨r, g₁⟩ := Build.run (ExceptT.run b) g
  cases r <;> rfl

theorem exec_bind_ok {b : Builder α} {f : α → Builder β} {g g' : Graph} {y : β} :
    exec (b >>= f) g = (.ok y, g') ↔
      ∃ x g₁, exec b g = (.ok x, g₁) ∧ exec (f x) g₁ = (.ok y, g') := by
  rw [exec_bind]
  obtain ⟨r, g₁⟩ := exec b g
  cases r with
  | ok x =>
    refine ⟨fun h => ⟨x, g₁, rfl, h⟩, ?_⟩
    rintro ⟨_, _, h, h'⟩
    cases h
    exact h'
  | error e => simp

theorem exec_register_ok {s : Stage} {g g' : Graph} {n : NodeId} :
    exec (register s) g = (.ok n, g') ↔
      Text.isBlankText s.name = false ∧ s.name ∉ g.names ∧ n = g.stages.length ∧
        g' = g.extend [s] := by
  rw [exec_register, Graph.register_eq]
  by_cases hb : Text.isBlankText s.name = true
  · simp [hb]
  by_cases hn : s.name ∈ g.names
  · simp [hb, hn]
  · simp only [hb, hn, if_false, Bool.false_eq_true, Prod.mk.injEq, Except.ok.injEq, not_false_iff,
      true_and]
    exact and_congr eq_comm eq_comm

end Builder

end CheckedFlow
