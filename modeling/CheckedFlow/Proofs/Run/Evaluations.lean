import CheckedFlow.Proofs.Run.Report

/-!
# The stages that a run evaluates

A run evaluates its stages in their order, each one behind the outputs of those before it, up to the
first one without an output. Everything that a run leaves comes from these evaluations: its outputs,
its failure, the counters that it asks for and what they count.

* `Evaluates`: a stage and what it is evaluated to, if all stages before it have outputs.
  `Evaluates.unique`, `Evaluates.earlier`, `Evaluates.run`: there is one such evaluation, there are
  those of the stages before it, and the run gets to it.
* `runStages_evaluates`, `runStages_failed`: a run that stops was stopped by an evaluated stage, and
  every evaluated stage without an output stops it.
* `runStages_evaluated`: a run evaluates as many stages as it has outputs, and the one it stops at.
* `runStages_mem_keys`: the counters that a run asks for.
* `Counters.Alone`: a counter that shares its cell with no other one; `runStages_count`: what such a
  counter of one stage counts in a run.
-/

namespace CheckedFlow

variable {options : PipelineOptions} {outputs : Outputs} {ss : List Stage} {stage stage' : Stage}
  {n m : Nat} {e e' : Evaluated} {s : RunState} {stop : Stop} {key : CounterKey}

/-- The stage with the number `n` of `ss` is `stage` and is evaluated to `e`, behind `outputs` and the
outputs of the stages before it. -/
inductive Evaluates (options : PipelineOptions) :
    Outputs → List Stage → Nat → Stage → Evaluated → Prop
  | head {outputs : Outputs} {stage : Stage} {ss : List Stage} :
      Evaluates options outputs (stage :: ss) 0 stage
        (stage.operation.evaluate options stage.name outputs)
  | tail {outputs : Outputs} {first stage : Stage} {ss : List Stage} {o : Output} {n : Nat}
      {e : Evaluated}
      (ho : (first.operation.evaluate options first.name outputs).result = .ok o)
      (h : Evaluates options (outputs ++ [o]) ss n stage e) :
      Evaluates options outputs (first :: ss) (n + 1) stage e

namespace Evaluates

theorem getElem? (h : Evaluates options outputs ss n stage e) : ss[n]? = some stage := by
  induction h with
  | head => rfl
  | tail _ _ ih => exact ih

/-- A stage is evaluated to one thing. -/
theorem unique (h : Evaluates options outputs ss n stage e)
    (h' : Evaluates options outputs ss n stage' e') : stage = stage' ∧ e = e' := by
  induction h with
  | head => cases h'; exact ⟨rfl, rfl⟩
  | tail ho _ ih =>
    cases h' with
    | tail ho' h' =>
      rw [ho] at ho'
      cases ho'
      exact ih h'

/-- The stages before an evaluated one have outputs. -/
theorem earlier (h : Evaluates options outputs ss n stage e) (hm : m < n) :
    ∃ first e₁ o, Evaluates options outputs ss m first e₁ ∧ e₁.result = .ok o := by
  induction h generalizing m with
  | head => exact absurd hm (Nat.not_lt_zero m)
  | tail ho _ ih =>
    cases m with
    | zero => exact ⟨_, _, _, .head, ho⟩
    | succ m =>
      obtain ⟨first, e₁, o, h₁, hok⟩ := ih (Nat.lt_of_succ_lt_succ hm)
      exact ⟨first, e₁, o, .tail ho h₁, hok⟩

/-- No stage behind one without an output is evaluated. -/
theorem le_of_error (h : Evaluates options outputs ss n stage e) (he : e.result = .error stop)
    (h' : Evaluates options outputs ss m stage' e') : m ≤ n := by
  refine Nat.le_of_not_lt fun hlt => ?_
  obtain ⟨first, e₁, o, h₁, hok⟩ := h'.earlier hlt
  obtain ⟨-, rfl⟩ := h.unique h₁
  rw [he] at hok
  cases hok

/-- The evaluations of stages the first of which has an output. -/
theorem exists_cons_ok {first : Stage} {o : Output} {P : Stage → Evaluated → Prop}
    (ho : (first.operation.evaluate options first.name outputs).result = .ok o) :
    (∃ n stage e, Evaluates options outputs (first :: ss) n stage e ∧ P stage e) ↔
      P first (first.operation.evaluate options first.name outputs) ∨
        ∃ n stage e, Evaluates options (outputs ++ [o]) ss n stage e ∧ P stage e := by
  constructor
  · rintro ⟨n, stage, e, he, hp⟩
    cases he with
    | head => exact .inl hp
    | tail ho' he =>
      rw [ho] at ho'
      cases ho'
      exact .inr ⟨_, _, _, he, hp⟩
  · rintro (hp | ⟨n, stage, e, he, hp⟩)
    · exact ⟨0, first, _, .head, hp⟩
    · exact ⟨n + 1, stage, e, .tail ho he, hp⟩

/-- If the first stage has no output, it is the only one that is evaluated. -/
theorem exists_cons_error {first : Stage} {P : Stage → Evaluated → Prop}
    (hstop : (first.operation.evaluate options first.name outputs).result = .error stop) :
    (∃ n stage e, Evaluates options outputs (first :: ss) n stage e ∧ P stage e) ↔
      P first (first.operation.evaluate options first.name outputs) := by
  refine ⟨?_, fun hp => ⟨0, first, _, .head, hp⟩⟩
  rintro ⟨n, stage, e, he, hp⟩
  cases he with
  | head => exact hp
  | tail ho _ =>
    rw [hstop] at ho
    cases ho

end Evaluates

/-! ## Where a run ends -/

/-- The state after a stage was evaluated and left `o`. -/
def RunState.leave (options : PipelineOptions) (stage : Stage) (s : RunState) (o : Output) :
    RunState :=
  { s.applyAll stage.name (stage.operation.evaluate options stage.name s.outputs).effects with
    outputs := s.outputs ++ [o] }

theorem RunState.leave_counters (stage : Stage) (s : RunState) (o : Output) :
    (s.leave options stage o).counters = s.counters.addAll (Effect.counts stage.name
      (stage.operation.evaluate options stage.name s.outputs).effects) :=
  applyAll_counts ..

theorem runStages_cons_ok {o : Output}
    (h : (stage.operation.evaluate options stage.name s.outputs).result = .ok o) :
    runStages options (stage :: ss) s = runStages options ss (s.leave options stage o) := by
  simp only [runStages, h, RunState.leave, RunState.applyAll_outputs]

theorem runStages_cons_error
    (h : (stage.operation.evaluate options stage.name s.outputs).result = .error stop) :
    runStages options (stage :: ss) s = (s.applyAll stage.name
      (stage.operation.evaluate options stage.name s.outputs).effects, some stop) := by
  simp only [runStages, h]

/-- A run gets to the end of the stages before an evaluated one. -/
theorem Evaluates.run (h : Evaluates options s.outputs ss n stage e) :
    ∃ s₁, runStages options (ss.take n) s = (s₁, none) ∧
      e = stage.operation.evaluate options stage.name s₁.outputs := by
  induction ss generalizing s n with
  | nil => cases h
  | cons first ss ih =>
    cases h with
    | head => exact ⟨s, rfl, rfl⟩
    | @tail _ _ _ _ o n _ ho h =>
      obtain ⟨s₁, hrun, he⟩ := ih (s := s.leave options first o) h
      exact ⟨s₁, (runStages_cons_ok ho).trans hrun, he⟩

/-- A stage that a run stops at was evaluated. -/
theorem runStages_evaluates (h : (runStages options ss s).2 = some stop) :
    ∃ n stage e, Evaluates options s.outputs ss n stage e ∧ e.result = .error stop := by
  induction ss generalizing s with
  | nil => cases h
  | cons first ss ih =>
    cases hr : (first.operation.evaluate options first.name s.outputs).result with
    | ok o =>
      rw [runStages_cons_ok hr] at h
      obtain ⟨n, stage, e, he, hstop⟩ := ih h
      exact ⟨n + 1, stage, e, .tail hr he, hstop⟩
    | error stop' =>
      rw [runStages_cons_error hr] at h
      cases h
      exact ⟨0, first, _, .head, hr⟩

/-- A run stops at an evaluated stage without an output. -/
theorem runStages_failed (h : Evaluates options s.outputs ss n stage e)
    (he : e.result = .error stop) :
    (runStages options ss s).2 = some stop ∧
      (runStages options ss s).1.outputs.length = s.outputs.length + n := by
  induction ss generalizing s n with
  | nil => cases h
  | cons first ss ih =>
    cases h with
    | head =>
      rw [runStages_cons_error he, RunState.applyAll_outputs]
      exact ⟨rfl, rfl⟩
    | @tail _ _ _ _ o n _ ho h =>
      obtain ⟨hstop, hlen⟩ := ih (s := s.leave options first o) h
      rw [runStages_cons_ok ho]
      refine ⟨hstop, hlen.trans ?_⟩
      rw [RunState.leave, List.length_append, List.length_singleton, Nat.add_right_comm,
        Nat.add_assoc]

/-- A run goes on behind an evaluated stage with an output. -/
theorem Evaluates.passed {o : Output} (h : Evaluates options s.outputs ss n stage e)
    (he : e.result = .ok o) :
    s.outputs.length + n < (runStages options ss s).1.outputs.length := by
  cases hstop : (runStages options ss s).2 with
  | none =>
    rw [runStages_length (Prod.ext rfl hstop)]
    exact Nat.add_lt_add_left (List.getElem?_eq_some_iff.mp h.getElem?).1 _
  | some stop =>
    obtain ⟨m, stage', e', h', he'⟩ := runStages_evaluates hstop
    rw [(runStages_failed h' he').2]
    refine Nat.add_lt_add_left (Nat.lt_of_le_of_ne (h'.le_of_error he' h) ?_) _
    rintro rfl
    obtain ⟨-, rfl⟩ := h.unique h'
    rw [he] at he'
    cases he'

/-- A run gets to every evaluated stage. -/
theorem Evaluates.le (h : Evaluates options s.outputs ss n stage e) :
    s.outputs.length + n ≤ (runStages options ss s).1.outputs.length := by
  cases hr : e.result with
  | ok o => exact Nat.le_of_lt (h.passed hr)
  | error stop => exact Nat.le_of_eq (runStages_failed h hr).2.symm

/-- A run evaluates as many stages as it has outputs, and the one that it stops at. -/
theorem runStages_evaluated (hn : n < ss.length)
    (h : s.outputs.length + n ≤ (runStages options ss s).1.outputs.length) :
    ∃ stage e, Evaluates options s.outputs ss n stage e := by
  induction ss generalizing s n with
  | nil => exact absurd hn (Nat.not_lt_zero n)
  | cons first ss ih =>
    cases n with
    | zero => exact ⟨first, _, .head⟩
    | succ n =>
      cases hr : (first.operation.evaluate options first.name s.outputs).result with
      | ok o =>
        rw [runStages_cons_ok hr] at h
        obtain ⟨stage, e, he⟩ := ih (s := s.leave options first o)
          (Nat.lt_of_succ_lt_succ hn) (by
            rw [RunState.leave, List.length_append, List.length_singleton, Nat.add_right_comm,
              Nat.add_assoc]
            exact h)
        exact ⟨stage, e, .tail hr he⟩
      | error stop' =>
        rw [runStages_cons_error hr, RunState.applyAll_outputs] at h
        exact absurd h (by omega)

/-! ## The counters that a run asks for -/

theorem RunState.applyAll_mem_keys {stage : String} {es : List Effect} :
    key ∈ (s.applyAll stage es).counters.keys ↔
      key ∈ s.counters.keys ∨ ∃ amount, (key, amount) ∈ Effect.counts stage es := by
  rw [applyAll_counts, Counters.mem_keys_addAll]

/-- The counters that a run asks for are those of the stages that it evaluates. -/
theorem runStages_mem_keys :
    key ∈ (runStages options ss s).1.counters.keys ↔
      key ∈ s.counters.keys ∨ ∃ n stage e, Evaluates options s.outputs ss n stage e ∧
        ∃ amount, (key, amount) ∈ Effect.counts stage.name e.effects := by
  induction ss generalizing s with
  | nil =>
    refine ⟨.inl, ?_⟩
    rintro (h | ⟨n, stage, e, he, -⟩)
    · exact h
    · cases he
  | cons first ss ih =>
    have hfirst : key ∈ (s.applyAll first.name
        (first.operation.evaluate options first.name s.outputs).effects).counters.keys ↔ _ :=
      RunState.applyAll_mem_keys
    cases hr : (first.operation.evaluate options first.name s.outputs).result with
    | ok o =>
      rw [runStages_cons_ok hr, ih, Evaluates.exists_cons_ok hr, ← or_assoc]
      exact or_congr hfirst Iff.rfl
    | error stop =>
      rw [runStages_cons_error hr, Evaluates.exists_cons_error hr]
      exact hfirst

/-! ## What a counter of one stage counts -/

/-- No other counter that was asked for shares the cell of `key`. -/
def Counters.Alone (c : Counters) (key : CounterKey) : Prop :=
  ∀ k ∈ c.keys, k.digest = key.digest → k = key

/-- The count of `key` is `count`, if its cell is its own. -/
def Counters.Still (key : CounterKey) (count : UInt64) (c : Counters) : Prop :=
  c.Alone key → c.count key = count

theorem Counters.still_empty (key : CounterKey) : Counters.empty.Still key 0 := fun _ => rfl

theorem Counters.Alone.of_add {c : Counters} {key' : CounterKey} {amount : UInt64}
    (h : (c.add key' amount).Alone key) : c.Alone key :=
  fun k hk => h k (mem_keys_add.mpr (.inr hk))

/-- Counters of other stages do not show. -/
theorem Counters.Still.add {c : Counters} {count : UInt64} (h : c.Still key count)
    {stage : String} (hstage : stage ≠ key.stage) (counter : String) (amount : UInt64) :
    (c.add ⟨counter, stage⟩ amount).Still key count := by
  intro halone
  have hother : key.digest ≠ (CounterKey.mk counter stage).digest := fun hd =>
    hstage (congrArg CounterKey.stage (halone _ (mem_keys_add.mpr (.inl rfl)) hd.symm))
  rw [count_add, if_neg hother]
  exact h halone.of_add

theorem Counters.Still.add_self {c : Counters} {count : UInt64} (h : c.Still key count)
    (amount : UInt64) : (c.add key amount).Still key (count + amount) := by
  intro halone
  rw [count_add, if_pos rfl, h halone.of_add]

/-- A counter of a stage that counts in no other one is what the stage added to it. -/
theorem runStages_count {count amount : UInt64} (hnames : (ss.map Stage.name).Nodup)
    (h : Evaluates options s.outputs ss n stage e) (hkey : key.stage = stage.name)
    (hcounts : Effect.counts stage.name e.effects = [(key, amount)])
    (hs : s.counters.Still key count) :
    (runStages options ss s).1.counters.Still key (count + amount) := by
  induction ss generalizing s n with
  | nil => cases h
  | cons first ss ih =>
    obtain ⟨hfirst, hnames⟩ := List.nodup_cons.mp hnames
    cases h with
    | head =>
      have hafter : (s.applyAll stage.name
          (stage.operation.evaluate options stage.name s.outputs).effects).counters.Still key
            (count + amount) := by
        rw [RunState.applyAll_counts, hcounts]
        exact hs.add_self amount
      have hothers : ∀ st ∈ ss, st.name ≠ key.stage := fun st hst hname =>
        hfirst (hkey ▸ hname ▸ List.mem_map_of_mem hst)
      cases hr : (stage.operation.evaluate options stage.name s.outputs).result with
      | ok o =>
        rw [runStages_cons_ok hr]
        exact runStages_counters (fun c counter m st hst hc => hc.add (hothers st hst) counter m)
          hafter
      | error stop =>
        rw [runStages_cons_error hr]
        exact hafter
    | @tail _ _ _ _ o n _ ho h =>
      have hother : first.name ≠ key.stage := fun hname =>
        hfirst (hname ▸ hkey ▸ List.mem_map_of_mem (List.mem_of_getElem? h.getElem?))
      rw [runStages_cons_ok ho]
      exact ih (s := s.leave options first o) hnames h
        (RunState.applyAll_counters (fun c counter m hc => hc.add hother counter m) hs)

end CheckedFlow
