import CheckedFlow.Proofs.Check.Firing
import CheckedFlow.Proofs.Counter.Cells
import CheckedFlow.Proofs.Run.Interleaving
import Mathlib.Data.List.Nodup

/-!
# Every firing is accounted for once

The firings of a check are shared out to workers that run at the same time: the steps of different
firings mix in any order, and the checker may find something else at every firing. Still every
firing counts once, as what it found, and the check ends in the state of a firing that no other
followed.

* `firingSteps`, `workerSteps`, `CheckHandle.team`: the steps of a firing, of a worker with its
  share of the firings, and all workers of a check with the state of the run.
* `CheckHandle.outcome`: what the stage of the check returns.
* `CheckHandle.Accounted`: what is counted and entered in a run of the workers.
* `CheckHandle.accounted`: it holds of every run of the workers to the end, in any order.
* `Stage.Fires.isRun`: what evaluating the stage does is one of these runs.
-/

namespace CheckedFlow

/-! ## The steps of firings -/

/-- A step of a firing. -/
inductive FiringStep where
  /-- What others can observe. -/
  | effect (e : Effect)
  /-- The checker is done and found `i`. -/
  | check (i : Inspection)

namespace FiringStep

/-- The step adds to a counter. -/
def counts : FiringStep → Bool
  | effect (.count ..) => true
  | _ => false

/-- The step moves the check to a state. -/
def enters : FiringStep → Bool
  | effect (.enter _) => true
  | _ => false

end FiringStep

/-- The state of a run after a step of a firing of the stage `stage`. -/
def RunState.perform (stage : String) (s : RunState) (a : Nat × FiringStep) : RunState :=
  match a.2 with
  | .effect e => s.apply stage e
  | .check _ => s

/-- The steps of the firing `j` if its checker finds `i`: it enters `running` before the checker
looks, and does the rest of its effects afterwards. -/
def firingSteps (policy : FailurePolicy) (stage : String) (j : Nat) (i : Inspection) :
    List (Nat × FiringStep) :=
  let effects := (fire policy stage i).effects.map FiringStep.effect
  (effects.take 1 ++ .check i :: effects.drop 1).map (j, ·)

/-- The steps of a worker with some firings: the next one begins when the one before ended well. -/
def workerSteps (policy : FailurePolicy) (stage : String) (found : Nat → Inspection) :
    List Nat → List (Nat × FiringStep)
  | [] => []
  | j :: firings =>
    firingSteps policy stage j (found j) ++
      match (fire policy stage (found j)).ending with
      | .done => workerSteps policy stage found firings
      | _ => []

namespace CheckHandle

/-- The number of workers of the check's stage. -/
def workers (h : CheckHandle) : Nat := max h.pipeline.options.parallelism.toNat 1

/-- The firings of the check, by their numbers. -/
def firings (h : CheckHandle) : List Nat := List.range h.pipeline.options.firings

/-- The workers of the check, each with its share of the firings, and the state `s` of the run; the
firing `j` finds `found j`. -/
def team (h : CheckHandle) (found : Nat → Inspection) (s : RunState) :
    Team RunState (Nat × FiringStep) :=
  ⟨(chunksOf (chunkSize h.firings.length h.workers) h.firings).map
    (workerSteps h.policy h.stage found), s⟩

/-- What the stage of the check returns if the firing `j` finds `found j`. -/
def outcome (h : CheckHandle) (found : Nat → Inspection) : Except Stop Output :=
  (processInChunks h.workers (fun x => fire h.policy h.stage (found x.value))
    (h.firings.map Windowed.unstamped)).output (k := .unit) h.stage

/-- The successes of the stage of the check. -/
def successKey (h : CheckHandle) : CounterKey := ⟨successCounter, h.stage⟩

/-- The failures of the stage of the check. -/
def failureKey (h : CheckHandle) : CounterKey := ⟨failureCounter, h.stage⟩

/-- The counter that a firing of the check adds to if it finds `i`. -/
def key (h : CheckHandle) (i : Inspection) : CounterKey := ⟨i.counter, h.stage⟩

/-- What a run of the workers from `s` to `s'` with the steps `trace` did, if the firing `j` found
`found j`. -/
structure Accounted (h : CheckHandle) (found : Nat → Inspection) (s : RunState)
    (trace : List (Nat × FiringStep)) (s' : RunState) : Prop where
  /-- The firings that were processed: one in bounded mode, as many as asked in unbounded mode. -/
  processed : ∀ j, (∃ a, (j, a) ∈ trace) ↔ j < h.pipeline.options.firings
  /-- A firing takes its steps once and in their order. -/
  steps : ∀ j < h.pipeline.options.firings,
    trace.filter (fun a => a.1 = j) = firingSteps h.policy h.stage j (found j)
  /-- Of these, exactly one counts, by one: a success if the checker passed, else a failure. -/
  counted : ∀ j < h.pipeline.options.firings,
    (trace.filter fun a => a.1 = j).filter (fun a => a.2.counts) =
      [(j, .effect (.count (if (found j).passes then successCounter else failureCounter) 1))]
  /-- As many successes are counted as there are firings that passed. -/
  successes : s'.counters.count h.successKey = s.counters.count h.successKey +
    UInt64.ofNat (h.firings.countP fun j => (found j).passes)
  /-- As many failures are counted as there are other firings. -/
  failures : s'.counters.count h.failureKey = s.counters.count h.failureKey +
    UInt64.ofNat (h.firings.countP fun j => ! (found j).passes)
  /-- The check is in the state of a firing that was resolved and that no transition followed. -/
  last : ∃ j < h.pipeline.options.firings, ∃ before after,
    trace = before ++ (j, .effect (.enter (.resolved (found j).passes))) :: after ∧
    (∀ a ∈ after, a.2.enters = false) ∧ h.state s'.graph = .resolved (found j).passes
  /-- If all firings agree, this is what they agree on. -/
  agreed : ∀ b, (∀ j < h.pipeline.options.firings, (found j).passes = b) →
    h.state s'.graph = .resolved b

end CheckHandle

/-! ## One firing, one worker -/

theorem firingSteps_eq (policy : FailurePolicy) (stage : String) (j : Nat) (i : Inspection) :
    firingSteps policy stage j i =
      (j, .effect (.enter .running)) :: (j, .check i) ::
        (i.notes.map fun n => (j, FiringStep.effect (.note n.1 n.2))) ++
        [(j, .effect (.count i.counter 1)), (j, .effect (.enter (.resolved i.passes)))] := by
  simp [firingSteps, fire_effects]

/-- The last step of a firing resolves it. -/
theorem firingSteps_last (policy : FailurePolicy) (stage : String) (j : Nat) (i : Inspection) :
    ∃ first, firingSteps policy stage j i =
      first ++ [(j, .effect (.enter (.resolved i.passes)))] := by
  rw [firingSteps_eq]
  exact ⟨_, (List.append_assoc _ [_] [_]).symm⟩

theorem firingSteps_tag {policy : FailurePolicy} {stage : String} {j : Nat} {i : Inspection}
    {a : Nat × FiringStep} (h : a ∈ firingSteps policy stage j i) : a.1 = j := by
  obtain ⟨b, -, rfl⟩ := List.mem_map.mp h
  rfl

/-- The effects of a firing's steps are what the firing does. -/
theorem firingSteps_perform (policy : FailurePolicy) (stage : String) (j : Nat) (i : Inspection)
    (s : RunState) :
    (firingSteps policy stage j i).foldl (RunState.perform stage) s =
      s.applyAll stage (fire policy stage i).effects := by
  rw [firingSteps_eq, fire_effects, RunState.applyAll]
  simp only [List.cons_append, List.foldl_cons, List.foldl_append, List.foldl_map]
  rfl

section Worker

variable {policy : FailurePolicy} {stage : String} {found : Nat → Inspection} {js : List Nat}

/-- A worker takes steps of its own firings only. -/
theorem workerSteps_tag {a : Nat × FiringStep} (h : a ∈ workerSteps policy stage found js) :
    a.1 ∈ js := by
  induction js with
  | nil => cases h
  | cons j js ih =>
    rcases List.mem_append.mp h with h | h
    · rw [firingSteps_tag h]
      exact List.mem_cons_self
    · split at h
      · exact List.mem_cons_of_mem j (ih h)
      · cases h

/-- A worker whose firings all end well takes all their steps. -/
theorem workerSteps_done (h : ∀ j ∈ js, (fire policy stage (found j)).ending = .done) :
    workerSteps policy stage found js =
      js.flatMap fun j => firingSteps policy stage j (found j) := by
  induction js with
  | nil => rfl
  | cons j js ih =>
    have hjs := ih fun m hm => h m (List.mem_cons_of_mem j hm)
    simp only [workerSteps, h j List.mem_cons_self, hjs, List.flatMap_cons]

/-- The effects of a worker's steps are what the worker does with its chunk. -/
theorem workerSteps_perform (s : RunState) :
    (workerSteps policy stage found js).foldl (RunState.perform stage) s =
      s.applyAll stage (runChunk (fun x => fire policy stage (found x.value))
        (js.map Windowed.unstamped)).effects := by
  induction js generalizing s with
  | nil => rfl
  | cons j js ih =>
    rw [workerSteps, List.foldl_append, firingSteps_perform, List.map_cons, runChunk]
    simp only [Windowed.unstamped]
    cases (fire policy stage (found j)).ending with
    | done =>
      simp only [ih]
      rw [RunState.applyAll, RunState.applyAll, RunState.applyAll, List.foldl_append]
    | failed e => rfl
    | panicked => rfl

end Worker

/-! ## All workers -/

section Team

variable {h : CheckHandle} {found : Nat → Inspection} {s : RunState}

/-- No two workers share a firing. -/
theorem team_apart (h : CheckHandle) (found : Nat → Inspection) (s : RunState) :
    Team.Apart Prod.fst (h.team found s).left := by
  have hflat := flatten_chunksOf (chunkSize h.firings.length h.workers) h.firings
  have hnodup := List.nodup_range (n := h.pipeline.options.firings)
  change h.firings.Nodup at hnodup
  rw [← hflat, List.nodup_flatten] at hnodup
  refine List.pairwise_map.mpr (hnodup.2.imp fun hdisjoint a ha b hb hab => ?_)
  exact hdisjoint (workerSteps_tag ha) (hab ▸ workerSteps_tag hb)

/-- The workers have the steps of all firings: a failure ends a worker in bounded mode only, and
there is only one firing then. -/
theorem team_steps (hpolicy : h.policy = .ofRunMode h.pipeline.options.runMode) :
    (h.team found s).left.flatten =
      h.firings.flatMap fun j => firingSteps h.policy h.stage j (found j) := by
  cases hmode : h.pipeline.options.runMode with
  | bounded =>
    have hone : h.firings = [0] := by simp [CheckHandle.firings, PipelineOptions.firings, hmode]
    simp only [CheckHandle.team, hone, chunksOf, List.take_nil, List.drop_nil, List.map_cons,
      List.map_nil, List.flatten_cons, List.flatten_nil, List.append_nil, workerSteps,
      List.flatMap_cons, List.flatMap_nil]
    cases (fire h.policy h.stage (found 0)).ending <;> simp
  | unbounded =>
    have hdone : workerSteps h.policy h.stage found = fun js =>
        (id js).flatMap fun j => firingSteps h.policy h.stage j (found j) := by
      funext js
      exact workerSteps_done fun j _ => by rw [hpolicy, hmode]; exact fire_countOnly ..
    rw [CheckHandle.team, hdone, ← List.flatMap_def, ← List.flatMap_assoc, List.flatMap_id,
      flatten_chunksOf]

/-! ## What is counted -/

namespace FiringStep

/-- The step adds to the count of `key`. -/
def addsTo (stage : String) (key : CounterKey) : FiringStep → Bool
  | effect (.count counter _) => (CounterKey.mk counter stage).digest = key.digest
  | _ => false

end FiringStep

/-- A step that counts adds one. -/
def OneByOne (trace : List (Nat × FiringStep)) : Prop :=
  ∀ a ∈ trace, ∀ counter amount, a.2 = .effect (.count counter amount) → amount = 1

/-- Steps that count one by one add up to their number. -/
theorem foldl_count {stage : String} {trace : List (Nat × FiringStep)} (h : OneByOne trace)
    (key : CounterKey) (s : RunState) :
    (trace.foldl (RunState.perform stage) s).counters.count key =
      s.counters.count key + UInt64.ofNat (trace.countP fun a => a.2.addsTo stage key) := by
  induction trace generalizing s with
  | nil => simp
  | cons a trace ih =>
    rw [List.foldl_cons, ih (fun b hb => h b (List.mem_cons_of_mem a hb)), List.countP_cons]
    obtain ⟨j, step⟩ := a
    cases step with
    | check i => simp [RunState.perform, FiringStep.addsTo]
    | effect e =>
      cases e with
      | enter state => simp [RunState.perform, RunState.apply, FiringStep.addsTo]
      | note label value => simp [RunState.perform, RunState.apply, FiringStep.addsTo]
      | count counter amount =>
        obtain rfl := h _ List.mem_cons_self counter amount rfl
        simp only [RunState.perform, RunState.apply, Counters.count_add, FiringStep.addsTo]
        by_cases hd : (CounterKey.mk counter stage).digest = key.digest
        · simp only [hd, if_true, decide_true, UInt64.ofNat_add, UInt64.add_assoc]
          congr 1
          exact UInt64.add_comm ..
        · simp [hd, Ne.symm hd]

/-- A firing adds once to the counter of what it found, and to those in the same cell. -/
theorem countP_firingSteps (policy : FailurePolicy) (stage : String) (j : Nat) (i : Inspection)
    (key : CounterKey) :
    (firingSteps policy stage j i).countP (fun a => a.2.addsTo stage key) =
      if (CounterKey.mk i.counter stage).digest = key.digest then 1 else 0 := by
  rw [firingSteps_eq]
  simp [List.countP_cons, List.countP_append, FiringStep.addsTo]

theorem countP_flatMap_of {α β : Type} {f : α → List β} {p : β → Bool} {q : α → Bool}
    (h : ∀ x, (f x).countP p = if q x then 1 else 0) (xs : List α) :
    (xs.flatMap f).countP p = xs.countP q := by
  induction xs with
  | nil => rfl
  | cons x xs ih =>
    rw [List.flatMap_cons, List.countP_append, h, ih, List.countP_cons, Nat.add_comm]

/-- The one step of a firing that counts. -/
theorem filter_counts (policy : FailurePolicy) (stage : String) (j : Nat) (i : Inspection) :
    (firingSteps policy stage j i).filter (fun a => a.2.counts) =
      [(j, .effect (.count i.counter 1))] := by
  have hnotes : (i.notes.map fun n => (j, FiringStep.effect (.note n.1 n.2))).filter
      (fun a => a.2.counts) = [] := by
    refine List.filter_eq_nil_iff.mpr fun a ha => ?_
    obtain ⟨n, -, rfl⟩ := List.mem_map.mp ha
    simp [FiringStep.counts]
  rw [firingSteps_eq, List.filter_append, List.filter_cons_of_neg (by simp [FiringStep.counts]),
    List.filter_cons_of_neg (by simp [FiringStep.counts]), hnotes]
  simp [FiringStep.counts]

theorem count_mem_firingSteps {policy : FailurePolicy} {stage counter : String} {m j : Nat}
    {i : Inspection} {amount : UInt64} :
    (m, FiringStep.effect (.count counter amount)) ∈ firingSteps policy stage j i ↔
      m = j ∧ counter = i.counter ∧ amount = 1 := by
  have hmem : (m, FiringStep.effect (.count counter amount)) ∈
      (firingSteps policy stage j i).filter (fun a => a.2.counts) ↔ _ := List.mem_filter
  rw [filter_counts] at hmem
  simpa [FiringStep.counts] using hmem.symm

theorem oneByOne_firings (policy : FailurePolicy) (stage : String) (found : Nat → Inspection)
    (js : List Nat) : OneByOne (js.flatMap fun j => firingSteps policy stage j (found j)) := by
  rintro ⟨m, step⟩ ha counter amount rfl
  obtain ⟨j, -, ha⟩ := List.mem_flatMap.mp ha
  exact (count_mem_firingSteps.mp ha).2.2

/-- Steps ask for the counters that they count in. -/
theorem foldl_keys {stage : String} {trace : List (Nat × FiringStep)} {key : CounterKey}
    {s : RunState} :
    key ∈ (trace.foldl (RunState.perform stage) s).counters.keys ↔
      key ∈ s.counters.keys ∨ key.stage = stage ∧
        ∃ j amount, (j, FiringStep.effect (.count key.counter amount)) ∈ trace := by
  induction trace generalizing s with
  | nil => simp
  | cons a trace ih =>
    obtain ⟨m, step⟩ := a
    have hstep : key ∈ (s.perform stage (m, step)).counters.keys ↔
        key ∈ s.counters.keys ∨ key.stage = stage ∧
          ∃ amount, step = .effect (.count key.counter amount) := by
      cases step with
      | check i => simp [RunState.perform]
      | effect e =>
        cases e with
        | enter state => simp [RunState.perform, RunState.apply]
        | note label value => simp [RunState.perform, RunState.apply]
        | count counter amount =>
          refine Counters.mem_keys_add.trans (or_comm.trans (or_congr Iff.rfl ⟨?_, ?_⟩))
          · rintro rfl
            exact ⟨rfl, amount, rfl⟩
          · rintro ⟨rfl, amount', he⟩
            cases he
            rfl
    rw [List.foldl_cons, ih, hstep]
    simp only [List.mem_cons, Prod.mk.injEq]
    grind

/-! ## Where the check ends -/

/-- Steps that enter no state leave the check where it is. -/
theorem foldl_check {stage : String} {trace : List (Nat × FiringStep)}
    (h : ∀ a ∈ trace, a.2.enters = false) (s : RunState) :
    (trace.foldl (RunState.perform stage) s).graph.check stage = s.graph.check stage := by
  induction trace generalizing s with
  | nil => rfl
  | cons a trace ih =>
    rw [List.foldl_cons, ih fun b hb => h b (List.mem_cons_of_mem a hb)]
    have ha := h a List.mem_cons_self
    obtain ⟨j, step⟩ := a
    cases step with
    | check i => rfl
    | effect e =>
      cases e with
      | enter state => cases ha
      | count counter amount => rfl
      | note label value => rfl

/-- Of the elements with a property the last one. -/
theorem exists_last {α : Type} {p : α → Bool} {xs : List α} (h : ∃ x ∈ xs, p x = true) :
    ∃ before x after, xs = before ++ x :: after ∧ p x = true ∧ ∀ y ∈ after, p y = false := by
  obtain ⟨x, hx, hp⟩ := h
  have hsome : (xs.reverse.find? p).isSome := by
    rw [List.find?_isSome]
    exact ⟨x, List.mem_reverse.mpr hx, hp⟩
  obtain ⟨y, hy⟩ := Option.isSome_iff_exists.mp hsome
  obtain ⟨hpy, as, bs, hxs, has⟩ := List.find?_eq_some_iff_append.mp hy
  refine ⟨bs.reverse, y, as.reverse, ?_, hpy, fun z hz => ?_⟩
  · rw [← List.reverse_reverse xs, hxs]
    simp
  · simpa using has z (List.mem_reverse.mp hz)

/-- The last transition in a run is the one that resolves a firing: after `running` the same firing
has another transition to make. -/
theorem last_transition {policy : FailurePolicy} {stage : String} {found : Nat → Inspection}
    {trace : List (Nat × FiringStep)} {n : Nat} (hpos : 0 < n)
    (htags : ∀ a ∈ trace, a.1 < n)
    (hsteps : ∀ j < n, trace.filter (fun a => a.1 = j) = firingSteps policy stage j (found j)) :
    ∃ j < n, ∃ before after,
      trace = before ++ (j, .effect (.enter (.resolved (found j).passes))) :: after ∧
      ∀ a ∈ after, a.2.enters = false := by
  have hsome : ∃ a ∈ trace, a.2.enters = true := by
    have hmem : (0, FiringStep.effect (.enter .running)) ∈ trace.filter fun a => a.1 = 0 := by
      rw [hsteps 0 hpos, firingSteps_eq]
      exact List.mem_cons_self
    exact ⟨_, List.mem_of_mem_filter hmem, rfl⟩
  obtain ⟨before, a, after, rfl, ha, hafter⟩ := exists_last hsome
  have hj : a.1 < n := htags a (List.mem_append_right _ List.mem_cons_self)
  obtain ⟨first, hfirst⟩ := firingSteps_last policy stage a.1 (found a.1)
  have hproj := hsteps a.1 hj
  rw [List.filter_append, List.filter_cons_of_pos (by simp), hfirst] at hproj
  rcases List.eq_nil_or_concat' (after.filter fun b => b.1 = a.1) with hnil | ⟨l, b, hb⟩
  · rw [hnil] at hproj
    obtain ⟨-, hlast⟩ := List.append_singleton_inj.mp hproj
    exact ⟨a.1, hj, before, after, by rw [← hlast], hafter⟩
  · -- the firing is resolved after `a`, which was the last transition
    rw [hb, ← List.cons_append, ← List.append_assoc] at hproj
    obtain ⟨-, rfl⟩ := List.append_singleton_inj.mp hproj
    have hmem := List.mem_of_mem_filter (hb ▸ List.mem_append_right l (List.mem_singleton_self _))
    exact absurd (hafter _ hmem) (by simp [FiringStep.enters])

/-! ## The account -/

/-- Valid options let a check fire at least once. -/
theorem PipelineOptions.firings_pos {options : PipelineOptions}
    (h : options.validate = .ok ()) : 0 < options.firings := by
  unfold firings
  cases hmode : options.runMode with
  | bounded => exact Nat.one_pos
  | unbounded =>
    simp only [validate, hmode, RunMode.isStreaming, true_and] at h
    split at h
    · cases h
    split at h
    · cases h
    split at h
    · cases h
    · rename_i hne
      exact Nat.pos_of_ne_zero fun hz => hne (UInt32.toNat_inj.mp hz)

/-- The steps with the tag `j` are those of the firing `j`. -/
theorem filter_firings {policy : FailurePolicy} {stage : String} {js : List Nat}
    (hnodup : js.Nodup) {j : Nat} (hj : j ∈ js) :
    (js.flatMap fun m => firingSteps policy stage m (found m)).filter (fun a => a.1 = j) =
      firingSteps policy stage j (found j) := by
  induction js with
  | nil => cases hj
  | cons m js ih =>
    obtain ⟨hm, hnodup⟩ := List.nodup_cons.mp hnodup
    rw [List.flatMap_cons, List.filter_append]
    by_cases hmj : m = j
    · subst hmj
      have hown : (firingSteps policy stage m (found m)).filter (fun a => a.1 = m) =
          firingSteps policy stage m (found m) :=
        List.filter_eq_self.mpr fun a ha => decide_eq_true (firingSteps_tag ha)
      have hrest : (js.flatMap fun m => firingSteps policy stage m (found m)).filter
          (fun a => a.1 = m) = [] := by
        refine List.filter_eq_nil_iff.mpr fun a ha htag => ?_
        obtain ⟨m', hm', ha⟩ := List.mem_flatMap.mp ha
        exact hm (of_decide_eq_true htag ▸ firingSteps_tag ha ▸ hm')
      rw [hown, hrest, List.append_nil]
    · have hother : (firingSteps policy stage m (found m)).filter (fun a => a.1 = j) = [] :=
        List.filter_eq_nil_iff.mpr fun a ha htag =>
          hmj ((firingSteps_tag ha).symm.trans (of_decide_eq_true htag))
      rw [hother, ih hnodup ((List.mem_cons.mp hj).resolve_left (Ne.symm hmj)), List.nil_append]

/-- A firing that passed adds to the successes and to no failure. -/
theorem counter_digest_iff (stage : String) (i : Inspection) :
    ((CounterKey.mk i.counter stage).digest = (CounterKey.mk successCounter stage).digest ↔
      i.passes = true) ∧
    ((CounterKey.mk i.counter stage).digest = (CounterKey.mk failureCounter stage).digest ↔
      i.passes = false) := by
  have hne := success_digest_ne_failure stage
  unfold Inspection.counter
  cases i.passes
  · simp [hne.symm]
  · simp [hne]

variable {trace : List (Nat × FiringStep)} {t : Team RunState (Nat × FiringStep)}

/-- A run to the end takes the steps of all firings, in some order. -/
theorem CheckHandle.run_perm (hpolicy : h.policy = .ofRunMode h.pipeline.options.runMode)
    (hrun : Team.Run (RunState.perform h.stage) (h.team found s) trace t) (hend : t.Finished) :
    trace.Perm (h.firings.flatMap fun j => firingSteps h.policy h.stage j (found j)) := by
  rw [← team_steps hpolicy (s := s)]
  exact hrun.perm hend

/-- Every count grows by the number of firings that add to its cell. -/
theorem CheckHandle.run_count (hpolicy : h.policy = .ofRunMode h.pipeline.options.runMode)
    (hrun : Team.Run (RunState.perform h.stage) (h.team found s) trace t) (hend : t.Finished)
    {key : CounterKey} {q : Inspection → Bool}
    (hq : ∀ i, (h.key i).digest = key.digest ↔ q i = true) :
    t.state.counters.count key =
      s.counters.count key + UInt64.ofNat (h.firings.countP fun j => q (found j)) := by
  have hperm := run_perm hpolicy hrun hend
  have hone : OneByOne trace := fun a ha => oneByOne_firings _ _ _ _ a (hperm.mem_iff.mp ha)
  rw [hrun.state, foldl_count hone, hperm.countP_eq, countP_flatMap_of fun j => ?_]
  · rfl
  · rw [countP_firingSteps]
    exact if_congr (hq (found j)) rfl rfl

/-- The firings ask for the counters of what they found. -/
theorem CheckHandle.run_keys (hpolicy : h.policy = .ofRunMode h.pipeline.options.runMode)
    (hrun : Team.Run (RunState.perform h.stage) (h.team found s) trace t) (hend : t.Finished)
    {key : CounterKey} :
    key ∈ t.state.counters.keys ↔
      key ∈ s.counters.keys ∨ ∃ j ∈ h.firings, key = h.key (found j) := by
  rw [hrun.state, foldl_keys]
  refine or_congr Iff.rfl ⟨?_, ?_⟩
  · rintro ⟨hstage, m, amount, hmem⟩
    obtain ⟨j, hj, ha⟩ := List.mem_flatMap.mp ((run_perm hpolicy hrun hend).mem_iff.mp hmem)
    obtain ⟨-, hcounter, -⟩ := count_mem_firingSteps.mp ha
    exact ⟨j, hj, by rw [CheckHandle.key, ← hcounter, ← hstage]⟩
  · rintro ⟨j, hj, rfl⟩
    refine ⟨rfl, j, 1, (run_perm hpolicy hrun hend).mem_iff.mpr ?_⟩
    exact List.mem_flatMap.mpr ⟨j, hj, count_mem_firingSteps.mpr ⟨rfl, rfl, rfl⟩⟩

theorem CheckHandle.accounted_of_run (hpolicy : h.policy = .ofRunMode h.pipeline.options.runMode)
    (hpos : 0 < h.pipeline.options.firings)
    (hrun : Team.Run (RunState.perform h.stage) (h.team found s) trace t) (hend : t.Finished) :
    h.Accounted found s trace t.state := by
  have hperm := run_perm hpolicy hrun hend
  have hsteps : ∀ j < h.pipeline.options.firings,
      trace.filter (fun a => a.1 = j) = firingSteps h.policy h.stage j (found j) := by
    intro j hj
    rw [hrun.filter hend (team_apart h found s) j, team_steps hpolicy]
    exact filter_firings List.nodup_range (List.mem_range.mpr hj)
  have htags : ∀ a ∈ trace, a.1 < h.pipeline.options.firings := by
    intro a ha
    obtain ⟨j, hj, ha⟩ := List.mem_flatMap.mp (hperm.mem_iff.mp ha)
    rw [firingSteps_tag ha]
    exact List.mem_range.mp hj
  obtain ⟨j, hj, before, after, htrace, hafter⟩ := last_transition hpos htags hsteps
  have hstate : h.state t.state.graph = .resolved (found j).passes := by
    rw [hrun.state, htrace, List.foldl_append, List.foldl_cons, CheckHandle.state,
      foldl_check hafter]
    exact Graph.check_setCheck ..
  refine ⟨fun m => ⟨?_, fun hm => ?_⟩, hsteps, fun m hm => ?_,
    run_count hpolicy hrun hend fun i => (counter_digest_iff h.stage i).1,
    run_count hpolicy hrun hend (q := fun i => ! i.passes) fun i => ?_,
    ⟨j, hj, before, after, htrace, hafter, hstate⟩, fun b hb => ?_⟩
  · rintro ⟨a, ha⟩
    exact htags _ ha
  · obtain ⟨first, hfirst⟩ := firingSteps_last h.policy h.stage m (found m)
    have hmem := hsteps m hm ▸ hfirst ▸ List.mem_append_right first (List.mem_singleton_self _)
    exact ⟨_, List.mem_of_mem_filter hmem⟩
  · rw [hsteps m hm]
    exact filter_counts ..
  · exact (counter_digest_iff h.stage i).2.trans (by simp)
  · rw [hstate, hb j hj]

/-- The one firing of a bounded run decides what the stage returns. -/
theorem CheckHandle.outcome_bounded (hpolicy : h.policy = .ofRunMode h.pipeline.options.runMode)
    (hmode : h.pipeline.options.runMode = .bounded) :
    h.outcome found =
      match (found 0).verdict.failure? with
      | none => .ok (.elements .unit [])
      | some failure => .error (.failed (.stageFailed h.stage (.check failure))) := by
  have hone : h.firings.map Windowed.unstamped = [.unstamped 0] := by
    simp [firings, PipelineOptions.firings, hmode]
  rw [outcome, hone, processInChunks_single, hpolicy, hmode]
  exact fire_output h.stage (found 0)

/-- The stage of a check never fails in an unbounded run. -/
theorem CheckHandle.outcome_unbounded (hpolicy : h.policy = .ofRunMode h.pipeline.options.runMode)
    (hmode : h.pipeline.options.runMode = .unbounded) :
    h.outcome found = .ok (.elements .unit []) := by
  rw [outcome, hpolicy, hmode]
  have hdone : ∀ x ∈ h.firings.map Windowed.unstamped,
      (fire (.ofRunMode .unbounded) h.stage (found x.value)).ending = .done :=
    fun x _ => fire_countOnly ..
  have hnone : ((h.firings.map Windowed.unstamped).flatMap fun x =>
      (fire (.ofRunMode .unbounded) h.stage (found x.value)).emitted) = [] :=
    List.flatMap_eq_nil_iff.mpr fun x _ => fire_emitted ..
  rw [processInChunks_done hdone, Processed.output, hnone]

/-- Whatever the firings of a check find, and in whatever order the workers take their steps: every
firing counts once, and the check ends as the firing that made the last transition. -/
theorem CheckHandle.accounted {p : Pipeline} {name : String} {body : CheckBody}
    {declared : List SideInput} {g g' : Graph} (hvalid : p.options.validate = .ok ())
    (hb : Builder.exec (attachCheck p name body declared) g = (.ok h, g'))
    (found : Nat → Inspection) (s : RunState)
    (hrun : Team.Run (RunState.perform h.stage) (h.team found s) trace t) (hend : t.Finished) :
    h.Accounted found s trace t.state ∧
    (p.options.runMode = .bounded → p.options.firings = 1 ∧ h.outcome found =
      match (found 0).verdict.failure? with
      | none => .ok (.elements .unit [])
      | some failure => .error (.failed (.stageFailed h.stage (.check failure)))) ∧
    (p.options.runMode = .unbounded → p.options.firings = p.options.triggerFirings.toNat ∧
      h.outcome found = .ok (.elements .unit [])) := by
  obtain ⟨rfl, -, -⟩ := attachCheck_ok hb
  exact ⟨accounted_of_run rfl (PipelineOptions.firings_pos hvalid) hrun hend,
    fun hmode => ⟨by rw [PipelineOptions.firings, hmode], outcome_bounded rfl hmode⟩,
    fun hmode => ⟨by rw [PipelineOptions.firings, hmode], outcome_unbounded rfl hmode⟩⟩

/-- Two firings that overlap: the second one begins and panics before the first one passes. -/
theorem accounted_overlapping :
    let found : Nat → Inspection := fun j => if j = 0 then ⟨.passed, []⟩ else ⟨.panicked none, []⟩
    ∃ h g' trace t,
      Builder.exec (attachCheck (twice .unbounded) "Check" (fun _ => ⟨.passed, []⟩) []) {} =
        (.ok h, g') ∧
      Team.Run (RunState.perform h.stage) (h.team found { graph := g' }) trace t ∧
      t.state.counters.count h.successKey = 1 ∧ t.state.counters.count h.failureKey = 1 ∧
      h.Accounted found { graph := g' } trace t.state := by
  intro found
  let h : CheckHandle := ⟨twice .unbounded, "Check", "Check/RunChecks", .countOnly⟩
  let s : RunState :=
    { graph := (Builder.exec (attachCheck (twice .unbounded) "Check" (fun _ => ⟨.passed, []⟩) [])
        {}).2 }
  have hteam : h.team found s = ⟨[firingSteps h.policy h.stage 0 (found 0),
      firingSteps h.policy h.stage 1 (found 1)], s⟩ := by
    have hchunks : chunksOf (chunkSize h.firings.length h.workers) h.firings = [[0], [1]] := by
      have hfirings : h.firings = [0, 1] := rfl
      have hsize : chunkSize 2 h.workers = 1 := by decide
      simp [hfirings, hsize, chunksOf]
    rw [CheckHandle.team, hchunks]
    rfl
  have hrun : ∃ trace t, Team.Run (RunState.perform h.stage) (h.team found s) trace t ∧
      t.Finished := by
    rw [hteam]
    refine ⟨_, _, .step (.work [] [_] _ _ _) (.step (.work [_] [] _ _ _)
      (.step (.work [_] [] _ _ _) (.step (.work [] [_] _ _ _) (.step (.work [_] [] _ _ _)
      (.step (.work [_] [] _ _ _) (.step (.work [] [_] _ _ _) (.step (.work [] [_] _ _ _)
      (.refl _)))))))), ?_⟩
    intro w hw
    rcases List.mem_cons.mp hw with rfl | hw
    · rfl
    · exact List.mem_singleton.mp hw
  obtain ⟨trace, t, hrun, hend⟩ := hrun
  have hbuilt : Builder.exec (attachCheck (twice .unbounded) "Check" (fun _ => ⟨.passed, []⟩) [])
      {} = (.ok h, s.graph) := rfl
  have hacc := (CheckHandle.accounted rfl hbuilt found s hrun hend).1
  exact ⟨h, _, trace, t, rfl, hrun, hacc.successes, hacc.failures, hacc⟩

/-! ## The run that an evaluation makes -/

theorem foldl_workers {stage : String} {policy : FailurePolicy} (chunks : List (List Nat))
    (s : RunState) :
    (chunks.map (workerSteps policy stage found)).flatten.foldl (RunState.perform stage) s =
      s.applyAll stage (((chunks.map (List.map Windowed.unstamped)).map
        (runChunk fun x => fire policy stage (found x.value))).flatMap Processed.effects) := by
  induction chunks generalizing s with
  | nil => rfl
  | cons chunk chunks ih =>
    simp only [List.map_cons, List.flatten_cons, List.foldl_append, List.flatMap_cons,
      workerSteps_perform, ih]
    rw [RunState.applyAll, RunState.applyAll, RunState.applyAll, List.foldl_append]

/-- Evaluating a stage whose firings all find `i` is the run in which one worker works after the
other, and returns what the check returns. -/
theorem Stage.Fires.isRun {stage : Stage} {body : CheckBody} {i : Inspection}
    (hpolicy : h.policy = .ofRunMode h.pipeline.options.runMode)
    (hfit : h.pipeline.options.FitsTasks) (hname : stage.name = h.stage)
    (hfires : stage.Fires h.pipeline.options s.outputs body i) :
    let e := stage.operation.evaluate h.pipeline.options stage.name s.outputs
    ∃ trace t, Team.Run (RunState.perform h.stage) (h.team (fun _ => i) s) trace t ∧
      t.Finished ∧ t.state = s.applyAll stage.name e.effects ∧
      e.result = h.outcome fun _ => i := by
  intro e
  have hunits : List.replicate h.pipeline.options.firings (Windowed.unstamped ()) =
      (h.firings.map Windowed.unstamped).map fun _ => Windowed.unstamped () := by
    rw [List.map_map]
    exact (List.eq_replicate_iff.mpr ⟨by simp [CheckHandle.firings], by simp⟩).symm
  have he : e = ⟨(processInChunks h.workers (fun x => fire h.policy h.stage ((fun _ => i) x.value))
      (h.firings.map Windowed.unstamped)).effects, h.outcome fun _ => i⟩ := by
    refine hfires.evaluates.trans ?_
    rw [evaluateParDo_fits hfit, hunits, processInChunks_map, hname, CheckHandle.outcome, hpolicy]
    rfl
  obtain ⟨t, hrun, hend⟩ := @Team.Run.sequential _ _ (RunState.perform h.stage)
    (h.team (fun _ => i) s).left s
  refine ⟨_, t, hrun, hend, ?_, by rw [he]⟩
  rw [hrun.state, he, hname, processInChunks, joinChunks_effects, List.length_map, chunksOf_map]
  exact foldl_workers ..

end Team

end CheckedFlow
