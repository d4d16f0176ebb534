import CheckedFlow.Proofs.Build.Calls
import CheckedFlow.Proofs.Build.Reach
import Mathlib.Logic.Function.Basic

/-!
# Builder calls that take turns

A site is a pipeline that several threads build at once. A call may begin at any time, and the steps
of the calls that have begun interleave in any order; a source of a caller's own makes its calls
within the program of the assertion that it is a source of. Beside the graph, a site records what
nothing in the graph shows: when each stage was registered and by which call, what the call knew
then, and which handles have got out of their calls.

* `Site`, `Site.Step`: the site and its steps; `Site.Run`: any number of them.
* `Site.Denotes`: a handle denotes the very stage that it was made for.
* `Site.Considerate`: steps that do not interfere with the assertions of other calls.
* `Worked`: what the step of a call can be; `Scope.Follows.worked`.
* `Site.can_work`: whatever step the program of a call can take on the graph, the call can take it.
* `Site.can_begin`, `Site.can_complete`, `Site.can_call`: a call that nobody interrupts leaves what its
  program leaves.
* `Site.Solo`: the steps of a single thread; `Site.Run.considerate`: they are considerate.
-/

namespace CheckedFlow

variable {rule : Rule} {α : Type}

/-! ## The site -/

/-- A registered stage. -/
structure Placed where
  stage : Stage
  node : NodeId
  /-- When it was registered. -/
  time : Nat
  /-- The call that registered it. -/
  owner : Nat
  /-- What the call knew then. -/
  scope : Scope

/-- What a handle to the stage says, and of which registration. -/
def Placed.ref (e : Placed) : Ref := ⟨e.stage.portAt e.node, e.time⟩

/-- The stage that the next step of a program registers, if it is such a step. -/
def Build.stage? : Build α → Option Stage
  | register stage _ => some stage
  | _ => none

/-- A call that has begun, with the rest of its program. -/
structure Call (rule : Rule) where
  rest : Build (Except PipelineError (List Port))
  scope : Scope
  keeps : rest.Keeps rule Scope.Returns scope

/-- A call that has returned, with what it knew in the end. -/
structure Returned where
  id : Nat
  result : Except PipelineError (List Port)
  scope : Scope

/-- A pipeline that is being built. -/
structure Site (rule : Rule) where
  graph : Graph := {}
  /-- The stages of the graph. -/
  placed : List Placed := []
  /-- The number of steps that begin a call or take a step of one. -/
  clock : Nat := 0
  /-- The calls that have begun and not returned. -/
  calls : Nat → Option (Call rule) := fun _ => none
  /-- The stages whose handles are outside of calls. -/
  handed : List Ref := []
  returned : List Returned := []

/-- A step of a site. -/
inductive Action where
  | begin (c : BuilderCall)
  /-- A step of a call's program. -/
  | work (id : Nat)
  /-- An assertion within a call ends well. -/
  | leave (id : Nat)
  | finish (id : Nat)
  /-- A handle gets out of a call that has not returned. -/
  | leak (id : Nat) (r : Ref)
  | run (p : Pipeline)

namespace Site

/-- The stage that a step of the call `id` registers, if it does. -/
def placing (s : Site rule) (id : Nat) (c : Call rule) : List Placed :=
  match c.rest.stage? with
  | some stage =>
    match (s.graph.register stage).1 with
    | .ok n => [⟨stage, n, s.clock, id, c.scope⟩]
    | .error _ => []
  | none => []

/-- The steps of a site. -/
inductive Step : Site rule → Action → Site rule → Prop
  | begin {s : Site rule} {c : BuilderCall}
      (hkeeps : c.run.Keeps rule Scope.Returns (c.start s.handed)) :
      Step s (.begin c) { s with
        clock := s.clock + 1
        calls := Function.update s.calls s.clock (some ⟨c.run, c.start s.handed, hkeeps⟩) }
  | work {s : Site rule} {id : Nat} {c : Call rule}
      {rest : Build (Except PipelineError (List Port))} {g : Graph} {sc : Scope}
      (hc : s.calls id = some c) (hstep : c.rest.step s.graph = some (rest, g))
      (hsc : c.scope.Follows rule s.graph s.clock c.rest sc)
      (hkeeps : rest.Keeps rule Scope.Returns sc) :
      Step s (.work id) { s with
        graph := g
        placed := (s.placed ++ s.placing id c).take g.stages.length
        clock := s.clock + 1
        calls := Function.update s.calls id (some ⟨rest, sc, hkeeps⟩) }
  | leave {s : Site rule} {id : Nat} {c : Call rule} (hc : s.calls id = some c)
      (hkeeps : c.rest.Keeps rule Scope.Returns c.scope.leave) :
      Step s (.leave id) { s with
        calls := Function.update s.calls id (some ⟨c.rest, c.scope.leave, hkeeps⟩) }
  | finish {s : Site rule} {id : Nat} {c : Call rule} {r : Except PipelineError (List Port)}
      (hc : s.calls id = some c) (hr : c.rest = .done r) (hreturns : c.scope.Returns r) :
      Step s (.finish id) { s with
        calls := Function.update s.calls id none
        handed := c.scope.own ++ s.handed
        returned := ⟨id, r, c.scope⟩ :: s.returned }
  | leak {s : Site rule} {id : Nat} {c : Call rule} {r : Ref} (hc : s.calls id = some c)
      (hr : r ∈ c.scope.own) : Step s (.leak id r) { s with handed := r :: s.handed }
  | run {s : Site rule} (p : Pipeline) :
      Step s (.run p) { s with graph := (p.run s.graph).2 }

/-- Any number of steps, all of them allowed. -/
inductive Run (allowed : Site rule → Action → Prop) : Site rule → Site rule → Prop
  | refl (s : Site rule) : Run allowed s s
  | step {s₁ s₂ s₃ : Site rule} {a : Action} (h : Run allowed s₁ s₂) (ha : allowed s₂ a)
      (hs : Step s₂ a s₃) : Run allowed s₁ s₃

/-- The stage at the number of `r` is the very stage that `r` was made for. -/
def Denotes (placed : List Placed) (r : Ref) (e : Placed) : Prop :=
  placed[r.port.node]? = some e ∧ e.ref = r

/-- The handle `r` of the call `id` denotes its stage, which that call registered. -/
def Holds (placed : List Placed) (id : Nat) (checking : Bool) (r : Ref) : Prop :=
  ∃ e, Denotes placed r e ∧ e.owner = id ∧ e.scope.checking = checking

/-- The step does not interfere with an assertion that is being built: no other call registers a
stage under its name, and no handle to such a stage gets out of its own call. -/
def Considerate (s : Site rule) : Action → Prop
  | .work id => ∀ c stage, s.calls id = some c → c.rest.stage? = some stage →
      ∀ j d, j ≠ id → s.calls j = some d → ∀ f ∈ d.scope.frames, ¬ f.Covers stage.name
  | .leak id r => ∀ c e, s.calls id = some c → Denotes s.placed r e →
      ∀ f ∈ c.scope.frames, f.checkpoint ≤ e.node → ¬ f.Covers e.stage.name
  | _ => True

end Site

/-! ## What a step of a program does -/

/-- What the step of a call can be, with the graph and the scope after it. -/
inductive Worked (rule : Rule) (g : Graph) (now : Nat) (sc : Scope) : Build α → Graph → Scope → Prop
  | registered {stage : Stage} {next : Except PipelineError NodeId → Build α}
      (hrule : rule sc stage) (hok : (g.register stage).1 = .ok g.stages.length) :
      Worked rule g now sc (.register stage next) (g.extend [stage])
        (sc.learn ⟨stage.portAt g.stages.length, now⟩)
  | takenBack {b : Build α} {g' : Graph} {f : Frame} {fs : List Frame}
      (hb : b.stage? = none) (hf : sc.frames = f :: fs)
      (hstages : g'.stages = g.stages.take f.checkpoint)
      (hall : ∀ stage ∈ g.stages.drop f.checkpoint, f.Covers stage.name) :
      Worked rule g now sc b g' (sc.back f fs)
  | keptAll {b : Build α} {g' : Graph} {f : Frame} {fs : List Frame}
      (hb : b.stage? = none) (hf : sc.frames = f :: fs)
      (hstages : g'.stages = g.stages) : Worked rule g now sc b g' (sc.back f fs)
  | entered {b : Build α} (hb : b.stage? = none) (name : String) :
      Worked rule g now sc b g (sc.enter name g.stages.length)
  | stayed {b : Build α} {g' : Graph}
      (hb : ∀ stage, b.stage? = some stage → ∃ e, (g.register stage).1 = .error e)
      (hstages : g'.stages = g.stages) : Worked rule g now sc b g' sc

theorem Scope.Follows.worked {g g' : Graph} {now : Nat} {sc sc' : Scope} {b b' : Build α}
    (hsc : sc.Follows rule g now b sc') (hstep : b.step g = some (b', g')) :
    Worked rule g now sc b g' sc' := by
  cases b with
  | done x => cases hstep
  | stageCount next =>
    obtain ⟨name, rfl⟩ := hsc
    cases hstep
    exact .entered rfl name
  | register stage next =>
    obtain ⟨hrule, rfl⟩ := hsc
    simp only [Build.step, Option.some.injEq, Prod.mk.injEq] at hstep
    obtain ⟨-, rfl⟩ := hstep
    rw [Graph.register_eq]
    split
    · rename_i hblank
      exact .stayed (fun _ h => by cases h; exact ⟨_, by rw [Graph.register_eq, if_pos hblank]⟩) rfl
    split
    · rename_i hblank htaken
      exact .stayed (fun _ h => by
        cases h; exact ⟨_, by rw [Graph.register_eq, if_neg hblank, if_pos htaken]⟩) rfl
    · rename_i hblank hfree
      exact .registered hrule (by rw [Graph.register_eq, if_neg hblank, if_neg hfree])
  | discardSince checkpoint under next =>
    obtain ⟨f, fs, hf, rfl, rfl, rfl⟩ := hsc
    simp only [Build.step, Option.some.injEq, Prod.mk.injEq] at hstep
    obtain ⟨-, rfl⟩ := hstep
    simp only [Graph.discardSince]
    split
    · rename_i hall
      exact .takenBack rfl hf rfl fun stage hstage => List.all_eq_true.mp hall stage hstage
    · exact .keptAll rfl hf rfl
  | nextAssertion next =>
    cases hsc
    cases hstep
    exact .stayed (fun _ h => by cases h) rfl
  | setCheck stage state next =>
    cases hsc
    cases hstep
    exact .stayed (fun _ h => by cases h) rfl

/-! ## The steps that a site can take -/

namespace Site

variable {allowed allowed' : Site rule → Action → Prop} {s s' s₁ s₂ s₃ : Site rule} {id : Nat}
  {c : Call rule}

theorem Run.trans (h : Run allowed s₁ s₂) (h' : Run allowed s₂ s₃) : Run allowed s₁ s₃ := by
  induction h' with
  | refl => exact h
  | step _ ha hs ih => exact .step ih ha hs

theorem Run.imp (h : Run allowed s₁ s₂) (himp : ∀ s a, allowed s a → allowed' s a) :
    Run allowed' s₁ s₂ := by
  induction h with
  | refl => exact .refl s₁
  | step _ ha hs ih => exact .step ih (himp _ _ ha) hs

/-- What holds of the call `c` and of all calls but the one that it takes the place of holds of all. -/
theorem forall_update {calls : Nat → Option (Call rule)} {P : Nat → Call rule → Prop} (hc : P id c)
    (hother : ∀ j d, j ≠ id → calls j = some d → P j d) :
    ∀ j d, Function.update calls id (some c) j = some d → P j d := by
  intro j d hj
  by_cases h : j = id
  · subst h
    rw [Function.update_self] at hj
    cases hj
    exact hc
  · rw [Function.update_of_ne h] at hj
    exact hother j d h hj

/-- The actions of the call `id` that has begun. -/
def Own (id : Nat) : Site rule → Action → Prop
  | _, .work j | _, .leave j | _, .finish j => j = id
  | _, _ => False

/-- A call leaves assertions that it has built. -/
theorem leaves (hc : s.calls id = some c) {n : Nat}
    (h : ∀ m ≤ n, c.rest.Keeps rule Scope.Returns (c.scope.leaves m)) :
    Run (Own id) s { s with
      calls := Function.update s.calls id (some ⟨c.rest, c.scope.leaves n, h n (Nat.le_refl n)⟩) } := by
  induction n generalizing s c with
  | zero =>
    have hself : Function.update s.calls id (some ⟨c.rest, c.scope.leaves 0, h 0 (Nat.le_refl 0)⟩) =
        s.calls := Function.update_eq_self_iff.mpr hc.symm
    rw [hself]
    exact .refl s
  | succ n ih =>
    have hleave : Step s (.leave id) _ := .leave hc (h 1 (Nat.le_add_left 1 n))
    have hrun := ih (s := { s with calls := Function.update s.calls id (some ⟨c.rest, c.scope.leave,
      h 1 (Nat.le_add_left 1 n)⟩) }) (Function.update_self ..) fun m hm =>
        h (m + 1) (Nat.succ_le_succ hm)
    have hall := (Run.step (.refl s) (show Own id s (.leave id) from rfl) hleave).trans hrun
    simp only [Function.update_idem] at hall
    exact hall

/-- From `s`, the call `id` took the step of its program that leaves the program `rest` and the graph
`g`. -/
structure Advances (id : Nat) (c : Call rule) (rest : Build (Except PipelineError (List Port)))
    (g : Graph) (s s' : Site rule) (c' : Call rule) : Prop where
  run : Run (Own id) s s'
  rest : c'.rest = rest
  scope : ∃ n, (c.scope.leaves n).Follows rule s.graph s.clock c.rest c'.scope
  graph : s'.graph = g
  clock : s'.clock = s.clock + 1
  calls : s'.calls = Function.update s.calls id (some c')
  handed : s'.handed = s.handed
  returned : s'.returned = s.returned

/-- What a site records beside the graph keeps no call from a step: whatever step its program can
take on the graph, the call can take it. -/
theorem can_work (hc : s.calls id = some c) {rest : Build (Except PipelineError (List Port))}
    {g : Graph} (hstep : c.rest.step s.graph = some (rest, g)) :
    ∃ s' c', Advances id c rest g s s' c' := by
  obtain ⟨n, sc', hleaves, hfollows, hkeeps⟩ := c.keeps.step hstep s.clock
  let left : Call rule := ⟨c.rest, c.scope.leaves n, hleaves n (Nat.le_refl n)⟩
  let s₁ : Site rule := { s with calls := Function.update s.calls id (some left) }
  have hwork : Step s₁ (.work id) _ :=
    .work (s := s₁) (c := left) (Function.update_self ..) hstep hfollows hkeeps
  exact ⟨_, ⟨rest, sc', hkeeps⟩,
    .step (leaves hc hleaves) (show Own id _ (.work id) from rfl) hwork, rfl, ⟨n, hfollows⟩, rfl,
    rfl, Function.update_idem .., rfl, rfl⟩

/-- From `s`, the call `id` with the program `b` came to its end in `s'` without interruption. It
left what its program leaves, and returned its result. -/
structure Completes (id : Nat) (b : Build (Except PipelineError (List Port))) (s s' : Site rule)
    (sc : Scope) : Prop where
  run : Run (Own id) s s'
  graph : s'.graph = (b.run s.graph).2
  returns : sc.Returns (b.run s.graph).1
  calls : s'.calls = Function.update s.calls id none
  handed : s'.handed = sc.own ++ s.handed
  returned : s'.returned = ⟨id, (b.run s.graph).1, sc⟩ :: s.returned

/-- A step of a call that then completes. -/
theorem Completes.first {rest : Build (Except PipelineError (List Port))} {g : Graph}
    (hc : s.calls id = some c) (hstep : c.rest.step s.graph = some (rest, g))
    (hrun : c.rest.run s.graph = rest.run g)
    (hrest : ∀ {s : Site rule} {c : Call rule}, s.calls id = some c → c.rest = rest →
      ∃ s' sc, Completes id c.rest s s' sc) :
    ∃ s' sc, Completes id c.rest s s' sc := by
  obtain ⟨s₁, c₁, h₁⟩ := can_work hc hstep
  obtain ⟨s', sc, h⟩ := hrest (h₁.calls ▸ Function.update_self ..) h₁.rest
  rw [h₁.rest] at h
  have hgraph := h.graph
  have hreturns := h.returns
  have hreturned := h.returned
  rw [h₁.graph, ← hrun] at hgraph hreturns hreturned
  refine ⟨s', sc, h₁.run.trans h.run, hgraph, hreturns, ?_, h₁.handed ▸ h.handed,
    h₁.returned ▸ hreturned⟩
  rw [h.calls, h₁.calls, Function.update_idem]

/-- A call that nobody interrupts can come to its end. -/
theorem can_complete (hc : s.calls id = some c) : ∃ s' sc, Completes id c.rest s s' sc := by
  obtain ⟨b, hb⟩ : ∃ b, c.rest = b := ⟨_, rfl⟩
  induction b generalizing s c with
  | done r =>
    obtain ⟨n, hleaves, hreturns⟩ := c.keeps.end_of_done hb
    let left : Call rule := ⟨c.rest, c.scope.leaves n, hleaves n (Nat.le_refl n)⟩
    let s₁ : Site rule := { s with calls := Function.update s.calls id (some left) }
    have hfinish : Step s₁ (.finish id) _ :=
      .finish (s := s₁) (c := left) (Function.update_self ..) hb hreturns
    rw [hb]
    exact ⟨_, _, .step (leaves hc hleaves) (show Own id _ (.finish id) from rfl) hfinish, rfl,
      hreturns, Function.update_idem .., rfl, rfl⟩
  | stageCount next ih => exact Completes.first hc (by rw [hb]; rfl) (by rw [hb]; rfl) (ih _)
  | register stage next ih => exact Completes.first hc (by rw [hb]; rfl) (by rw [hb]; rfl) (ih _)
  | discardSince checkpoint under next ih =>
    exact Completes.first hc (by rw [hb]; rfl) (by rw [hb]; rfl) (ih _)
  | nextAssertion next ih => exact Completes.first hc (by rw [hb]; rfl) (by rw [hb]; rfl) (ih _)
  | setCheck stage state next ih =>
    exact Completes.first hc (by rw [hb]; rfl) (by rw [hb]; rfl) (ih _)

/-- A call can begin whose program keeps to the rule. -/
theorem can_begin (allowed : Site rule → Action → Prop) {b : BuilderCall}
    (hkeeps : b.run.Keeps rule Scope.Returns (b.start s.handed)) (hallowed : allowed s (.begin b)) :
    ∃ s' c, Run allowed s s' ∧ c.rest = b.run ∧
      s'.calls = Function.update s.calls s.clock (some c) ∧ s'.graph = s.graph ∧
      s'.clock = s.clock + 1 ∧ s'.handed = s.handed ∧ s'.returned = s.returned :=
  ⟨_, _, .step (.refl s) hallowed (.begin hkeeps), rfl, rfl, rfl, rfl, rfl, rfl⟩

/-- The program of a call that begins and is not interrupted leaves what it leaves on its own. -/
theorem can_call (allowed : Site rule → Action → Prop) {b : BuilderCall}
    (hkeeps : b.run.Keeps rule Scope.Returns (b.start s.handed)) (hfree : s.calls s.clock = none)
    (hallowed : allowed s (.begin b)) (hown : ∀ s' a, Own s.clock s' a → allowed s' a) :
    ∃ s' sc, Run allowed s s' ∧ s'.graph = (b.run.run s.graph).2 ∧
      sc.Returns (b.run.run s.graph).1 ∧ s'.calls = s.calls ∧ s'.handed = sc.own ++ s.handed ∧
      s'.returned = ⟨s.clock, (b.run.run s.graph).1, sc⟩ :: s.returned := by
  obtain ⟨s₁, c, hbegin, hrest, hcalls, hgraph, -, hhanded, hreturned⟩ :=
    can_begin allowed hkeeps hallowed
  have hc : s₁.calls s.clock = some c := by rw [hcalls, Function.update_self]
  obtain ⟨s', sc, h⟩ := can_complete hc
  rw [hrest] at h
  have hgraph' := h.graph
  have hreturns := h.returns
  have hreturned' := h.returned
  rw [hgraph] at hgraph' hreturns hreturned'
  refine ⟨s', sc, hbegin.trans (h.run.imp hown), hgraph', hreturns, ?_, hhanded ▸ h.handed,
    hreturned ▸ hreturned'⟩
  rw [h.calls, hcalls, Function.update_idem, ← hfree, Function.update_eq_self]

/-! ## One call at a time -/

/-- No call has begun that has not returned. -/
def Quiet (s : Site rule) : Prop := ∀ id, s.calls id = none

/-- At most one call has begun that has not returned. -/
def Alone (s : Site rule) : Prop :=
  ∀ i j c d, s.calls i = some c → s.calls j = some d → i = j

/-- A single thread makes the calls: each begins after the one before it has returned, and no handle
gets out earlier. -/
def Solo (s : Site rule) : Action → Prop
  | .begin _ => s.Quiet
  | .leak .. => False
  | _ => True

theorem Own.solo {a : Action} (h : Own id s a) : Solo s a := by
  cases a <;> first | exact h.elim | trivial

theorem Quiet.alone (h : s.Quiet) : s.Alone :=
  fun i _ c _ hi => absurd ((h i).symm.trans hi) (Option.some_ne_none c).symm

/-- A call in the place of one that has begun, or of none. -/
theorem Alone.update (h : s.Alone) {x : Option (Call rule)} {calls : Nat → Option (Call rule)}
    (hcalls : calls = Function.update s.calls id x)
    (hid : s.Quiet ∨ ∃ c, s.calls id = some c) :
    ∀ i j c d, calls i = some c → calls j = some d → i = j := by
  have hother : ∀ i c, calls i = some c → i = id := by
    intro i c hi
    by_cases hne : i = id
    · exact hne
    rw [hcalls, Function.update_of_ne hne] at hi
    rcases hid with hquiet | ⟨c', hc'⟩
    · exact absurd ((hquiet i).symm.trans hi) (Option.some_ne_none c).symm
    · exact h i id c c' hi hc'
  exact fun i j c d hi hj => (hother i c hi).trans (hother j d hj).symm

/-- A single thread is considerate. -/
theorem Run.considerate (h : Run Solo s s') (hs : s.Alone) :
    Run Considerate s s' ∧ s'.Alone := by
  induction h with
  | refl => exact ⟨.refl s, hs⟩
  | @step s₁ s₂ a hrun ha hstep ih =>
    obtain ⟨hcons, halone⟩ := ih
    refine ⟨.step hcons ?_ hstep, ?_⟩
    · cases a with
      | work id => exact fun c stage hc _ j d hne hj => absurd (halone j id d c hj hc) hne
      | leak id r => exact ha.elim
      | _ => trivial
    · cases hstep with
      | begin => exact halone.update rfl (.inl ha)
      | work hc => exact halone.update rfl (.inr ⟨_, hc⟩)
      | leave hc => exact halone.update rfl (.inr ⟨_, hc⟩)
      | finish hc => exact halone.update rfl (.inr ⟨_, hc⟩)
      | leak => exact ha.elim
      | run => exact halone

end Site

end CheckedFlow
