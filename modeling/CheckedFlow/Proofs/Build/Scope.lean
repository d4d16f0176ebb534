import CheckedFlow.Check.Stage
import CheckedFlow.Proofs.Build.Exec
import CheckedFlow.Proofs.Run.Stages

/-!
# What a builder call knows

A builder call refers to stages by their numbers. It knows the stages of the handles that it was
given, and those that it registered itself and has not taken back. What it knows at each point of its
program, and which assertions it is in the middle of, is its scope.

* `Port`, `Ref`: what a handle says about its stage, and of which registration it says so.
* `Frame`, `Scope`: an assertion that is being built; what a call knows.
* `Build.Keeps`: a program all of whose registrations keep to a rule about what is known then, and
  that takes back no more than an assertion it is building. `Build.Keeps.bind` composes them.
* `Scope.Follows`: how a step of a program changes what its call knows.
* `Builder.Keeps`: the same of a call that may fail, with what it knows in the end.
* `allOrNothing_keeps`: a program that takes itself back if it fails.
-/

namespace CheckedFlow

variable {α β : Type} {k : Kind}

/-! ## Ports -/

/-- What a handle says about its stage: its number, and what it leaves. -/
structure Port where
  node : NodeId
  leaves : OutputSort
deriving DecidableEq, Repr

/-- What a dataset says about its stage. -/
def Dataset.port (d : Dataset k) : Port := ⟨d.node, .elements k⟩

/-- What a view says about its stage. -/
def View.port (v : View k) : Port := ⟨v.node, .view k⟩

/-- What a handle to the stage says, if it has the number `n`. -/
def Stage.portAt (stage : Stage) (n : NodeId) : Port := ⟨n, stage.operation.leaves⟩

/-- A port of the stage that was registered at a certain time. -/
structure Ref where
  port : Port
  time : Nat
deriving DecidableEq, Repr

/-! ## Scopes -/

/-- An assertion that is being built: its name, the number of stages at its start, and the stages
that its call had registered by then. -/
structure Frame where
  name : String
  checkpoint : Nat
  own : List Ref

/-- The name starts as those of the assertion's stages do. -/
def Frame.Covers (f : Frame) (name : String) : Prop :=
  (f.name ++ "/").toList.isPrefixOf name.toList = true

/-- What a call knows. -/
structure Scope where
  /-- The call builds an assertion. -/
  checking : Bool
  /-- The stages of the handles that the call was given. -/
  given : List Ref
  /-- The stages that the call registered and has not taken back. -/
  own : List Ref := []
  /-- The assertions that the call is building, the innermost first. -/
  frames : List Frame := []
  /-- The call has taken back the outermost of its assertions. -/
  undone : Bool := false

namespace Scope

/-- All stages that the call knows. -/
def known (sc : Scope) : List Ref := sc.own ++ sc.given

/-- What the call can say about the stages that it knows. -/
def ports (sc : Scope) : List Port := sc.known.map Ref.port

/-- The call has registered a stage. -/
def learn (sc : Scope) (r : Ref) : Scope := { sc with own := r :: sc.own }

/-- The call starts to build an assertion behind `n` stages. -/
def enter (sc : Scope) (name : String) (n : Nat) : Scope :=
  { sc with frames := ⟨name, n, sc.own⟩ :: sc.frames }

/-- The innermost assertion is built. -/
def leave (sc : Scope) : Scope := { sc with frames := sc.frames.tail }

/-- The innermost assertion `f` is taken back; `fs` are those around it. -/
def back (sc : Scope) (f : Frame) (fs : List Frame) : Scope :=
  { sc with own := f.own, frames := fs, undone := sc.undone || fs.isEmpty }

/-- `sc'` knows what `sc` knows and is in the middle of the same assertions. An assertion that is
taken back within others is not the outermost. -/
structure Extends (sc sc' : Scope) : Prop where
  checking : sc'.checking = sc.checking
  given : sc'.given = sc.given
  own : sc.own ⊆ sc'.own
  frames : sc'.frames = sc.frames
  undone : sc.frames ≠ [] → sc'.undone = sc.undone

theorem Extends.refl (sc : Scope) : sc.Extends sc :=
  ⟨rfl, rfl, List.Subset.refl _, rfl, fun _ => rfl⟩

theorem Extends.trans {sc₁ sc₂ sc₃ : Scope} (h : sc₁.Extends sc₂) (h' : sc₂.Extends sc₃) :
    sc₁.Extends sc₃ where
  checking := h'.checking.trans h.checking
  given := h'.given.trans h.given
  own := List.Subset.trans h.own h'.own
  frames := h'.frames.trans h.frames
  undone hne := (h'.undone (h.frames ▸ hne)).trans (h.undone hne)

theorem Extends.ports_subset {sc sc' : Scope} (h : sc.Extends sc') : sc.ports ⊆ sc'.ports := by
  refine List.map_subset _ ?_
  rw [known, known, h.given]
  exact List.append_subset.mpr ⟨List.subset_append_of_subset_left _ h.own,
    List.subset_append_right _ _⟩

theorem extends_learn (sc : Scope) (r : Ref) : sc.Extends (sc.learn r) :=
  ⟨rfl, rfl, List.subset_cons_self .., rfl, fun _ => rfl⟩

theorem port_mem_learn (sc : Scope) (port : Port) (t : Nat) : port ∈ (sc.learn ⟨port, t⟩).ports :=
  List.mem_cons_self

end Scope

/-! ## Programs that keep to a rule -/

/-- A rule about the stages that a call may register in a scope. -/
abbrev Rule := Scope → Stage → Prop

variable {rule : Rule} {sc : Scope}

/-- In the scope `sc`, the program registers only stages that keep to the rule, takes back no more
than an assertion that it is building, and ends with `post`. Nothing is assumed of the answers that
its steps get. -/
inductive Build.Keeps (rule : Rule) (post : Scope → α → Prop) : Scope → Build α → Prop
  | done {sc : Scope} {x : α} (h : post sc x) : Keeps rule post sc (.done x)
  | stageCount {sc : Scope} {next : Nat → Build α} (name : String)
      (h : ∀ n, Keeps rule post (sc.enter name n) (next n)) :
      Keeps rule post sc (.stageCount next)
  | register {sc : Scope} {stage : Stage} {next : Except PipelineError NodeId → Build α}
      (hrule : rule sc stage)
      (hok : ∀ n t, Keeps rule post (sc.learn ⟨stage.portAt n, t⟩) (next (.ok n)))
      (herror : ∀ e, Keeps rule post sc (next (.error e))) :
      Keeps rule post sc (.register stage next)
  | discardSince {sc : Scope} {f : Frame} {fs : List Frame} {next : Nat → Build α}
      (hf : sc.frames = f :: fs) (h : ∀ m, Keeps rule post (sc.back f fs) (next m)) :
      Keeps rule post sc (.discardSince f.checkpoint (f.name ++ "/") next)
  | nextAssertion {sc : Scope} {next : String → Build α}
      (h : ∀ name, Keeps rule post sc (next name)) : Keeps rule post sc (.nextAssertion next)
  | setCheck {sc : Scope} {stage : String} {state : CheckState} {next : Unit → Build α}
      (h : Keeps rule post sc (next ())) : Keeps rule post sc (.setCheck stage state next)
  /-- An assertion ends well without a step of its own. -/
  | leave {sc : Scope} {b : Build α} (h : Keeps rule post sc.leave b) : Keeps rule post sc b

theorem Build.Keeps.bind {post : Scope → α → Prop} {post' : Scope → β → Prop} {b : Build α}
    {f : α → Build β} (h : b.Keeps rule post sc)
    (hf : ∀ sc' x, post sc' x → (f x).Keeps rule post' sc') : (b.bind f).Keeps rule post' sc := by
  induction h with
  | done h => exact hf _ _ h
  | stageCount name h ih => exact .stageCount name ih
  | register hrule hok herror ihok iherror => exact .register hrule ihok iherror
  | discardSince hf h ih => exact .discardSince hf ih
  | nextAssertion h ih => exact .nextAssertion ih
  | setCheck h ih => exact .setCheck ih
  | leave h ih => exact .leave ih

theorem Build.Keeps.mono {post post' : Scope → α → Prop} {b : Build α} (h : b.Keeps rule post sc)
    (hpost : ∀ sc' x, post sc' x → post' sc' x) : b.Keeps rule post' sc := by
  induction h with
  | done h => exact .done (hpost _ _ h)
  | stageCount name h ih => exact .stageCount name ih
  | register hrule hok herror ihok iherror => exact .register hrule ihok iherror
  | discardSince hf h ih => exact .discardSince hf ih
  | nextAssertion h ih => exact .nextAssertion ih
  | setCheck h ih => exact .setCheck ih
  | leave h ih => exact .leave ih

/-- How a step of the program `b` on the graph `g` changes the scope of its call. A stage that is
registered must keep to the rule; it is known by the time `now`. -/
def Scope.Follows (rule : Rule) (g : Graph) (now : Nat) (sc : Scope) (b : Build α) (sc' : Scope) :
    Prop :=
  match b with
  | .done _ => False
  | .stageCount _ => ∃ name, sc' = sc.enter name g.stages.length
  | .register stage _ => rule sc stage ∧ sc' =
      match (g.register stage).1 with
      | .ok n => sc.learn ⟨stage.portAt n, now⟩
      | .error _ => sc
  | .discardSince checkpoint under _ => ∃ f fs, sc.frames = f :: fs ∧ checkpoint = f.checkpoint ∧
      under = f.name ++ "/" ∧ sc' = sc.back f fs
  | .nextAssertion _ => sc' = sc
  | .setCheck .. => sc' = sc

/-- The innermost `n` assertions are built. -/
def Scope.leaves : Nat → Scope → Scope
  | 0, sc => sc
  | n + 1, sc => leaves n sc.leave

/-- A program that keeps to a rule can take its next step, once the assertions that have ended by
then are left, and goes on keeping to the rule. -/
theorem Build.Keeps.step {post : Scope → α → Prop} {b b' : Build α} {g g' : Graph}
    (h : b.Keeps rule post sc) (hstep : b.step g = some (b', g')) (now : Nat) :
    ∃ n sc', (∀ m ≤ n, b.Keeps rule post (sc.leaves m)) ∧
      (sc.leaves n).Follows rule g now b sc' ∧ b'.Keeps rule post sc' := by
  have hnow {sc sc' : Scope} {b : Build α} (hb : b.Keeps rule post sc)
      (hsc : sc.Follows rule g now b sc') (hb' : b'.Keeps rule post sc') :
      ∃ n sc', (∀ m ≤ n, b.Keeps rule post (sc.leaves m)) ∧
        (sc.leaves n).Follows rule g now b sc' ∧ b'.Keeps rule post sc' :=
    ⟨0, sc', fun m hm => by rw [Nat.le_zero.mp hm]; exact hb, hsc, hb'⟩
  induction h with
  | done h => cases hstep
  | stageCount name h =>
    cases hstep
    exact hnow (.stageCount name h) ⟨name, rfl⟩ (h _)
  | @register sc stage next hrule hok herror =>
    simp only [Build.step, Option.some.injEq, Prod.mk.injEq] at hstep
    obtain ⟨rfl, rfl⟩ := hstep
    refine hnow (.register hrule hok herror) ⟨hrule, rfl⟩ ?_
    cases (g.register stage).1 with
    | ok n => exact hok n now
    | error e => exact herror e
  | discardSince hf h =>
    cases hstep
    exact hnow (.discardSince hf h) ⟨_, _, hf, rfl, rfl, rfl⟩ (h _)
  | nextAssertion h =>
    cases hstep
    exact hnow (.nextAssertion h) rfl (h _)
  | setCheck h =>
    cases hstep
    exact hnow (.setCheck h) rfl h
  | leave h ih =>
    obtain ⟨n, sc', hleaves, hsc, hb'⟩ := ih hstep
    refine ⟨n + 1, sc', fun m hm => ?_, hsc, hb'⟩
    cases m with
    | zero => exact .leave h
    | succ m => exact hleaves m (Nat.le_of_succ_le_succ hm)

/-- A program that has come to its end keeps its promise, once its assertions are left. -/
theorem Build.Keeps.end_of_done {post : Scope → α → Prop} {b : Build α} {x : α}
    (h : b.Keeps rule post sc) (hb : b = .done x) :
    ∃ n, (∀ m ≤ n, b.Keeps rule post (sc.leaves m)) ∧ post (sc.leaves n) x := by
  induction h with
  | done h =>
    cases hb
    exact ⟨0, fun m hm => by rw [Nat.le_zero.mp hm]; exact .done h, h⟩
  | leave h ih =>
    obtain ⟨n, hleaves, hpost⟩ := ih hb
    refine ⟨n + 1, fun m hm => ?_, hpost⟩
    cases m with
    | zero => exact .leave h
    | succ m => exact hleaves m (Nat.le_of_succ_le_succ hm)
  | _ => cases hb

/-! ## Calls that keep to a rule -/

/-- The call keeps to the rule in the scope `sc`. In the end it knows at least what `sc` knows, is in
the middle of the same assertions, and if it succeeds, `post` holds. -/
def Builder.Keeps (rule : Rule) (sc : Scope) (b : Builder α) (post : Scope → α → Prop) : Prop :=
  Build.Keeps rule (fun sc' r => sc.Extends sc' ∧
    ∀ x, r = .ok x → sc'.undone = sc.undone ∧ post sc' x) sc (ExceptT.run b)

namespace Builder.Keeps

variable {post : Scope → α → Prop} {post' : Scope → β → Prop}

theorem pure {x : α} (h : post sc x) : Builder.Keeps rule sc (Pure.pure x) post :=
  Build.Keeps.done ⟨.refl sc, fun _ hx => ⟨rfl, by cases hx; exact h⟩⟩

theorem throw (e : PipelineError) :
    Builder.Keeps rule sc (MonadExcept.throw e : Builder α) post :=
  Build.Keeps.done ⟨.refl sc, nofun⟩

theorem ofExcept {r : Except PipelineError α} (h : ∀ x, r = .ok x → post sc x) :
    Builder.Keeps rule sc (Builder.ofExcept r) post :=
  Build.Keeps.done ⟨.refl sc, fun x hx => ⟨rfl, h x hx⟩⟩

theorem register {stage : Stage} {post : Scope → NodeId → Prop} (hrule : rule sc stage)
    (h : ∀ n t, post (sc.learn ⟨stage.portAt n, t⟩) n) :
    Builder.Keeps rule sc (Builder.register stage) post :=
  Build.Keeps.register hrule
    (fun n t => .done ⟨sc.extends_learn _, fun _ hx => ⟨rfl, by cases hx; exact h n t⟩⟩)
    fun _ => .done ⟨.refl sc, nofun⟩

theorem setCheck {stage : String} {state : CheckState} {post : Scope → Unit → Prop}
    (h : post sc ()) : Builder.Keeps rule sc (Builder.setCheck stage state) post :=
  Build.Keeps.setCheck (.done ⟨.refl sc, fun _ _ => ⟨rfl, h⟩⟩)

theorem bind {b : Builder α} {f : α → Builder β} (h : Builder.Keeps rule sc b post)
    (hf : ∀ sc' x, sc.Extends sc' → post sc' x → Builder.Keeps rule sc' (f x) post') :
    Builder.Keeps rule sc (b >>= f) post' := by
  refine Build.Keeps.bind h fun sc₁ r hr => ?_
  cases r with
  | error e => exact Build.Keeps.done ⟨hr.1, nofun⟩
  | ok x =>
    obtain ⟨hundone, hpost⟩ := hr.2 x rfl
    refine Build.Keeps.mono (hf sc₁ x hr.1 hpost) fun sc₂ r₂ h₂ => ?_
    exact ⟨hr.1.trans h₂.1, fun y hy => ⟨(h₂.2 y hy).1.trans hundone, (h₂.2 y hy).2⟩⟩

/-- A call that registers one stage and returns a handle to it. -/
theorem handle {stage : Stage} {handle : NodeId → α} (hrule : rule sc stage)
    (h : ∀ n t, post (sc.learn ⟨stage.portAt n, t⟩) (handle n)) :
    Builder.Keeps rule sc (Builder.register stage >>= fun n => Pure.pure (handle n)) post := by
  have hn : Builder.Keeps rule sc (Builder.register stage) fun sc' n => post sc' (handle n) :=
    register hrule h
  exact hn.bind fun _ _ _ h => pure h

end Builder.Keeps

/-! ## Assertions -/

/-- A program that takes itself back if it fails, step by step. -/
theorem allOrNothing_run (name : String) (build : Builder α) :
    ExceptT.run (allOrNothing name build) = .stageCount fun checkpoint =>
      (ExceptT.run build).bind fun
        | .ok x => .done (.ok x)
        | .error e => .discardSince checkpoint (name ++ "/") fun _ => .done (.error e) := by
  refine congrArg Build.stageCount (funext fun checkpoint => ?_)
  refine congrArg ((ExceptT.run build).bind ·) (funext fun r => ?_)
  cases r <;> rfl

/-- A program that keeps to the rule while an assertion is built around it does so with the
assertion taken back if it fails. -/
theorem allOrNothing_keeps {name : String} {build : Builder α} {post post' : Scope → α → Prop}
    (h : ∀ n, Builder.Keeps rule (sc.enter name n) build post)
    (hpost : ∀ sc' x, post sc' x → post' sc'.leave x) :
    Builder.Keeps rule sc (allOrNothing name build) post' := by
  unfold Builder.Keeps
  rw [allOrNothing_run]
  refine .stageCount name fun n => Build.Keeps.bind (h n) fun sc₁ r ⟨hext, hok⟩ => ?_
  have hframes : sc₁.frames = ⟨name, n, sc.own⟩ :: sc.frames := hext.frames
  have hundone : sc₁.undone = sc.undone := hext.undone (List.cons_ne_nil _ _)
  cases r with
  | ok x =>
    refine .leave (.done ⟨⟨hext.checking, hext.given, hext.own, ?_, fun _ => hundone⟩, ?_⟩)
    · rw [Scope.leave, hframes, List.tail_cons]
    · intro y hy
      cases hy
      exact ⟨hundone, hpost _ _ (hok x rfl).2⟩
  | error e =>
    refine .discardSince hframes fun m => .done ⟨?_, nofun⟩
    refine ⟨hext.checking, hext.given, List.Subset.refl _, rfl, fun hne => ?_⟩
    simp [Scope.back, hundone, hne]

end CheckedFlow
