import CheckedFlow.Proofs.Build.Site

/-!
# Stages and their calls

While the calls that build a pipeline are considerate, the stages that an assertion can take back are
its own, and nobody else holds a handle to them. So every handle that is out, and every handle that a
call holds, goes on to denote the stage that it was made for.

* `Frame.Chain`: what a call knew when it started its assertions, outermost last.
* `Site.Sound`: the invariant; its field `region` says that an assertion's stages are private.
* `Site.Sound.worked`: what a step of a call may do to the stages; the steps of programs are its
  instances.
* `Site.Run.sound`: considerate runs keep the invariant; `Site.Run.ruled`: what all runs keep.
-/

namespace CheckedFlow

variable {rule : Rule}

/-! ## Lists of stages -/

namespace Site

variable {placed new : List Placed} {r : Ref} {e : Placed} {id n : Nat} {checking : Bool}

theorem Denotes.append (h : Denotes placed r e) : Denotes (placed ++ new) r e :=
  ⟨by rw [List.getElem?_append_left (List.getElem?_eq_some_iff.mp h.1).1, h.1], h.2⟩

theorem Denotes.take (h : Denotes placed r e) (hn : r.port.node < n) :
    Denotes (placed.take n) r e :=
  ⟨by rw [List.getElem?_take_of_lt hn, h.1], h.2⟩

theorem Denotes.lt (h : Denotes placed r e) : r.port.node < placed.length :=
  (List.getElem?_eq_some_iff.mp h.1).1

theorem Denotes.mem (h : Denotes placed r e) : e ∈ placed := List.mem_of_getElem? h.1

/-- A handle denotes one stage. -/
theorem Denotes.unique {e' : Placed} (h : Denotes placed r e) (h' : Denotes placed r e') :
    e = e' := by
  have heq := h.1.symm.trans h'.1
  exact Option.some.inj heq

/-- The stages are numbered in their order. -/
def Numbered (placed : List Placed) : Prop :=
  ∀ (i : Nat) (e : Placed), placed[i]? = some e → e.node = i

theorem Numbered.denotes (h : Numbered placed) (he : e ∈ placed) : Denotes placed e.ref e := by
  obtain ⟨i, hi⟩ := List.mem_iff_getElem?.mp he
  exact ⟨by rw [Placed.ref, Stage.portAt, h i e hi, hi], rfl⟩

theorem Numbered.lt (h : Numbered placed) (he : e ∈ placed) : e.node < placed.length :=
  (h.denotes he).lt

theorem Numbered.take (h : Numbered placed) (n : Nat) : Numbered (placed.take n) := by
  intro i e hi
  rw [List.getElem?_take] at hi
  split at hi
  · exact h i e hi
  · cases hi

theorem Numbered.append (h : Numbered placed) (he : e.node = placed.length) :
    Numbered (placed ++ [e]) := by
  intro i e' hi
  rcases getElem?_concat_cases hi with hi | ⟨rfl, rfl⟩
  · exact h i e' hi
  · exact he

end Site

/-! ## Assertions within each other -/

/-- Each assertion started behind the stages that its call knew then, and within the assertions that
follow it. -/
def Frame.Chain (given : List Ref) : List Frame → List Ref → Prop
  | [], _ => True
  | f :: fs, own => f.own ⊆ own ∧ (∀ r ∈ f.own ++ given, r.port.node < f.checkpoint) ∧
      Chain given fs f.own

theorem Frame.Chain.mono {given own own' : List Ref} {fs : List Frame} (h : Chain given fs own)
    (hsub : own ⊆ own') : Chain given fs own' := by
  cases fs with
  | nil => trivial
  | cons f fs => exact ⟨List.Subset.trans h.1 hsub, h.2⟩

theorem Frame.Chain.tail {given own : List Ref} {fs : List Frame} (h : Chain given fs own) :
    Chain given fs.tail own := by
  cases fs with
  | nil => trivial
  | cons f fs => exact h.2.2.mono h.1

/-! ## The invariant -/

namespace Site

/-- What holds of a site at every moment, if all calls are considerate. -/
structure Sound (s : Site rule) : Prop where
  stages : s.placed.map Placed.stage = s.graph.stages
  numbered : Numbered s.placed
  names : s.graph.Sound
  ids : ∀ id c, s.calls id = some c → id < s.clock
  /-- The handles that are out denote their stages. -/
  handed : ∀ r ∈ s.handed, ∃ e, Denotes s.placed r e
  /-- A call owns the stages that it registered, and holds handles to them. -/
  own : ∀ id c, s.calls id = some c → ∀ r ∈ c.scope.own, Holds s.placed id c.scope.checking r
  given : ∀ id c, s.calls id = some c → c.scope.given ⊆ s.handed
  chain : ∀ id c, s.calls id = some c → Frame.Chain c.scope.given c.scope.frames c.scope.own
  /-- What a call can take back is its own, and no handle to it is out. -/
  region : ∀ id c, s.calls id = some c → ∀ f ∈ c.scope.frames, ∀ e ∈ s.placed,
    f.checkpoint ≤ e.node → f.Covers e.stage.name → e.owner = id ∧ e.ref ∉ s.handed
  /-- A stage keeps to the rule, and what its call knew are stages before it. -/
  links : ∀ e ∈ s.placed, rule e.scope e.stage ∧
    ∀ r ∈ e.scope.known, r.port.node < e.node ∧ ∃ e', Denotes s.placed r e'
  /-- A call that has returned keeps what it owned in the end. -/
  returned : ∀ ret ∈ s.returned, s.calls ret.id = none ∧ ret.id < s.clock ∧
    ret.scope.Returns ret.result ∧
    ∀ r ∈ ret.scope.own, r ∈ s.handed ∧ Holds s.placed ret.id ret.scope.checking r

theorem sound_new : Sound ({} : Site rule) where
  stages := rfl
  numbered _ _ h := nomatch h
  names := Graph.Reachable.new.sound
  ids _ _ h := nomatch h
  handed _ h := nomatch h
  own _ _ h := nomatch h
  given _ _ h := nomatch h
  chain _ _ h := nomatch h
  region _ _ h := nomatch h
  links _ h := nomatch h
  returned _ h := nomatch h

variable {s s' : Site rule} {id : Nat} {c : Call rule}

/-- What a call knows denotes its stages. -/
theorem Sound.known (hs : s.Sound) (hc : s.calls id = some c) {r : Ref} (hr : r ∈ c.scope.known) :
    ∃ e, Denotes s.placed r e := by
  rcases List.mem_append.mp hr with hr | hr
  · obtain ⟨e, he, -⟩ := hs.own id c hc r hr
    exact ⟨e, he⟩
  · exact hs.handed r (hs.given id c hc hr)

/-- A step of the call `id` that puts the stages `placed` in the place of the old ones. Stages of
other calls stay, and so do those whose handles are out; a new stage is the call's own and not one
that another call could take back. -/
theorem Sound.worked (hs : s.Sound) (hc : s.calls id = some c) {g : Graph} {placed : List Placed}
    {clock : Nat} {c' : Call rule} (hstages : placed.map Placed.stage = g.stages)
    (hnumbered : Numbered placed) (hnames : g.Sound) (hclock : s.clock ≤ clock)
    (hpersist : ∀ r e, Denotes s.placed r e → r ∈ s.handed ∨ e.owner ≠ id → Denotes placed r e)
    (hnew : ∀ e ∈ placed, e ∈ s.placed ∨ e.owner = id ∧ e.ref ∉ s.handed ∧
      ∀ j d, j ≠ id → s.calls j = some d → ∀ f ∈ d.scope.frames, ¬ f.Covers e.stage.name)
    (hown : ∀ r ∈ c'.scope.own, Holds placed id c'.scope.checking r)
    (hgiven : c'.scope.given = c.scope.given)
    (hchain : Frame.Chain c'.scope.given c'.scope.frames c'.scope.own)
    (hframes : ∀ f ∈ c'.scope.frames, f ∈ c.scope.frames ∨ ∀ e ∈ placed, e.node < f.checkpoint)
    (hlinks : ∀ e ∈ placed, rule e.scope e.stage ∧
      ∀ r ∈ e.scope.known, r.port.node < e.node ∧ ∃ e', Denotes placed r e') :
    Sound { s with
      graph := g, placed := placed, clock := clock
      calls := Function.update s.calls id (some c') } := by
  refine ⟨hstages, hnumbered, hnames, ?_, ?_, ?_, ?_, ?_, ?_, hlinks, ?_⟩
  · exact forall_update (Nat.lt_of_lt_of_le (hs.ids id c hc) hclock) fun j d _ hj =>
      Nat.lt_of_lt_of_le (hs.ids j d hj) hclock
  · intro r hr
    obtain ⟨e, he⟩ := hs.handed r hr
    exact ⟨e, hpersist r e he (.inl hr)⟩
  · refine forall_update hown fun j d hne hj r hr => ?_
    obtain ⟨e, he, howner, hchecking⟩ := hs.own j d hj r hr
    exact ⟨e, hpersist r e he (.inr (howner ▸ hne)), howner, hchecking⟩
  · exact forall_update (hgiven ▸ hs.given id c hc) fun j d _ hj => hs.given j d hj
  · exact forall_update hchain fun j d _ hj => hs.chain j d hj
  · refine forall_update (fun f hf e he hle hcov => ?_) fun j d hne hj f hf e he hle hcov => ?_
    · rcases hframes f hf with hf | hbefore
      · rcases hnew e he with he | ⟨howner, hout, -⟩
        · exact hs.region id c hc f hf e he hle hcov
        · exact ⟨howner, hout⟩
      · exact absurd (hbefore e he) (Nat.not_lt.mpr hle)
    · rcases hnew e he with he | ⟨-, -, hapart⟩
      · exact hs.region j d hj f hf e he hle hcov
      · exact absurd hcov (hapart j d hne hj f hf)
  · intro ret hret
    obtain ⟨hnone, hlt, hreturns, hkept⟩ := hs.returned ret hret
    have hne : ret.id ≠ id := fun h => by rw [h, hc] at hnone; cases hnone
    refine ⟨by simpa [Function.update_of_ne hne] using hnone, Nat.lt_of_lt_of_le hlt hclock,
      hreturns, fun r hr => ?_⟩
    obtain ⟨hout, e, he, howner, hchecking⟩ := hkept r hr
    exact ⟨hout, e, hpersist r e he (.inl hout), howner, hchecking⟩

/-! ## Steps of programs -/

theorem Sound.length (hs : s.Sound) : s.placed.length = s.graph.stages.length := by
  rw [← hs.stages, List.length_map]

theorem placing_registered {stage : Stage} {n : NodeId} (hb : c.rest.stage? = some stage)
    (hok : (s.graph.register stage).1 = .ok n) :
    s.placing id c = [⟨stage, n, s.clock, id, c.scope⟩] := by
  simp only [placing, hb, hok]

theorem placing_nil
    (hb : ∀ stage, c.rest.stage? = some stage → ∃ e, (s.graph.register stage).1 = .error e) :
    s.placing id c = [] := by
  unfold placing
  split
  · rename_i stage hstage
    obtain ⟨e, he⟩ := hb stage hstage
    rw [he]
  · rfl

/-- A step that keeps all stages and moves the call to the scope of `c'`. -/
theorem Sound.stays (hs : s.Sound) (hc : s.calls id = some c) {g : Graph} {clock : Nat}
    {c' : Call rule} (hstages : g.stages = s.graph.stages) (hnames : g.Sound)
    (hclock : s.clock ≤ clock) (hchecking : c'.scope.checking = c.scope.checking)
    (hgiven : c'.scope.given = c.scope.given) (hown : c'.scope.own ⊆ c.scope.own)
    (hchain : Frame.Chain c'.scope.given c'.scope.frames c'.scope.own)
    (hframes : ∀ f ∈ c'.scope.frames, f ∈ c.scope.frames ∨
      s.graph.stages.length ≤ f.checkpoint) :
    Sound { s with
      graph := g, clock := clock, calls := Function.update s.calls id (some c') } := by
  refine hs.worked hc (hs.stages.trans hstages.symm) hs.numbered hnames hclock
    (fun _ _ h _ => h) (fun e he => .inl he) (fun r hr => ?_) hgiven hchain
    (fun f hf => (hframes f hf).imp_right fun hle e he => ?_) hs.links
  · rw [hchecking]
    exact hs.own id c hc r (hown hr)
  · exact Nat.lt_of_lt_of_le (hs.length ▸ hs.numbered.lt he) hle

/-- The step of a call registers a stage. -/
theorem Sound.registered (hs : s.Sound) (hc : s.calls id = some c) {stage : Stage}
    {c' : Call rule} (hrule : rule c.scope stage) (hnames : (s.graph.extend [stage]).Sound)
    (happart : ∀ j d, j ≠ id → s.calls j = some d → ∀ f ∈ d.scope.frames, ¬ f.Covers stage.name)
    (hsc : c'.scope = c.scope.learn ⟨stage.portAt s.graph.stages.length, s.clock⟩) :
    Sound { s with
      graph := s.graph.extend [stage]
      placed := s.placed ++ [⟨stage, s.graph.stages.length, s.clock, id, c.scope⟩]
      clock := s.clock + 1
      calls := Function.update s.calls id (some c') } := by
  have hlen := hs.length
  have hnumbered : Numbered (s.placed ++ [⟨stage, s.graph.stages.length, s.clock, id, c.scope⟩]) :=
    hs.numbered.append hlen.symm
  have hlast := hnumbered.denotes (List.mem_append_right _ List.mem_cons_self)
  have hnot : ∀ r e, Denotes s.placed r e → r.port.node < s.graph.stages.length :=
    fun r e h => hlen ▸ h.lt
  refine hs.worked hc ?_ hnumbered hnames (Nat.le_succ _) (fun _ _ h _ => h.append) ?_ ?_ ?_ ?_ ?_ ?_
  · rw [List.map_append, hs.stages]
    rfl
  · intro e he
    refine (List.mem_append.mp he).imp_right fun he => ?_
    rw [List.mem_singleton.mp he]
    refine ⟨rfl, fun hout => ?_, happart⟩
    obtain ⟨e', he'⟩ := hs.handed _ hout
    exact Nat.lt_irrefl _ (hnot _ _ he')
  · rw [hsc]
    intro r hr
    rcases List.mem_cons.mp hr with rfl | hr
    · exact ⟨_, hlast, rfl, rfl⟩
    · obtain ⟨e, he, howner⟩ := hs.own id c hc r hr
      exact ⟨e, he.append, howner⟩
  · rw [hsc]
    rfl
  · rw [hsc]
    exact (hs.chain id c hc).mono (List.subset_cons_self ..)
  · rw [hsc]
    exact fun f hf => .inl hf
  · intro e he
    rcases List.mem_append.mp he with he | he
    · refine (hs.links e he).imp_right fun h r hr => ?_
      obtain ⟨hlt, e', he'⟩ := h r hr
      exact ⟨hlt, e', he'.append⟩
    · rw [List.mem_singleton.mp he]
      refine ⟨hrule, fun r hr => ?_⟩
      obtain ⟨e', he'⟩ := hs.known hc hr
      exact ⟨hnot r e' he', e', he'.append⟩

/-- If all stages behind the start of an assertion are named under it, they are its call's own and
private to it. -/
theorem Sound.behind_checkpoint (hs : s.Sound) (hc : s.calls id = some c) {f : Frame}
    (hf : f ∈ c.scope.frames)
    (hall : ∀ stage ∈ s.graph.stages.drop f.checkpoint, f.Covers stage.name) {r : Ref} {e : Placed}
    (he : Denotes s.placed r e) (hle : f.checkpoint ≤ r.port.node) :
    e.owner = id ∧ r ∉ s.handed := by
  have hnode : e.node = r.port.node := hs.numbered _ e he.1
  have hcov : f.Covers e.stage.name := by
    refine hall _ (List.mem_of_getElem? (i := r.port.node - f.checkpoint) ?_)
    rw [List.getElem?_drop, Nat.add_sub_cancel' hle, ← hs.stages, List.getElem?_map, he.1]
    rfl
  obtain ⟨howner, hout⟩ := hs.region id c hc f hf e he.mem (hnode ▸ hle) hcov
  exact ⟨howner, he.2 ▸ hout⟩

/-- The step of a call takes its innermost assertion back, and with it the stages since its start. -/
theorem Sound.takenBack (hs : s.Sound) (hc : s.calls id = some c) {g : Graph} {f : Frame}
    {fs : List Frame} {c' : Call rule} (hf : c.scope.frames = f :: fs)
    (hstages : g.stages = s.graph.stages.take f.checkpoint) (hnames : g.Sound)
    (hall : ∀ stage ∈ s.graph.stages.drop f.checkpoint, f.Covers stage.name)
    (hsc : c'.scope = c.scope.back f fs) :
    Sound { s with
      graph := g
      placed := s.placed.take f.checkpoint
      clock := s.clock + 1
      calls := Function.update s.calls id (some c') } := by
  have hfmem : f ∈ c.scope.frames := hf ▸ List.mem_cons_self
  have hpersist : ∀ r e, Denotes s.placed r e → r ∈ s.handed ∨ e.owner ≠ id →
      Denotes (s.placed.take f.checkpoint) r e := by
    intro r e he hsafe
    refine he.take (Nat.lt_of_not_le fun hle => ?_)
    obtain ⟨howner, hout⟩ := hs.behind_checkpoint hc hfmem hall he hle
    exact hsafe.elim hout fun hne => hne howner
  have hchain := hs.chain id c hc
  rw [hf] at hchain
  obtain ⟨hsub, hbefore, hchain⟩ := hchain
  refine hs.worked hc ?_ (hs.numbered.take _) hnames (Nat.le_succ _) hpersist ?_ ?_ ?_ ?_ ?_ ?_
  · rw [List.map_take, hs.stages, hstages]
  · exact fun e he => .inl (List.mem_of_mem_take he)
  · rw [hsc]
    intro r hr
    obtain ⟨e, he, howner⟩ := hs.own id c hc r (hsub hr)
    exact ⟨e, he.take (hbefore r (List.mem_append_left _ hr)), howner⟩
  · rw [hsc]
    rfl
  · rw [hsc]
    exact hchain
  · rw [hsc]
    exact fun f' hf' => .inl (hf ▸ List.mem_cons_of_mem f hf')
  · intro e he
    have hnode : e.node < f.checkpoint := by
      obtain ⟨i, hi⟩ := List.mem_iff_getElem?.mp he
      rw [List.getElem?_take] at hi
      split at hi
      · rename_i hlt
        exact hs.numbered i e hi ▸ hlt
      · cases hi
    refine (hs.links e (List.mem_of_mem_take he)).imp_right fun h r hr => ?_
    obtain ⟨hlt, e', he'⟩ := h r hr
    exact ⟨hlt, e', he'.take (Nat.lt_trans hlt hnode)⟩

/-- A considerate step of a call's program keeps the invariant. -/
theorem Sound.work (hs : s.Sound) (hc : s.calls id = some c)
    {rest : Build (Except PipelineError (List Port))} {g : Graph} {sc : Scope}
    (hstep : c.rest.step s.graph = some (rest, g))
    (hsc : c.scope.Follows rule s.graph s.clock c.rest sc)
    (hkeeps : rest.Keeps rule Scope.Returns sc) (hcons : s.Considerate (.work id)) :
    Sound { s with
      graph := g
      placed := (s.placed ++ s.placing id c).take g.stages.length
      clock := s.clock + 1
      calls := Function.update s.calls id (some ⟨rest, sc, hkeeps⟩) } := by
  have hnames : g.Sound := Build.step_sound hstep hs.names
  have hw := hsc.worked hstep
  have hchain := hs.chain id c hc
  have hplaced (h : s.placing id c = []) (hg : g.stages = s.graph.stages) :
      (s.placed ++ s.placing id c).take g.stages.length = s.placed := by
    rw [h, hg, ← hs.length, List.append_nil, List.take_length]
  generalize hb : c.rest = b at hw
  cases hw with
  | @registered stage next hrule hok =>
    have hstage : c.rest.stage? = some stage := by rw [hb]; rfl
    rw [placing_registered hstage hok, List.take_of_length_le (by simp [hs.length])]
    exact hs.registered hc hrule hnames (hcons c stage hc hstage) rfl
  | takenBack hnone hf hstages hall =>
    rw [placing_nil (by simp [hb, hnone]), List.append_nil, hstages, List.length_take,
      ← hs.length, ← List.take_eq_take_min]
    exact hs.takenBack hc hf hstages hnames hall rfl
  | keptAll hnone hf hstages =>
    rw [hplaced (placing_nil (by simp [hb, hnone])) hstages]
    rw [hf] at hchain
    exact hs.stays hc hstages hnames (Nat.le_succ _) rfl rfl hchain.1 hchain.2.2
      fun f' hf' => .inl (hf ▸ List.mem_cons_of_mem _ hf')
  | entered hnone name =>
    rw [hplaced (placing_nil (by simp [hb, hnone])) rfl]
    refine hs.stays hc rfl hnames (Nat.le_succ _) rfl rfl (List.Subset.refl _) ?_ fun f hf => ?_
    · refine ⟨List.Subset.refl _, fun r hr => ?_, hchain⟩
      obtain ⟨e, he⟩ := hs.known hc hr
      exact hs.length ▸ he.lt
    · rcases List.mem_cons.mp hf with rfl | hf
      · exact .inr (Nat.le_refl _)
      · exact .inl hf
  | stayed herror hstages =>
    rw [hplaced (placing_nil (hb.symm ▸ herror)) hstages]
    exact hs.stays hc hstages hnames (Nat.le_succ _) rfl rfl (List.Subset.refl _) hchain
      fun f hf => .inl hf

/-! ## Other steps -/

/-- Handles get out of the call `id`; the call returns, or it goes on. -/
theorem Sound.hands (hs : s.Sound) (hc : s.calls id = some c) {out : List Ref}
    (hout : out ⊆ c.scope.own) {calls : Nat → Option (Call rule)}
    {returned : List Returned}
    (hcalls : ∀ j d, calls j = some d → s.calls j = some d)
    (hregion : ∀ d, calls id = some d → ∀ r ∈ out, ∀ e, Denotes s.placed r e →
      ∀ f ∈ d.scope.frames, f.checkpoint ≤ e.node → ¬ f.Covers e.stage.name)
    (hreturned : ∀ ret ∈ returned, ret ∈ s.returned ∨ calls ret.id = none ∧ ret.id = id ∧
      ret.scope = c.scope ∧ ret.scope.Returns ret.result ∧ out = c.scope.own) :
    Sound { s with calls := calls, handed := out ++ s.handed, returned := returned } := by
  have hown : ∀ r ∈ out, ∃ e, Denotes s.placed r e ∧ e.owner = id := by
    intro r hr
    obtain ⟨e, he, howner, -⟩ := hs.own id c hc r (hout hr)
    exact ⟨e, he, howner⟩
  refine ⟨hs.stages, hs.numbered, hs.names, fun j d hj => hs.ids j d (hcalls j d hj), ?_,
    fun j d hj => hs.own j d (hcalls j d hj), ?_, fun j d hj => hs.chain j d (hcalls j d hj), ?_,
    hs.links, ?_⟩
  · intro r hr
    rcases List.mem_append.mp hr with hr | hr
    · obtain ⟨e, he, -⟩ := hown r hr
      exact ⟨e, he⟩
    · exact hs.handed r hr
  · exact fun j d hj => List.subset_append_of_subset_right _ (hs.given j d (hcalls j d hj))
  · intro j d hj f hf e he hle hcov
    obtain ⟨howner, hin⟩ := hs.region j d (hcalls j d hj) f hf e he hle hcov
    refine ⟨howner, fun hmem => (List.mem_append.mp hmem).elim (fun hmem => ?_) hin⟩
    obtain ⟨e', he', howner'⟩ := hown _ hmem
    obtain rfl : e = e' := (hs.numbered.denotes he).unique he'
    obtain rfl : j = id := howner.symm.trans howner'
    exact hregion d hj _ hmem e he' f hf hle hcov
  · intro ret hret
    rcases hreturned ret hret with hret | ⟨hnone, hid, hscope, hreturns, hall⟩
    · obtain ⟨hnone, hlt, hreturns, hkept⟩ := hs.returned ret hret
      have hstill : calls ret.id = none := Option.eq_none_iff_forall_ne_some.mpr fun d hd =>
        Option.some_ne_none d ((hcalls _ _ hd).symm.trans hnone)
      exact ⟨hstill, hlt, hreturns, fun r hr =>
        ⟨List.mem_append_right _ (hkept r hr).1, (hkept r hr).2⟩⟩
    · refine ⟨hnone, hid ▸ hs.ids id c hc, hreturns, fun r hr => ?_⟩
      rw [hscope] at hr ⊢
      exact ⟨List.mem_append_left _ (hall ▸ hr), hid ▸ hs.own id c hc r hr⟩

/-- A call begins that has been given all handles that are out. -/
theorem Sound.begins (hs : s.Sound) (hgiven : c.scope.given = s.handed)
    (hown : c.scope.own = []) (hframes : c.scope.frames = []) :
    Sound { s with
      clock := s.clock + 1, calls := Function.update s.calls s.clock (some c) } := by
  refine ⟨hs.stages, hs.numbered, hs.names, ?_, hs.handed, ?_, ?_, ?_, ?_, hs.links, ?_⟩
  · exact forall_update (Nat.lt_succ_self _) fun j d _ hj => Nat.lt_succ_of_lt (hs.ids j d hj)
  · exact forall_update (by simp [hown]) fun j d _ hj => hs.own j d hj
  · exact forall_update (by simp [hgiven]) fun j d _ hj => hs.given j d hj
  · exact forall_update (by simp [hframes, Frame.Chain]) fun j d _ hj => hs.chain j d hj
  · exact forall_update (by simp [hframes]) fun j d _ hj => hs.region j d hj
  · intro ret hret
    obtain ⟨hnone, hlt, hkept⟩ := hs.returned ret hret
    exact ⟨by simpa [Function.update_of_ne (Nat.ne_of_lt hlt)] using hnone,
      Nat.lt_succ_of_lt hlt, hkept⟩

/-- Considerate steps keep the invariant. -/
theorem Step.sound {a : Action} (hstep : Step s a s') (hs : s.Sound) (hcons : s.Considerate a) :
    s'.Sound := by
  cases hstep with
  | begin hkeeps => exact hs.begins rfl rfl rfl
  | work hc hstep hsc hkeeps => exact hs.work hc hstep hsc hkeeps hcons
  | @leave _ c hc hkeeps =>
    exact hs.stays hc rfl hs.names (Nat.le_refl _) rfl rfl (List.Subset.refl _)
      (hs.chain _ c hc).tail fun f hf => .inl (List.mem_of_mem_tail hf)
  | @finish id c r hc hr hreturns =>
    refine hs.hands hc (List.Subset.refl _) (fun j d hj => ?_) (fun d hd => ?_) fun ret hret => ?_
    · by_cases h : j = id
      · rw [h, Function.update_self] at hj
        cases hj
      · rwa [Function.update_of_ne h] at hj
    · rw [Function.update_self] at hd
      cases hd
    · rcases List.mem_cons.mp hret with rfl | hret
      · exact .inr ⟨Function.update_self .., rfl, rfl, hreturns, rfl⟩
      · exact .inl hret
  | leak hc hr =>
    refine hs.hands hc (List.cons_subset.mpr ⟨hr, List.nil_subset _⟩) (fun _ _ h => h)
      (fun d hd r' hr' e he f hf hle => ?_) fun ret hret => .inl hret
    rw [List.mem_singleton.mp hr'] at he
    exact hcons d e hd he f hf hle
  | run p =>
    obtain ⟨hstages, hnames⟩ := p.run_graph s.graph
    exact ⟨hs.stages.trans hstages.symm, hs.numbered, hs.names.congr hstages hnames, hs.ids,
      hs.handed, hs.own, hs.given, hs.chain, hs.region, hs.links, hs.returned⟩

/-- Runs of considerate steps keep the invariant. -/
theorem Run.sound (h : Run Considerate s s') (hs : s.Sound) : s'.Sound := by
  induction h with
  | refl => exact hs
  | step _ ha hstep ih => exact hstep.sound ih ha

/-! ## What holds of all stages -/

/-- A step keeps the stages to the rule, considerate or not. -/
theorem Step.ruled {a : Action} (hstep : Step s a s')
    (hs : ∀ stage ∈ s.graph.stages, ∃ sc, rule sc stage) :
    ∀ stage ∈ s'.graph.stages, ∃ sc, rule sc stage := by
  cases hstep with
  | work hc hstep hsc hkeeps =>
    have hw := hsc.worked hstep
    generalize Call.rest _ = b at hw
    cases hw with
    | registered hrule =>
      rw [Graph.extend_stages]
      exact List.forall_mem_append.mpr ⟨hs, List.forall_mem_singleton.mpr ⟨_, hrule⟩⟩
    | takenBack _ _ hstages =>
      rw [hstages]
      exact fun stage hstage => hs stage (List.mem_of_mem_take hstage)
    | keptAll _ _ hstages => rwa [hstages]
    | entered => exact hs
    | stayed _ hstages => rwa [hstages]
  | run p =>
    rw [(p.run_graph s.graph).1]
    exact hs
  | _ => exact hs

/-- In any run, every stage keeps to the rule. -/
theorem Run.ruled {allowed : Site rule → Action → Prop} (h : Run allowed {} s) :
    ∀ stage ∈ s.graph.stages, ∃ sc, rule sc stage := by
  induction h with
  | refl => exact fun _ h => nomatch h
  | step _ _ hstep ih => exact hstep.ruled ih

/-! ## What stays -/

/-- A step of a sound site leaves every stage in its place whose handle is out, or that another call
than the one that takes the step registered. -/
theorem Step.persists {a : Action} (hstep : Step s a s') (hs : s.Sound) {r : Ref} {e : Placed}
    (he : Denotes s.placed r e) (hsafe : r ∈ s.handed ∨ a ≠ .work e.owner) :
    Denotes s'.placed r e := by
  cases hstep with
  | @work id c rest g sc hc hstep hsc hkeeps =>
    have hlt : r.port.node < s.graph.stages.length := hs.length ▸ he.lt
    refine he.append.take ?_
    have hw := hsc.worked hstep
    generalize c.rest = b at hw
    cases hw with
    | registered =>
      rw [Graph.extend_stages, List.length_append]
      exact Nat.lt_add_right _ hlt
    | takenBack _ hf hstages hall =>
      rw [hstages, List.length_take]
      refine Nat.lt_min.mpr ⟨Nat.lt_of_not_le fun hle => ?_, hlt⟩
      obtain ⟨howner, hout⟩ := hs.behind_checkpoint hc (hf ▸ List.mem_cons_self) hall he hle
      exact hsafe.elim hout fun hne => hne (howner ▸ rfl)
    | keptAll _ _ hstages => rwa [hstages]
    | entered => exact hlt
    | stayed _ hstages => rwa [hstages]
  | _ => exact he

/-- A stage that a step of a sound site removes was registered by the call that takes the step, and no
handle to it is out. -/
theorem Step.removed {a : Action} (hstep : Step s a s') (hs : s.Sound) {e : Placed}
    (he : e ∈ s.placed) (hgone : e ∉ s'.placed) : a = .work e.owner ∧ e.ref ∉ s.handed := by
  have hden := hs.numbered.denotes he
  exact ⟨Classical.byContradiction fun hne => hgone (hstep.persists hs hden (.inr hne)).mem,
    fun hout => hgone (hstep.persists hs hden (.inl hout)).mem⟩

/-- A handle that is out stays out. -/
theorem Step.handed_subset {a : Action} (hstep : Step s a s') : s.handed ⊆ s'.handed := by
  cases hstep with
  | finish => exact List.subset_append_right _ _
  | leak => exact List.subset_cons_self ..
  | _ => exact List.Subset.refl _

/-- In considerate runs, the stage of a handle that is out stays in its place. -/
theorem Run.persists (h : Run Considerate s s') (hs : s.Sound) {r : Ref} (hr : r ∈ s.handed)
    {e : Placed} (he : Denotes s.placed r e) : Denotes s'.placed r e := by
  have hout : Denotes s'.placed r e ∧ r ∈ s'.handed := by
    induction h with
    | refl => exact ⟨he, hr⟩
    | step hrun _ hstep ih =>
      exact ⟨hstep.persists (hrun.sound hs) ih.1 (.inl ih.2), hstep.handed_subset ih.2⟩
  exact hout.1

end Site

end CheckedFlow
