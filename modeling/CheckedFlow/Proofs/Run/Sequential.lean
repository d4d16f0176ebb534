import CheckedFlow.Proofs.Run.Chunks

/-!
# One element at a time

What a stage leaves is what one worker would leave who takes the elements in their order and stops
at the first one that fails. How many workers there are, and that workers on later chunks go on
after a failure, shows in the effects of a stage that fails and nowhere else.

* `Response`: what one call of a stage's function asks for; `DoFn.responding` is the stage's
  function that answers so.
* `Sequential`: what processing the elements one at a time comes to; `Sequential.unique`: it comes
  to one thing.
* `joinChunks_runChunk`: workers on several chunks emit and end as one worker on all elements.
* `evaluateParDo_sequential`: a stage leaves what processing its elements one at a time comes to;
  `evaluateParDo_ok`: what a stage with an output leaves.
-/

namespace CheckedFlow

variable {α β : Type}

/-! ## Calls of a stage's function -/

/-- A value that a stage's function emits, in the window of the element that is processed. -/
structure Emission (β : Type) where
  value : β
  /-- The timestamp of the value, if it is not that of the element. -/
  timestamp? : Option Timestamp := none

/-- What one call of a stage's function asks for. -/
structure Response (β : Type) where
  effects : List Effect := []
  emissions : List (Emission β) := []
  ending : Ending := .done

/-- The element that an emission makes. -/
def Surroundings.emission (s : Surroundings) (e : Emission β) : Windowed β :=
  match e.timestamp? with
  | none => s.emit e.value
  | some t => s.emitAt e.value t

theorem Surroundings.emission_eq (s : Surroundings) (e : Emission β) :
    s.emission e = ⟨e.value, e.timestamp?.getD s.timestamp, s.window⟩ := by
  obtain ⟨value, timestamp⟩ := e
  cases timestamp <;> rfl

/-- The stage's function with the responses `f`. -/
def DoFn.responding (f : Surroundings → α → Response β) : DoFn α β := fun s x =>
  ⟨(f s x).effects, (f s x).emissions.map s.emission, (f s x).ending⟩

/-- The elements that a response to `x` emits. -/
def Response.outputs (r : Response β) (x : Windowed α) : List (Windowed β) :=
  r.emissions.map fun e => ⟨e.value, e.timestamp?.getD x.timestamp, x.window⟩

/-! ## The elements in their order -/

/-- What processing elements one at a time comes to, if `f` says how each of them is responded to:
all that they emit, in their order, or the error of the first one that fails. -/
inductive Sequential (stage : String) (f : Windowed α → Response β) :
    List (Windowed α) → Except PipelineError (List (Windowed β)) → Prop
  | done {xs : List (Windowed α)} (h : ∀ x ∈ xs, (f x).ending = .done) :
      Sequential stage f xs (.ok (xs.flatMap fun x => (f x).outputs x))
  | failed {before after : List (Windowed α)} {x : Windowed α} {e : PipelineError}
      (h : ∀ y ∈ before, (f y).ending = .done) (hx : (f x).ending = .failed e) :
      Sequential stage f (before ++ x :: after) (.error e)
  | panicked {before after : List (Windowed α)} {x : Windowed α}
      (h : ∀ y ∈ before, (f y).ending = .done) (hx : (f x).ending = .panicked) :
      Sequential stage f (before ++ x :: after) (.error (.internal (.workerStopped stage)))

/-- An element that is done in front of others. -/
theorem Sequential.cons {stage : String} {f : Windowed α → Response β} {x : Windowed α}
    {xs : List (Windowed α)} {r : Except PipelineError (List (Windowed β))}
    (hx : (f x).ending = .done) (h : Sequential stage f xs r) :
    Sequential stage f (x :: xs) (r.map ((f x).outputs x ++ ·)) := by
  have hcons : ∀ {ys : List (Windowed α)}, (∀ y ∈ ys, (f y).ending = .done) →
      ∀ y ∈ x :: ys, (f y).ending = .done := by
    intro ys hys y hy
    rcases List.mem_cons.mp hy with rfl | hy
    · exact hx
    · exact hys y hy
  cases h with
  | done h => exact .done (hcons h)
  | @failed before after y e h hy =>
    have hall := hcons h
    exact @Sequential.failed α β stage f (x :: before) after y e hall hy
  | @panicked before after y h hy =>
    have hall := hcons h
    exact @Sequential.panicked α β stage f (x :: before) after y hall hy

/-! ## Several workers and one -/

/-- What a worker does who goes on with `rest` if `first` ended well. -/
def Processed.andThen (first rest : Processed β) : Processed β :=
  match first.ending with
  | .done => ⟨first.effects ++ rest.effects, first.emitted ++ rest.emitted, rest.ending⟩
  | _ => first

theorem Processed.andThen_done {first : Processed β} (h : first.ending = .done)
    (rest : Processed β) :
    first.andThen rest =
      ⟨first.effects ++ rest.effects, first.emitted ++ rest.emitted, rest.ending⟩ := by
  rw [andThen, h]

theorem Processed.andThen_of_ne {first : Processed β} (h : first.ending ≠ .done)
    (rest : Processed β) : first.andThen rest = first := by
  rw [andThen]
  split
  · rename_i hd
    exact absurd hd h
  · rfl

theorem Processed.andThen_assoc (p q r : Processed β) :
    (p.andThen q).andThen r = p.andThen (q.andThen r) := by
  by_cases hp : p.ending = .done
  · by_cases hq : q.ending = .done
    · simp [andThen, hp, hq]
    · rw [andThen_of_ne hq, andThen_of_ne (by rwa [andThen_done hp])]
  · rw [andThen_of_ne hp, andThen_of_ne hp, andThen_of_ne hp]

variable {f : Windowed α → Processed β}

theorem runChunk_cons (x : Windowed α) (xs : List (Windowed α)) :
    runChunk f (x :: xs) = (f x).andThen (runChunk f xs) := rfl

/-- A worker who fails in the first part of a chunk never gets to the second. -/
theorem runChunk_append (xs ys : List (Windowed α)) :
    runChunk f (xs ++ ys) = (runChunk f xs).andThen (runChunk f ys) := by
  induction xs with
  | nil => rfl
  | cons x xs ih =>
    rw [List.cons_append, runChunk_cons, runChunk_cons, ih, Processed.andThen_assoc]

/-- A worker ends well only if all its elements do. -/
theorem runChunk_ending_done {xs : List (Windowed α)} (h : (runChunk f xs).ending = .done) :
    ∀ x ∈ xs, (f x).ending = .done := by
  induction xs with
  | nil => exact fun x hx => nomatch hx
  | cons x xs ih =>
    rw [runChunk_cons] at h
    have hx : (f x).ending = .done := Classical.byContradiction fun hne =>
      hne (by rwa [Processed.andThen_of_ne hne] at h)
    rw [Processed.andThen_done hx] at h
    intro y hy
    rcases List.mem_cons.mp hy with rfl | hy
    · exact hx
    · exact ih h y hy

/-- The effects of a worker are those of elements of the chunk. -/
theorem runChunk_mem_effects {xs : List (Windowed α)} {eff : Effect}
    (h : eff ∈ (runChunk f xs).effects) : ∃ x ∈ xs, eff ∈ (f x).effects := by
  induction xs with
  | nil => cases h
  | cons x xs ih =>
    rw [runChunk_cons] at h
    by_cases hx : (f x).ending = .done
    · rw [Processed.andThen_done hx] at h
      rcases List.mem_append.mp h with h | h
      · exact ⟨x, List.mem_cons_self, h⟩
      · obtain ⟨y, hy, hfy⟩ := ih h
        exact ⟨y, List.mem_cons_of_mem x hy, hfy⟩
    · rw [Processed.andThen_of_ne hx] at h
      exact ⟨x, List.mem_cons_self, h⟩

/-- Workers on several chunks emit and end as one worker on all elements would. -/
theorem joinChunks_runChunk (chunks : List (List (Windowed α))) :
    (joinChunks (chunks.map (runChunk f))).emitted = (runChunk f chunks.flatten).emitted ∧
      (joinChunks (chunks.map (runChunk f))).ending = (runChunk f chunks.flatten).ending := by
  induction chunks with
  | nil => exact ⟨rfl, rfl⟩
  | cons chunk chunks ih =>
    rw [List.map_cons, List.flatten_cons, joinChunks, runChunk_append]
    by_cases h : (runChunk f chunk).ending = .done
    · rw [Processed.andThen_done h, ← ih.1, ← ih.2]
      simp only [h, and_self]
    · rw [Processed.andThen_of_ne h]
      split
      · rename_i hd
        exact absurd hd h
      · exact ⟨rfl, rfl⟩

/-- The number of workers shows neither in what a stage emits nor in how it ends. -/
theorem processInChunks_runChunk (workers : Nat) (xs : List (Windowed α)) :
    (processInChunks workers f xs).emitted = (runChunk f xs).emitted ∧
      (processInChunks workers f xs).ending = (runChunk f xs).ending := by
  have h := joinChunks_runChunk (f := f) (chunksOf (chunkSize xs.length workers) xs)
  rwa [flatten_chunksOf] at h

/-- What processing is reported as: the elements that were emitted, or an error. -/
def Processed.report (stage : String) (p : Processed β) :
    Except PipelineError (List (Windowed β)) :=
  match p.ending with
  | .done => .ok p.emitted
  | .failed e => .error e
  | .panicked => .error (.internal (.workerStopped stage))

theorem Processed.report_andThen {stage : String} {first : Processed β} (h : first.ending = .done)
    (rest : Processed β) :
    (first.andThen rest).report stage = (rest.report stage).map (first.emitted ++ ·) := by
  rw [andThen_done h, report, report]
  cases rest.ending <;> rfl

/-- The processing of an element that is responded to by `r`. -/
def Response.processed (r : Response β) (x : Windowed α) : Processed β :=
  ⟨r.effects, r.outputs x, r.ending⟩

/-- A worker emits and ends as the elements do one at a time. -/
theorem sequential_runChunk (stage : String) (f : Windowed α → Response β)
    (xs : List (Windowed α)) :
    Sequential stage f xs ((runChunk (fun x => (f x).processed x) xs).report stage) := by
  induction xs with
  | nil => exact .done (by simp)
  | cons x xs ih =>
    rw [runChunk_cons]
    cases h : (f x).ending with
    | done =>
      rw [Processed.report_andThen h]
      exact ih.cons h
    | failed e =>
      rw [Processed.andThen_of_ne (by simp [Response.processed, h]), Processed.report,
        Response.processed, h]
      exact @Sequential.failed α β stage f [] xs x e (by simp) h
    | panicked =>
      rw [Processed.andThen_of_ne (by simp [Response.processed, h]), Processed.report,
        Response.processed, h]
      exact @Sequential.panicked α β stage f [] xs x (by simp) h

/-- A worker is stopped by the first element that does not end well. -/
theorem runChunk_stopped {before after : List (Windowed α)} {x : Windowed α}
    (h : ∀ y ∈ before, (f y).ending = .done) (hx : (f x).ending ≠ .done) :
    (runChunk f (before ++ x :: after)).ending = (f x).ending := by
  rw [runChunk_append, Processed.andThen_done (by rw [runChunk_done h]), runChunk_cons,
    Processed.andThen_of_ne hx]

/-- Processing elements one at a time comes to one thing. -/
theorem Sequential.unique {stage : String} {f : Windowed α → Response β} {xs : List (Windowed α)}
    {r r' : Except PipelineError (List (Windowed β))} (h : Sequential stage f xs r)
    (h' : Sequential stage f xs r') : r = r' := by
  suffices hreport : ∀ {r}, Sequential stage f xs r →
      r = (runChunk (fun x => (f x).processed x) xs).report stage from
    (hreport h).trans (hreport h').symm
  intro r hr
  cases hr with
  | done hall => rw [runChunk_done hall]; rfl
  | @failed before after x e hall hx =>
    rw [Processed.report, runChunk_stopped hall (by simp [Response.processed, hx])]
    simp only [Response.processed, hx]
  | @panicked before after x hall hx =>
    rw [Processed.report, runChunk_stopped hall (by simp [Response.processed, hx])]
    simp only [Response.processed, hx]

/-! ## Stages -/

/-- The output of a stage whose elements came to `r`, or the reason why it has none. -/
def outputOf (k : Kind) : Except PipelineError (List (Windowed k.Value)) → Except Stop Output
  | .ok items => .ok (.elements k items)
  | .error e => .error (.failed e)

theorem Processed.output_eq (k : Kind) (stage : String) (p : Processed k.Value) :
    p.output stage = outputOf k (p.report stage) := by
  rw [output, report]
  cases p.ending <;> rfl

/-- The number of workers does not show in what a stage reports. -/
theorem processInChunks_report (stage : String) (workers : Nat) (xs : List (Windowed α)) :
    (processInChunks workers f xs).report stage = (runChunk f xs).report stage := by
  have h := processInChunks_runChunk (f := f) workers xs
  rw [Processed.report, Processed.report, h.1, h.2]

/-- With any number of workers whose tasks can be listed, a stage leaves what processing its
elements one at a time comes to. -/
theorem evaluateParDo_sequential {source target : Kind} {options : PipelineOptions}
    (hfit : options.FitsTasks) (stage : String)
    (f : Surroundings → source.Value → Response target.Value)
    (sideInputs : List (NodeId × Output)) (items : List (Windowed source.Value)) :
    ∃ r, Sequential stage (fun x => f (surround options stage sideInputs x) x.value) items r ∧
      (evaluateParDo options stage (.responding f) sideInputs items).result = outputOf target r := by
  have hf : (fun x => DoFn.responding f (surround options stage sideInputs x) x.value) =
      fun x => (f (surround options stage sideInputs x) x.value).processed x := by
    funext x
    exact congrArg (Processed.mk _ · _) (List.map_congr_left fun e _ =>
      Surroundings.emission_eq _ e)
  refine ⟨_, sequential_runChunk stage _ items, ?_⟩
  rw [evaluateParDo_fits hfit, hf]
  exact (Processed.output_eq ..).trans (congrArg _ (processInChunks_report ..))

/-- The elements of a stage that has an output all ended well, and it leaves what they emit. -/
theorem evaluateParDo_ok {source target : Kind} {options : PipelineOptions} {stage : String}
    {doFn : DoFn source.Value target.Value} {sideInputs : List (NodeId × Output)}
    {items : List (Windowed source.Value)} {o : Output}
    (h : (evaluateParDo options stage doFn sideInputs items).result = .ok o) :
    (∀ x ∈ items, (doFn (surround options stage sideInputs x) x.value).ending = .done) ∧
      o = .elements target (items.flatMap fun x =>
        (doFn (surround options stage sideInputs x) x.value).emitted) := by
  have hfit : options.FitsTasks := evaluateParDo_ok_fits h
  have hdone : ∀ x ∈ items,
      (doFn (surround options stage sideInputs x) x.value).ending = .done := by
    refine runChunk_ending_done ?_
    simp only [evaluateParDo_fits hfit, Processed.output_eq, processInChunks_report] at h
    rw [Processed.report] at h
    split at h
    · assumption
    · cases h
    · cases h
  rw [evaluateParDo_done hfit hdone] at h
  exact ⟨hdone, (Except.ok.inj h).symm⟩

end CheckedFlow
