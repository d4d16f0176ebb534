import CheckedFlow.Run.Evaluate

/-!
# Chunks do not show

A stage whose elements all end well does what one worker would do with all of them: how they were
cut into chunks leaves no trace.

* `runChunk_done`: a worker whose elements all end well.
* `joinChunks_done`: workers on several chunks against one worker on all of them.
* `processInChunks_done`, `processInChunks_single`: a stage of elements that all end well, and a
  stage of one element that ends in any way.
* `evaluateParDo_done`, `evaluateParDo_map`: the same for stages of a pipeline whose options let the
  workers' tasks be listed (`PipelineOptions.FitsTasks`).
-/

namespace CheckedFlow

variable {α β : Type} {f : Windowed α → Processed β}

/-- A worker whose elements all end well does what each of them does, in their order. -/
theorem runChunk_done {xs : List (Windowed α)} (h : ∀ x ∈ xs, (f x).ending = .done) :
    runChunk f xs =
      ⟨xs.flatMap fun x => (f x).effects, xs.flatMap fun x => (f x).emitted, .done⟩ := by
  induction xs with
  | nil => rfl
  | cons x xs ih =>
    have hx := h x List.mem_cons_self
    have hxs := ih fun y hy => h y (List.mem_cons_of_mem x hy)
    simp only [runChunk, hx, hxs, List.flatMap_cons]

/-- Workers whose elements all end well leave what one worker would have left. -/
theorem joinChunks_done {chunks : List (List (Windowed α))}
    (h : ∀ x ∈ chunks.flatten, (f x).ending = .done) :
    joinChunks (chunks.map (runChunk f)) = runChunk f chunks.flatten := by
  induction chunks with
  | nil => rfl
  | cons chunk chunks ih =>
    rw [List.flatten_cons] at h
    have hc := runChunk_done fun x hx => h x (List.mem_append_left _ hx)
    have hall := runChunk_done h
    rw [List.flatten_cons, hall, List.map_cons, joinChunks,
      ih fun x hx => h x (List.mem_append_right _ hx),
      runChunk_done fun x hx => h x (List.mem_append_right _ hx), hc]
    simp only [List.flatMap_append]

/-- A stage whose elements all end well does what each of them does, in their order. -/
theorem processInChunks_done {workers : Nat} {xs : List (Windowed α)}
    (h : ∀ x ∈ xs, (f x).ending = .done) :
    processInChunks workers f xs =
      ⟨xs.flatMap fun x => (f x).effects, xs.flatMap fun x => (f x).emitted, .done⟩ := by
  have hf : ∀ x ∈ (chunksOf (chunkSize xs.length workers) xs).flatten, (f x).ending = .done := by
    rwa [flatten_chunksOf]
  rw [processInChunks, joinChunks_done hf, flatten_chunksOf, runChunk_done h]

/-- A stage of one element does what the element does. -/
theorem processInChunks_single (workers : Nat) (x : Windowed α) :
    processInChunks workers f [x] = f x := by
  have hc : chunksOf (chunkSize [x].length workers) [x] = [[x]] := by simp [chunksOf]
  rw [processInChunks, hc]
  simp only [List.map_cons, List.map_nil, joinChunks, runChunk]
  obtain ⟨effects, emitted, ending⟩ := f x
  cases ending <;> simp

theorem runChunk_congr {f' : Windowed α → Processed β} {xs : List (Windowed α)}
    (h : ∀ x ∈ xs, f x = f' x) : runChunk f xs = runChunk f' xs := by
  induction xs with
  | nil => rfl
  | cons x xs ih =>
    rw [runChunk, runChunk, h x List.mem_cons_self,
      ih fun y hy => h y (List.mem_cons_of_mem x hy)]

/-- A stage looks at its own elements only. -/
theorem processInChunks_congr {f' : Windowed α → Processed β} {xs : List (Windowed α)}
    (workers : Nat) (h : ∀ x ∈ xs, f x = f' x) :
    processInChunks workers f xs = processInChunks workers f' xs := by
  rw [processInChunks, processInChunks]
  congr 1
  refine List.map_congr_left fun chunk hc => runChunk_congr fun x hx => h x ?_
  rw [← flatten_chunksOf (chunkSize xs.length workers) xs]
  exact List.mem_flatten_of_mem hc hx

theorem chunksOf_map {γ δ : Type} (n : Nat) (g : γ → δ) (xs : List γ) :
    chunksOf n (xs.map g) = (chunksOf n xs).map (List.map g) := by
  fun_induction chunksOf n xs with
  | case1 => simp [chunksOf]
  | case2 x xs ih => rw [List.map_cons, chunksOf, ← List.map_take, ← List.map_drop, ih]; rfl

theorem runChunk_map {γ : Type} (g : Windowed γ → Windowed α) (xs : List (Windowed γ)) :
    runChunk f (xs.map g) = runChunk (fun x => f (g x)) xs := by
  induction xs with
  | nil => rfl
  | cons x xs ih => rw [List.map_cons, runChunk, runChunk, ih]

/-- Elements that were made of others are processed as the others are. -/
theorem processInChunks_map {γ : Type} (workers : Nat) (g : Windowed γ → Windowed α)
    (xs : List (Windowed γ)) :
    processInChunks workers f (xs.map g) = processInChunks workers (fun x => f (g x)) xs := by
  simp only [processInChunks, List.length_map, chunksOf_map, List.map_map]
  congr 1
  exact List.map_congr_left fun chunk _ => runChunk_map g chunk

/-- All effects of all workers happen. -/
theorem joinChunks_effects (chunks : List (Processed β)) :
    (joinChunks chunks).effects = chunks.flatMap Processed.effects := by
  induction chunks with
  | nil => rfl
  | cons first chunks ih =>
    rw [joinChunks, List.flatMap_cons, ← ih]
    cases first.ending <;> rfl

/-! ## Stages of a pipeline -/

/-- The tasks of the workers of a stage can be listed in memory. -/
def PipelineOptions.FitsTasks (options : PipelineOptions) : Prop :=
  tasksFit (max options.parallelism.toNat 1) = true

/-- What a stage is handed with an element. -/
def surround (options : PipelineOptions) (stage : String) (sideInputs : List (NodeId × Output))
    (x : Windowed α) : Surroundings :=
  ⟨stage, x.timestamp, x.window, options, sideInputs⟩

section Evaluate

variable {source target : Kind} {options : PipelineOptions} {stage : String}
  {sideInputs : List (NodeId × Output)} {items : List (Windowed source.Value)}

theorem evaluateParDo_fits (hfit : options.FitsTasks) (doFn : DoFn source.Value target.Value) :
    evaluateParDo options stage doFn sideInputs items =
      let p := processInChunks (max options.parallelism.toNat 1)
        (fun x => doFn (surround options stage sideInputs x) x.value) items
      ⟨p.effects, p.output stage⟩ := by
  exact if_pos hfit

theorem evaluateParDo_congr {doFn doFn' : DoFn source.Value target.Value}
    {sideInputs' : List (NodeId × Output)}
    (h : ∀ x ∈ items, doFn (surround options stage sideInputs x) x.value =
      doFn' (surround options stage sideInputs' x) x.value) :
    evaluateParDo options stage doFn sideInputs items =
      evaluateParDo options stage doFn' sideInputs' items := by
  by_cases hfit : options.FitsTasks
  · rw [evaluateParDo_fits hfit, evaluateParDo_fits hfit, processInChunks_congr _ h]
  · exact (if_neg hfit).trans (if_neg hfit).symm

/-- A stage that has an output could list its workers' tasks. -/
theorem evaluateParDo_ok_fits {doFn : DoFn source.Value target.Value} {o : Output}
    (h : (evaluateParDo options stage doFn sideInputs items).result = .ok o) :
    options.FitsTasks := by
  by_cases hfit : options.FitsTasks
  · exact hfit
  · have hcrash : (evaluateParDo options stage doFn sideInputs items).result = .error .crashed :=
      congrArg Evaluated.result (if_neg hfit)
    rw [hcrash] at h
    cases h

/-- A stage whose elements all end well has an output. -/
theorem evaluateParDo_done (hfit : options.FitsTasks) {doFn : DoFn source.Value target.Value}
    (h : ∀ x ∈ items, (doFn (surround options stage sideInputs x) x.value).ending = .done) :
    evaluateParDo options stage doFn sideInputs items =
      ⟨items.flatMap fun x => (doFn (surround options stage sideInputs x) x.value).effects,
        .ok (.elements target
          (items.flatMap fun x =>
            (doFn (surround options stage sideInputs x) x.value).emitted))⟩ := by
  rw [evaluateParDo_fits hfit, processInChunks_done h]
  rfl

/-- A stage that emits one element for each keeps their order, timestamps and windows. -/
theorem evaluateParDo_map (hfit : options.FitsTasks) (f : source.Value → target.Value) :
    evaluateParDo options stage (DoFn.map f) sideInputs items =
      { result := .ok (.elements target
          (items.map fun x => ⟨f x.value, x.timestamp, x.window⟩)) } := by
  rw [evaluateParDo_done hfit fun _ _ => rfl, List.map_eq_flatMap]
  have he : (items.flatMap fun x =>
      (DoFn.map f (surround options stage sideInputs x) x.value).effects) = [] :=
    List.flatMap_eq_nil_iff.mpr fun _ _ => rfl
  rw [he]
  rfl

end Evaluate

end CheckedFlow
