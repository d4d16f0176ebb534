import CheckedFlow.Proofs.Run.Parallelism
import CheckedFlow.Script.Step

/-!
# How many workers can be asked for

A stage lists a task for each worker that the options ask for before it cuts its elements into
chunks. Everything that is computed from the number of elements stays in range for any number of
workers: the length of the chunks, their bounds, and the number of chunks, which is no greater than
that of the workers. Only the list itself may not: it is as long as the options say, however few
elements there are, and validation of options has no upper bound on the number of workers. A stage
whose list cannot be made takes the whole run down, and with it the script that asked for the run.

* `Cuts`: the bounds of chunks as they are computed in words, each sum in range. `exists_cuts`: they
  are computed to the end, and the slices between them are the chunks.
* `DoFn.Calm`: a function that never panics; `evaluateParDo_calm`: a stage with such a function.
* `Pipeline.run_none_iff`: the runs that do not return. `Script.World.answers_eq_none_iff`: the scripts
  that have no answer.
* `parDo_returns_iff`: a stage of valid options returns exactly if its tasks can be listed.
* `parDo_lists_tasks`: valid options with which a stage does not return.
-/

namespace CheckedFlow

variable {α β : Type}

/-! ## Bounds of chunks -/

/-- The quotient of words, rounded up. -/
def ceilDiv (n d : UInt64) : UInt64 := if n % d = 0 then n / d else n / d + 1

/-- The length of the chunks of `total` elements for some workers, in words. -/
def chunkWords (total workers : UInt64) : UInt64 := max (ceilDiv total workers) 1

/-- From `start` on, the bounds of chunks of `size` out of `total` elements are computed to their
end, and the sums that they are computed from are in range. -/
inductive Cuts (size total : UInt64) : UInt64 → List (UInt64 × UInt64) → Prop
  | done {start : UInt64} (h : total ≤ start) : Cuts size total start []
  | next {start : UInt64} {rest : List (UInt64 × UInt64)} (h : start < total)
      (hsum : start.toNat + size.toNat < UInt64.size)
      (tail : Cuts size total (min (start + size) total) rest) :
      Cuts size total start ((start, min (start + size) total) :: rest)

/-- The elements between two bounds. -/
def slice (xs : List α) (c : UInt64 × UInt64) : List α :=
  (xs.drop c.1.toNat).take (c.2.toNat - c.1.toNat)

/-- The sum of a quotient that was rounded up is in range. -/
theorem toNat_ceilDiv {n d : UInt64} (hd : 0 < d.toNat) :
    (ceilDiv n d).toNat = (n.toNat + d.toNat - 1) / d.toNat := by
  have hdiv := Nat.div_add_mod n.toNat d.toNat
  have hlt := Nat.mod_lt n.toNat hd
  rw [ceilDiv]
  by_cases h : n.toNat % d.toNat = 0
  · have hn : n.toNat + d.toNat - 1 = d.toNat - 1 + d.toNat * (n.toNat / d.toNat) := by omega
    have hzero : (d.toNat - 1) / d.toNat = 0 := Nat.div_eq_of_lt (by omega)
    rw [if_pos (UInt64.toNat.inj (by simpa using h)), UInt64.toNat_div, hn,
      Nat.add_mul_div_left _ _ hd, hzero, Nat.zero_add]
  · have hn : n.toNat + d.toNat - 1 =
        n.toNat % d.toNat - 1 + d.toNat * (n.toNat / d.toNat + 1) := by
      rw [Nat.mul_add_one]
      omega
    -- A remainder needs a divisor of at least two, which halves the quotient.
    have hrange : n.toNat / d.toNat + 1 < 2 ^ 64 := by
      have htwo : n.toNat / d.toNat ≤ n.toNat / 2 :=
        Nat.div_le_div_left (by omega) (by decide)
      have := n.toNat_lt
      omega
    have hzero : (n.toNat % d.toNat - 1) / d.toNat = 0 := Nat.div_eq_of_lt (by omega)
    rw [if_neg fun h0 => h (by simpa using congrArg UInt64.toNat h0), UInt64.toNat_add,
      UInt64.toNat_div, UInt64.toNat_one, Nat.mod_eq_of_lt hrange, hn,
      Nat.add_mul_div_left _ _ hd, hzero, Nat.zero_add]

theorem toNat_max (a b : UInt64) : (max a b).toNat = max a.toNat b.toNat := by
  change (if a ≤ b then b else a).toNat = _
  rw [max_def, apply_ite UInt64.toNat]
  rfl

theorem toNat_min (a b : UInt64) : (min a b).toNat = min a.toNat b.toNat := by
  change (if a ≤ b then a else b).toNat = _
  rw [min_def, apply_ite UInt64.toNat]
  rfl

theorem toNat_chunkWords {total workers : UInt64} (hw : 0 < workers.toNat) :
    (chunkWords total workers).toNat = chunkSize total.toNat workers.toNat := by
  rw [chunkWords, toNat_max, toNat_ceilDiv hw, UInt64.toNat_one, chunkSize]

/-- A chunk is no longer than all elements together, and that many chunks as there are workers
hold all elements. -/
theorem chunkSize_bounds {total workers : Nat} (hw : 0 < workers) (ht : 0 < total) :
    chunkSize total workers ≤ total ∧ total ≤ workers * chunkSize total workers := by
  have hle : (total + workers - 1) / workers ≤ total := by
    have h := Nat.div_le_div_right (c := workers) (show total + workers - 1 ≤ total * workers by
      obtain ⟨t, rfl⟩ := Nat.exists_eq_succ_of_ne_zero (Nat.ne_of_gt ht)
      obtain ⟨w, rfl⟩ := Nat.exists_eq_succ_of_ne_zero (Nat.ne_of_gt hw)
      simp only [Nat.succ_eq_add_one, Nat.add_mul, Nat.mul_add]
      omega)
    rwa [Nat.mul_div_cancel _ hw] at h
  have hceil : total ≤ workers * ((total + workers - 1) / workers) := by
    have hdiv := Nat.div_add_mod (total + workers - 1) workers
    have hlt := Nat.mod_lt (total + workers - 1) hw
    omega
  exact ⟨max_le hle ht, hceil.trans (Nat.mul_le_mul_left _ (le_max_left _ _))⟩

theorem chunksOf_eq {n : Nat} (hn : 0 < n) {xs : List α} (hxs : xs ≠ []) :
    chunksOf n xs = xs.take n :: chunksOf n (xs.drop n) := by
  obtain ⟨n, rfl⟩ := Nat.exists_eq_succ_of_ne_zero (Nat.ne_of_gt hn)
  cases xs with
  | nil => exact absurd rfl hxs
  | cons x xs => rw [chunksOf]; rfl

/-- From any start on, bounds of chunks are computed to the end, if no chunk is longer than all
elements and the number of elements is in the range of lists. -/
theorem exists_cuts_from {xs : List α} {size total : UInt64} (htotal : total.toNat = xs.length)
    (hmemory : xs.length ≤ mostListBytes) (hsize : 0 < size.toNat)
    (hle : 0 < xs.length → size.toNat ≤ xs.length) (start : UInt64)
    (hstart : start.toNat ≤ xs.length) :
    ∃ cuts, Cuts size total start cuts ∧
      cuts.map (slice xs) = chunksOf size.toNat (xs.drop start.toNat) ∧
      cuts.length * size.toNat < xs.length - start.toNat + size.toNat := by
  rw [mostListBytes] at hmemory
  induction hn : xs.length - start.toNat using Nat.strong_induction_on generalizing start with
  | _ n ih =>
    obtain hend | hnext := Nat.eq_or_lt_of_le hstart
    · refine ⟨[], .done (UInt64.le_iff_toNat_le.mpr (by omega)), ?_, by simp; omega⟩
      rw [hend, List.drop_length, chunksOf, List.map_nil]
    · have hsum : start.toNat + size.toNat < UInt64.size := by
        have := hle (by omega)
        rw [show UInt64.size = 18446744073709551616 from rfl]
        omega
      have hstop : (min (start + size) total).toNat = min (start.toNat + size.toNat) xs.length := by
        rw [toNat_min, UInt64.toNat_add, Nat.mod_eq_of_lt hsum, htotal]
      obtain ⟨cuts, hcuts, hslices, hlen⟩ := ih _ (by omega) (min (start + size) total)
        (by rw [hstop]; exact min_le_right _ _) rfl
      refine ⟨_, .next (UInt64.lt_iff_toNat_lt.mpr (by omega)) hsum hcuts, ?_, ?_⟩
      · have hne : xs.drop start.toNat ≠ [] := by
          rw [Ne, List.drop_eq_nil_iff]
          omega
        rw [chunksOf_eq hsize hne, List.map_cons, hslices, slice, hstop, List.drop_drop]
        congr 1
        · rw [List.take_eq_take_iff, List.length_drop]
          dsimp only
          omega
        · rcases Nat.le_total (start.toNat + size.toNat) xs.length with h | h
          · rw [min_eq_left h]
          · rw [min_eq_right h, List.drop_length, List.drop_eq_nil_of_le h]
      · rw [hstop] at hlen
        rw [List.length_cons, Nat.add_mul]
        rcases Nat.le_total (start.toNat + size.toNat) xs.length with h | h
        · rw [min_eq_left h] at hlen
          omega
        · rw [min_eq_right h, Nat.sub_self, Nat.zero_add] at hlen
          have hzero : cuts.length < 1 :=
            Nat.lt_of_mul_lt_mul_right (a := size.toNat) (by rwa [Nat.one_mul])
          rw [Nat.lt_one_iff.mp hzero]
          omega

/-- The bounds of the chunks are computed to the end for any number of workers; there are no more
chunks than workers, and the slices between the bounds are the chunks. -/
theorem exists_cuts {xs : List α} {total workers : UInt64} (htotal : total.toNat = xs.length)
    (hmemory : xs.length ≤ mostListBytes) (hw : 0 < workers.toNat) :
    ∃ cuts, Cuts (chunkWords total workers) total 0 cuts ∧
      cuts.map (slice xs) = chunksOf (chunkSize xs.length workers.toNat) xs ∧
      cuts.length ≤ workers.toNat := by
  have hsize : (chunkWords total workers).toNat = chunkSize xs.length workers.toNat := by
    rw [toNat_chunkWords hw, htotal]
  have hpos : 0 < chunkSize xs.length workers.toNat := Nat.lt_of_lt_of_le one_pos (le_max_right _ _)
  obtain ⟨cuts, hcuts, hslices, hlen⟩ := exists_cuts_from htotal hmemory (hsize ▸ hpos)
    (fun h => hsize ▸ (chunkSize_bounds hw h).1) 0 (Nat.zero_le _)
  rw [hsize] at hslices hlen
  refine ⟨cuts, hcuts, hslices, ?_⟩
  obtain hempty | hne := Nat.eq_zero_or_pos xs.length
  · rw [List.length_eq_zero_iff.mp hempty] at hslices
    rw [List.map_eq_nil_iff.mp (hslices.trans (by rw [List.drop_nil, chunksOf]))]
    exact Nat.zero_le _
  · have hall := (chunkSize_bounds hw hne).2
    refine Nat.lt_succ_iff.mp (Nat.lt_of_mul_lt_mul_right
      (a := chunkSize xs.length workers.toNat) (Nat.lt_of_lt_of_le hlen ?_))
    rw [Nat.succ_mul]
    exact Nat.add_le_add_right ((Nat.sub_le _ _).trans hall) _

/-! ## Stages -/

/-- A function that never panics. -/
def DoFn.Calm (doFn : DoFn α β) : Prop := ∀ s x, (doFn s x).ending ≠ .panicked

/-- A worker ends well or as one of its elements does. -/
theorem runChunk_ending (f : Windowed α → Processed β) (xs : List (Windowed α)) :
    (runChunk f xs).ending = .done ∨ ∃ x ∈ xs, (f x).ending = (runChunk f xs).ending := by
  induction xs with
  | nil => exact .inl rfl
  | cons x xs ih =>
    rw [runChunk_cons]
    by_cases hx : (f x).ending = .done
    · rw [Processed.andThen_done hx]
      exact ih.imp_right fun ⟨y, hy, hending⟩ => ⟨y, List.mem_cons_of_mem x hy, hending⟩
    · rw [Processed.andThen_of_ne hx]
      exact .inr ⟨x, List.mem_cons_self, rfl⟩

/-- The operation processes elements and finds its inputs. -/
def Operation.ListsTasks (stage : String) (outputs : Outputs) : Operation → Prop
  | parDo source _ input declared _ =>
    ∃ inputs, outputs.inputs source input declared stage = .ok inputs
  | _ => False

variable {options : PipelineOptions} {source target : Kind}

/-- A stage whose tasks can be listed and whose function never panics has an output, or the error of
one of its elements. -/
theorem evaluateParDo_calm {doFn : DoFn source.Value target.Value} (hcalm : doFn.Calm)
    (hfit : options.FitsTasks) (stage : String) (sideInputs : List (NodeId × Output))
    (items : List (Windowed source.Value)) :
    let e := evaluateParDo options stage doFn sideInputs items
    (∃ emitted, e.result = .ok (.elements target emitted)) ∨
      ∃ x ∈ items, ∃ error,
        (doFn (surround options stage sideInputs x) x.value).ending = .failed error ∧
        e.result = .error (.failed error) := by
  simp only [evaluateParDo_fits hfit, Processed.output_eq, processInChunks_report]
  obtain hdone | ⟨x, hx, hending⟩ := runChunk_ending
    (fun x => doFn (surround options stage sideInputs x) x.value) items
  · exact .inl ⟨_, by rw [Processed.report, hdone]; rfl⟩
  · cases hr : (runChunk (fun x => doFn (surround options stage sideInputs x) x.value)
        items).ending with
    | done => exact .inl ⟨_, by rw [Processed.report, hr]; rfl⟩
    | failed error =>
      rw [hr] at hending
      exact .inr ⟨x, hx, error, hending, by rw [Processed.report, hr]; rfl⟩
    | panicked =>
      rw [hr] at hending
      exact absurd hending (hcalm _ _)

/-- A stage takes the run down exactly if it has to list tasks and cannot. -/
theorem Operation.evaluate_crashed_iff (op : Operation) (stage : String) (outputs : Outputs) :
    (op.evaluate options stage outputs).result = .error .crashed ↔
      ¬ options.FitsTasks ∧ op.ListsTasks stage outputs := by
  constructor
  · intro h
    have hfit : ¬ options.FitsTasks := fun hfit => op.evaluate_ne_crashed hfit stage outputs h
    have hpure (r : Except PipelineError Output) : (Evaluated.pure r).result ≠ .error .crashed := by
      cases r <;> nofun
    refine ⟨hfit, ?_⟩
    cases op with
    | parDo source target input declared doFn =>
      rw [evaluate_parDo] at h
      cases hin : outputs.inputs source input declared stage with
      | error e => rw [hin] at h; exact absurd h (hpure _)
      | ok inputs => exact ⟨inputs, hin⟩
    | _ => exact absurd h (hpure _)
  · rintro ⟨hfit, hop⟩
    cases op with
    | parDo source target input declared doFn =>
      obtain ⟨⟨items, sideInputs⟩, hin⟩ := hop
      rw [evaluate_parDo, hin]
      exact congrArg Evaluated.result (if_neg hfit)
    | _ => exact hop.elim

/-! ## Runs -/

/-- The stage that ends a run by a stop of its own. -/
theorem runStages_stop_iff {ss : List Stage} {s : RunState} {stop : Stop} :
    (runStages options ss s).2 = some stop ↔
      ∃ before stage after s', ss = before ++ stage :: after ∧
        runStages options before s = (s', none) ∧
        (stage.operation.evaluate options stage.name s'.outputs).result = .error stop := by
  constructor
  · induction ss generalizing s with
    | nil => nofun
    | cons stage ss ih =>
      intro h
      simp only [runStages] at h
      split at h
      · rename_i o hresult
        obtain ⟨before, last, after, s', rfl, hbefore, hlast⟩ := ih h
        refine ⟨stage :: before, last, after, s', rfl, ?_, hlast⟩
        simp only [runStages, hresult, hbefore]
      · rename_i stop' hresult
        cases h
        exact ⟨[], stage, ss, s, rfl, rfl, hresult⟩
  · rintro ⟨before, stage, after, s', rfl, hbefore, hstop⟩
    rw [runStages_append_ok hbefore]
    simp only [runStages, hstop]

theorem Pipeline.run_none_iff {p : Pipeline} {g : Graph} :
    (p.run g).1 = none ↔ (runStages p.options g.stages { graph := g }).2 = some .crashed := by
  rw [run_report]
  cases (runStages p.options g.stages { graph := g }).2 with
  | none => simp [report]
  | some stop => cases stop <;> simp [report]

/-! ## Scripts -/

namespace Script.World

variable {w : World} {step : Step}

/-- The world that some steps leave. -/
def after (w : World) (steps : List Step) : World :=
  steps.foldl (fun w step => (step.play w).2) w

theorem answers_crashed (h : (step.play w).1 = .crashed) (steps : List Step) :
    w.answers (step :: steps) = none := by
  obtain ⟨w', hplay⟩ : ∃ w', step.play w = (.crashed, w') := ⟨_, Prod.ext h rfl⟩
  simp only [answers, hplay]

theorem answers_cons (h : (step.play w).1 ≠ .crashed) (steps : List Step) :
    w.answers (step :: steps) =
      ((step.play w).2.answers steps).map ((step.play w).1 :: ·) := by
  rw [answers]
  split
  · rename_i hplay
    exact absurd (congrArg Prod.fst hplay) h
  · rename_i hplay
    rw [hplay]
    exact bind_pure_comp ..

/-- A script has no answer exactly if one of its steps is a run that panics. -/
theorem answers_eq_none_iff {steps : List Step} :
    w.answers steps = none ↔ ∃ before step after, steps = before ++ step :: after ∧
      (step.play (w.after before)).1 = .crashed := by
  induction steps generalizing w with
  | nil => simp [answers]
  | cons step steps ih =>
    by_cases hcrash : (step.play w).1 = .crashed
    · exact ⟨fun _ => ⟨[], step, steps, rfl, hcrash⟩, fun _ => answers_crashed hcrash steps⟩
    · rw [answers_cons hcrash, Option.map_eq_none_iff, ih]
      constructor
      · rintro ⟨before, last, after, rfl, hlast⟩
        exact ⟨step :: before, last, after, rfl, hlast⟩
      · rintro ⟨before, last, after, hsteps, hlast⟩
        cases before with
        | nil =>
          cases hsteps
          exact absurd hlast hcrash
        | cons first before =>
          cases hsteps
          exact ⟨before, last, after, rfl, hlast⟩

end Script.World

/-! ## Valid options -/

theorem PipelineOptions.workers_pos (h : options.validate = .ok ()) :
    0 < options.parallelism.toNat := by
  refine Nat.pos_of_ne_zero fun hzero => ?_
  rw [validate, if_pos (UInt64.toNat.inj hzero : options.parallelism = 0)] at h
  split at h <;> cases h

/-- With options that passed validation, the bounds of chunks are computed in range for any number
of workers, and there are no more chunks than workers; a stage takes the run down exactly if the
list of its tasks, one for each worker, does not fit in memory. Every other stage has an output or
the error of an element, and every other run a report. -/
theorem parDo_returns_iff {p : Pipeline} (hvalid : p.options.validate = .ok ()) :
    let workers := p.options.parallelism
    (∀ (α : Type) (xs : List α) (total : UInt64), total.toNat = xs.length →
      xs.length ≤ mostListBytes →
      ∃ cuts, Cuts (chunkWords total workers) total 0 cuts ∧
        cuts.map (slice xs) = chunksOf (chunkSize xs.length workers.toNat) xs ∧
        cuts.length ≤ workers.toNat) ∧
    (∀ (source target : Kind) (input : NodeId) (declared : List SideInput)
      (doFn : DoFn source.Value target.Value) (stage : String) (outputs : Outputs)
      (items : List (Windowed source.Value)) (sideInputs : List (NodeId × Output)),
      doFn.Calm → outputs.inputs source input declared stage = .ok (items, sideInputs) →
      let e := (Operation.parDo source target input declared doFn).evaluate p.options stage outputs
      (e.result = .error .crashed ↔ mostListBytes < 8 * workers.toNat) ∧
      (8 * workers.toNat ≤ mostListBytes →
        (∃ emitted, e.result = .ok (.elements target emitted)) ∨
          ∃ x ∈ items, ∃ error,
            (doFn (surround p.options stage sideInputs x) x.value).ending = .failed error ∧
            e.result = .error (.failed error))) ∧
    (∀ g : Graph, (p.run g).1 = none ↔ mostListBytes < 8 * workers.toNat ∧
      ∃ before stage after s, g.stages = before ++ stage :: after ∧
        runStages p.options before { graph := g } = (s, none) ∧
        stage.operation.ListsTasks stage.name s.outputs) := by
  have hpos := PipelineOptions.workers_pos hvalid
  have hfits : p.options.FitsTasks ↔ 8 * p.options.parallelism.toNat ≤ mostListBytes := by
    rw [PipelineOptions.FitsTasks, tasksFit, max_eq_left hpos, decide_eq_true_iff]
  refine ⟨fun α xs total htotal hmemory => exists_cuts htotal hmemory hpos, ?_, fun g => ?_⟩
  · intro source target input declared doFn stage outputs items sideInputs hcalm hin
    refine ⟨?_, fun hfit => ?_⟩
    · rw [Operation.evaluate_crashed_iff, hfits, Nat.not_le]
      exact and_iff_left ⟨_, hin⟩
    · have h := evaluateParDo_calm hcalm (hfits.mpr hfit) stage sideInputs items
      rw [evaluate_parDo, hin]
      exact h
  · simp only [Pipeline.run_none_iff, runStages_stop_iff, Operation.evaluate_crashed_iff, hfits,
      Nat.not_le]
    constructor
    · rintro ⟨before, stage, after, s, hss, hrun, hfit, hlists⟩
      exact ⟨hfit, before, stage, after, s, hss, hrun, hlists⟩
    · rintro ⟨hfit, before, stage, after, s, hss, hrun, hlists⟩
      exact ⟨before, stage, after, s, hss, hrun, hfit, hlists⟩

/-- A million workers for a stage of two elements: a chunk for each element, and a run with a
report. -/
theorem parDo_returns_iff_echo :
    let p : Pipeline := ⟨0, { parallelism := 1000000 }⟩
    p.options.validate = .ok () ∧
    (∃ cuts, Cuts 1 2 0 cuts ∧ cuts.map (slice [false, true]) = [[false], [true]]) ∧
    (p.run echoGraph).1 ≠ none := by
  have hvalid : (PipelineOptions.validate { parallelism := 1000000 }) = .ok () := by
    rfl
  obtain ⟨hcuts, -, hrun⟩ := parDo_returns_iff (p := ⟨0, { parallelism := 1000000 }⟩) hvalid
  refine ⟨hvalid, ?_, fun hnone => ?_⟩
  · obtain ⟨cuts, hcuts, hslices, -⟩ := hcuts Bool [false, true] 2 rfl (by decide)
    exact ⟨cuts, hcuts, hslices.trans (by simp [chunksOf, chunkSize])⟩
  · exact absurd ((hrun echoGraph).mp hnone).1 (by decide)

/-- Builds the source of two elements and a stage that echoes them, and runs it. -/
def echoScript : List Script.Step :=
  [.create "p" "N" "N" .boolean [.boolean false, .boolean true] none .json,
    .parDo "N" "Echo" "Echo" [] .identity, .run "p" []]

/-- So many workers that the list of their tasks is longer than any list in memory: the same stage of
two elements takes the run down, and a script that runs such a stage has no answer. -/
theorem parDo_lists_tasks :
    let p : Pipeline := ⟨0, { parallelism := 0x1000000000000000 }⟩
    p.options.validate = .ok () ∧ (DoFn.responding echo).Calm ∧
    (∃ stage ∈ echoGraph.stages,
      stage.operation = .parDo .boolean .boolean 0 [] (.responding echo)) ∧
    (p.run echoGraph).1 = none ∧
    (Script.World.ofOptions [("p", p.options)]).answers echoScript = none :=
  ⟨rfl, fun _ _ => nofun, ⟨_, List.mem_cons_of_mem _ List.mem_cons_self, rfl⟩, rfl, rfl⟩

end CheckedFlow
