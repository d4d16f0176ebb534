import Mathlib.Data.List.Basic

/-!
# Workers that take turns

Several workers have lists of steps to take and share a state. Any worker that has a step left may
take its next one at any time.

* `Team`, `Team.Step`, `Team.Run`: the workers with their shared state, one step, and a run with the
  steps that it took.
* `Run.state`, `Run.perm`: a run performs its steps one after the other, and a run to the end takes
  every step of every worker once.
* `Run.filter`: the steps with one tag are taken in the order in which the worker that has them
  lists them, if the workers' tags are apart.
* `Run.sequential`: one worker after the other is a run.
-/

namespace CheckedFlow

/-- Workers with the steps that they have left, and the state that they share. -/
structure Team (σ α : Type) where
  left : List (List α)
  state : σ

namespace Team

variable {σ α : Type} {perform : σ → α → σ} {t t' : Team σ α} {trace : List α}

/-- One worker takes its next step. -/
inductive Step (perform : σ → α → σ) : Team σ α → α → Team σ α → Prop
  | work (before after : List (List α)) (a : α) (rest : List α) (s : σ) :
      Step perform ⟨before ++ (a :: rest) :: after, s⟩ a ⟨before ++ rest :: after, perform s a⟩

/-- Some steps, by any workers in any order. -/
inductive Run (perform : σ → α → σ) : Team σ α → List α → Team σ α → Prop
  | refl (t : Team σ α) : Run perform t [] t
  | step {t t' t'' : Team σ α} {a : α} {trace : List α} :
      Step perform t a t' → Run perform t' trace t'' → Run perform t (a :: trace) t''

/-- Every worker has taken all of its steps. -/
def Finished (t : Team σ α) : Prop := ∀ w ∈ t.left, w = []

theorem Finished.flatten (h : t.Finished) : t.left.flatten = [] :=
  List.flatten_eq_nil_iff.mpr h

/-- The shared state is what the steps made of it, in the order of the run. -/
theorem Run.state (h : Run perform t trace t') : t'.state = trace.foldl perform t.state := by
  induction h with
  | refl => rfl
  | step hs _ ih =>
    cases hs
    exact ih

theorem Step.perm {a : α} (h : Step perform t a t') :
    t.left.flatten.Perm (a :: t'.left.flatten) := by
  cases h
  simp only [List.flatten_append, List.flatten_cons, List.cons_append]
  exact List.perm_middle

/-- A run takes every step of every worker once. -/
theorem Run.perm (h : Run perform t trace t') (hf : t'.Finished) :
    trace.Perm t.left.flatten := by
  induction h with
  | refl => rw [hf.flatten]
  | step hs _ ih => exact ((ih hf).cons _).trans hs.perm.symm

/-! ## The steps of one tag -/

variable {tag : α → Nat}

/-- No two workers have steps with the same tag. -/
def Apart (tag : α → Nat) (workers : List (List α)) : Prop :=
  workers.Pairwise fun w w' => ∀ a ∈ w, ∀ b ∈ w', tag a ≠ tag b

theorem filter_tag_eq_nil {j : Nat} {workers : List (List α)}
    (h : ∀ w ∈ workers, ∀ b ∈ w, j ≠ tag b) :
    workers.flatten.filter (fun b => tag b = j) = [] := by
  rw [List.filter_eq_nil_iff]
  intro b hb hj
  obtain ⟨w, hw, hbw⟩ := List.mem_flatten.mp hb
  exact h w hw b hbw (of_decide_eq_true hj).symm

/-- A step keeps the tags of the workers apart, and is the first one with its tag. -/
theorem Step.filter {a : α} (h : Step perform t a t') (hapart : Apart tag t.left) :
    Apart tag t'.left ∧ ∀ j, t.left.flatten.filter (fun b => tag b = j) =
      (a :: t'.left.flatten).filter fun b => tag b = j := by
  obtain ⟨before, after, a, rest, s⟩ := h
  unfold Apart at hapart ⊢
  obtain ⟨hbefore, hworker, hcross⟩ := List.pairwise_append.mp hapart
  obtain ⟨hafter, hrest⟩ := List.pairwise_cons.mp hworker
  refine ⟨List.pairwise_append.mpr ⟨hbefore, List.pairwise_cons.mpr
    ⟨fun w hw b hb => hafter w hw b (List.mem_cons_of_mem a hb), hrest⟩, ?_⟩, fun j => ?_⟩
  · intro w hw w' hw'
    rcases List.mem_cons.mp hw' with rfl | hw'
    · exact fun b hb c hc => hcross w hw _ List.mem_cons_self b hb c (List.mem_cons_of_mem a hc)
    · exact hcross w hw w' (List.mem_cons_of_mem _ hw')
  · simp only [List.flatten_append, List.flatten_cons, List.cons_append, List.filter_append]
    by_cases hj : tag a = j
    · have hnil : before.flatten.filter (fun b => tag b = j) = [] :=
        filter_tag_eq_nil fun w hw b hb hb' =>
          hcross w hw _ List.mem_cons_self b hb a List.mem_cons_self (hj.trans hb').symm
      simp [hj, hnil]
    · simp [hj]

/-- The steps with one tag come in the order of the worker that has them. -/
theorem Run.filter (h : Run perform t trace t') (hf : t'.Finished) (hapart : Apart tag t.left)
    (j : Nat) :
    trace.filter (fun b => tag b = j) = t.left.flatten.filter fun b => tag b = j := by
  induction h with
  | refl => rw [hf.flatten]
  | step hs _ ih =>
    obtain ⟨hapart', hfirst⟩ := hs.filter hapart
    rw [hfirst j, List.filter_cons, List.filter_cons, ih hf hapart']

/-! ## One worker after the other -/

theorem Run.worker (before after : List (List α)) (w : List α) (s : σ) {trace : List α}
    {t : Team σ α} (h : Run perform ⟨before ++ [] :: after, w.foldl perform s⟩ trace t) :
    Run perform ⟨before ++ w :: after, s⟩ (w ++ trace) t := by
  induction w generalizing s with
  | nil => exact h
  | cons a w ih => exact .step (.work before after a w s) (ih (perform s a) h)

/-- One worker after the other is a run to the end. -/
theorem Run.sequential (workers : List (List α)) (s : σ) :
    ∃ t, Run perform ⟨workers, s⟩ workers.flatten t ∧ t.Finished := by
  suffices h : ∀ before : List (List α), (∀ w ∈ before, w = []) →
      ∃ t, Run perform ⟨before ++ workers, s⟩ workers.flatten t ∧ t.Finished from h [] (by simp)
  induction workers generalizing s with
  | nil => exact fun before hb => ⟨⟨before ++ [], s⟩, .refl _, by simpa [Finished] using hb⟩
  | cons w workers ih =>
    intro before hb
    obtain ⟨t, hrun, hf⟩ := ih (w.foldl perform s) (before ++ [[]]) (by
      intro w' hw'
      rcases List.mem_append.mp hw' with hw' | hw'
      · exact hb w' hw'
      · exact List.mem_singleton.mp hw')
    rw [List.append_assoc] at hrun
    exact ⟨t, .worker before workers w s hrun, hf⟩

end Team

end CheckedFlow
