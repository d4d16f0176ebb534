import CheckedFlow.Proofs.Check.Relation
import CheckedFlow.Proofs.Check.Tally
import Mathlib.Data.List.DropRight

/-!
# What the difference of two collections tells

The equality of elements is symmetric and transitive, but an element need not be the same as itself,
as a float that is no number is not. Elements that are the same as themselves fall into classes. Of
each class the greedy matching pairs as many elements as both lists have, from the first on, and so
leaves the last ones of the longer side; an element that is not the same as itself is left always.

* `lastCopies`, `IsSurplus`: the elements that one list has more than another.
* `unmatched_eq`: the greedy matching leaves the surplus on both sides.
* `difference?_exact`: the difference lists the surplus, by the texts of its elements.
-/

namespace CheckedFlow

variable {α : Type} {same : α → α → Bool}

/-! ## The surplus of a list -/

/-- The last `keep x` copies in the list of each element `x`, and every element that is not the same
as itself. -/
def lastCopies (same : α → α → Bool) (keep : α → Nat) : List α → List α
  | [] => []
  | x :: rest =>
    if same x x = true ∧ keep x ≤ rest.countP (same x) then lastCopies same keep rest
    else x :: lastCopies same keep rest

/-- How many copies of `x` there are in `xs` more than in `ys`. -/
def excess (same : α → α → Bool) (xs ys : List α) (x : α) : Nat :=
  xs.countP (same x) - ys.countP (same x)

/-- Lists of the last copies agree if they agree on each element that is the same as itself, for as
many copies as follow. -/
theorem lastCopies_congr {keep keep' : α → Nat} {xs : List α}
    (h : ∀ before x after, xs = before ++ x :: after → same x x = true →
      (keep x ≤ after.countP (same x) ↔ keep' x ≤ after.countP (same x))) :
    lastCopies same keep xs = lastCopies same keep' xs := by
  induction xs with
  | nil => rfl
  | cons x xs ih =>
    have hrest := ih fun before y after hsplit => h (x :: before) y after (hsplit ▸ rfl)
    have hx : same x x = true ∧ keep x ≤ xs.countP (same x) ↔
        same x x = true ∧ keep' x ≤ xs.countP (same x) := and_congr_right (h [] x xs rfl)
    rw [lastCopies, lastCopies, hrest]
    simp only [hx]

/-- All copies are the last ones, if as many are kept. -/
theorem lastCopies_eq_self {keep : α → Nat} {xs : List α}
    (h : ∀ x ∈ xs, xs.countP (same x) ≤ keep x) : lastCopies same keep xs = xs := by
  induction xs with
  | nil => rfl
  | cons x xs ih =>
    have hx : ¬ (same x x = true ∧ keep x ≤ xs.countP (same x)) := by
      rintro ⟨hself, hle⟩
      have hkeep := h x List.mem_cons_self
      rw [List.countP_cons_of_pos hself] at hkeep
      omega
    rw [lastCopies, if_neg hx, ih fun y hy => ?_]
    exact Nat.le_trans (List.sublist_cons_self x xs).countP_le (h y (List.mem_cons_of_mem x hy))

/-- A copy that is followed by enough others is not among the last ones. -/
theorem lastCopies_insert {keep : α → Nat} {b : α} {l₁ l₂ : List α} (hb : same b b = true)
    (hkeep : keep b ≤ l₂.countP (same b)) (hl₁ : ∀ y ∈ l₁, ¬ same y b = true) :
    lastCopies same keep (l₁ ++ b :: l₂) = lastCopies same keep (l₁ ++ l₂) := by
  induction l₁ with
  | nil => rw [List.nil_append, List.nil_append, lastCopies, if_pos ⟨hb, hkeep⟩]
  | cons y l₁ ih =>
    have hy : ¬ same y b = true := hl₁ y List.mem_cons_self
    have hcount : (l₁ ++ b :: l₂).countP (same y) = (l₁ ++ l₂).countP (same y) := by
      rw [countP_insert, if_neg hy, Nat.add_zero]
    rw [List.cons_append, List.cons_append, lastCopies, lastCopies, hcount,
      ih fun z hz => hl₁ z (List.mem_cons_of_mem y hz)]

/-- Of a class, the last copies are the last elements of the class. -/
theorem filter_lastCopies (h : IsPartialEquality same) {keep : α → Nat} {a : α}
    (hkeep : ∀ x, same a x = true → keep x = keep a) (xs : List α) :
    (lastCopies same keep xs).filter (same a) = (xs.filter (same a)).rtake (keep a) := by
  induction xs with
  | nil => simp [lastCopies]
  | cons x xs ih =>
    by_cases hx : same a x = true
    · have hself : same x x = true := h.refl_right hx
      have hcount : xs.countP (same x) = (xs.filter (same a)).length := by
        rw [← h.countP_congr hx, List.countP_eq_length_filter]
      rw [List.filter_cons_of_pos hx, lastCopies, hkeep x hx, hcount]
      split
      · -- Enough copies follow: the one in front is not among the last.
        rename_i hle
        rw [ih, List.rtake, List.rtake, List.length_cons, Nat.sub_add_comm hle.2,
          List.drop_succ_cons]
      · rename_i hfew
        have hlt : (xs.filter (same a)).length < keep a := by
          by_contra hge
          exact hfew ⟨hself, Nat.not_lt.mp hge⟩
        rw [List.filter_cons_of_pos hx, ih, List.rtake, List.rtake, List.length_cons,
          Nat.sub_eq_zero_of_le hlt, Nat.sub_eq_zero_of_le hlt.le, List.drop_zero, List.drop_zero]
    · rw [List.filter_cons_of_neg hx, ← ih, lastCopies]
      split
      · rfl
      · rw [List.filter_cons_of_neg hx]

/-- Elements that are not the same as themselves are among the last copies. -/
theorem filter_lastCopies_alone (same : α → α → Bool) (keep : α → Nat) (xs : List α) :
    (lastCopies same keep xs).filter (fun x => !same x x) = xs.filter fun x => !same x x := by
  induction xs with
  | nil => rfl
  | cons x xs ih =>
    by_cases hx : same x x = true
    · rw [lastCopies]
      split <;> simp [hx, ih]
    · simp [lastCopies, hx, ih]

/-- `left` is what `xs` has more than `ys`, in the order of `xs`: the last elements of each class,
as many as `xs` has more of them, and all elements that are not the same as themselves. -/
structure IsSurplus (same : α → α → Bool) (xs ys left : List α) : Prop where
  places : left = lastCopies same (excess same xs ys) xs
  copies : ∀ a, same a a = true →
    left.filter (same a) = (xs.filter (same a)).rtake (excess same xs ys a)
  alone : left.filter (fun x => !same x x) = xs.filter fun x => !same x x

theorem isSurplus_lastCopies (h : IsPartialEquality same) (xs ys : List α) :
    IsSurplus same xs ys (lastCopies same (excess same xs ys) xs) := by
  refine ⟨rfl, fun a _ => filter_lastCopies h (fun x hx => ?_) xs, filter_lastCopies_alone ..⟩
  rw [excess, excess, h.countP_congr hx, h.countP_congr hx]

/-! ## The greedy matching -/

/-- One more copy on both sides changes no excess. -/
theorem excess_insert (h : IsPartialEquality same) {x b : α} (hbx : same b x = true)
    (xs l₁ l₂ : List α) :
    excess same (x :: xs) (l₁ ++ b :: l₂) = excess same xs (l₁ ++ l₂) ∧
      excess same (l₁ ++ b :: l₂) (x :: xs) = excess same (l₁ ++ l₂) xs := by
  constructor
  · funext y
    rw [excess, excess, countP_insert, List.countP_cons, h.congr hbx]
    omega
  · funext y
    rw [excess, excess, countP_insert, List.countP_cons, h.congr hbx]
    omega

/-- An element without a partner is left, and nothing else that is left changes by it. -/
theorem lastCopies_alone (h : IsPartialEquality same) {x : α} {xs ys : List α}
    (hx : ∀ y ∈ ys, ¬ same y x = true) :
    lastCopies same (excess same (x :: xs) ys) (x :: xs) =
        x :: lastCopies same (excess same xs ys) xs ∧
      lastCopies same (excess same ys (x :: xs)) ys = lastCopies same (excess same ys xs) ys := by
  have hcount : ys.countP (same x) = 0 :=
    List.countP_eq_zero.mpr fun y hy hxy => hx y hy (h.symm hxy)
  constructor
  · have hkept : ¬ (same x x = true ∧ excess same (x :: xs) ys x ≤ xs.countP (same x)) := by
      rintro ⟨hself, hle⟩
      rw [excess, hcount, List.countP_cons_of_pos hself] at hle
      omega
    rw [lastCopies, if_neg hkept]
    congr 1
    refine lastCopies_congr fun before y after hsplit hself => ?_
    by_cases hyx : same y x = true
    · -- The class of `x` has no element in `ys`: all of its copies are kept, with `x` or without.
      have hnone : ys.countP (same y) = 0 := (h.countP_congr hyx ys).trans hcount
      have hafter : after.countP (same y) < xs.countP (same y) := by
        rw [hsplit, List.countP_append, List.countP_cons_of_pos hself]
        omega
      rw [excess, excess, List.countP_cons_of_pos hyx]
      omega
    · rw [excess, excess, List.countP_cons_of_neg hyx]
  · refine lastCopies_congr fun before y after hsplit _ => ?_
    have hyx : ¬ same y x = true := hx y (hsplit ▸ List.mem_append_right _ List.mem_cons_self)
    rw [excess, excess, List.countP_cons_of_neg hyx]

/-- The greedy matching leaves the last copies on both sides: of each class as many as one side has
more than the other. -/
theorem unmatched_eq (h : IsPartialEquality same) (expected actual : List α) :
    unmatched same expected actual =
      (lastCopies same (excess same expected actual) expected,
        lastCopies same (excess same actual expected) actual) := by
  induction expected generalizing actual with
  | nil =>
    have hactual : lastCopies same (excess same actual []) actual = actual :=
      lastCopies_eq_self fun x _ => Nat.le_refl _
    rw [unmatched, hactual, lastCopies]
  | cons x expected ih =>
    by_cases hany : actual.any (same · x) = true
    · -- The partner of `x` is taken off both sides, and the excess of either side stays.
      obtain ⟨c, hc, hcx⟩ := List.any_eq_true.mp hany
      obtain ⟨b, l₁, l₂, hl₁, hbx, rfl, herase⟩ := List.exists_of_eraseP (p := (same · x)) hc hcx
      have hself : same x x = true := h.refl_right hbx
      obtain ⟨hexpected, hactual⟩ := excess_insert h hbx expected l₁ l₂
      have hfirst : lastCopies same (excess same expected (l₁ ++ l₂)) (x :: expected) =
          lastCopies same (excess same expected (l₁ ++ l₂)) expected := by
        rw [lastCopies, if_pos ⟨hself, Nat.sub_le _ _⟩]
      have hsecond : lastCopies same (excess same (l₁ ++ l₂) expected) (l₁ ++ b :: l₂) =
          lastCopies same (excess same (l₁ ++ l₂) expected) (l₁ ++ l₂) := by
        refine lastCopies_insert (h.trans hbx (h.symm hbx)) ?_ fun y hy hyb =>
          hl₁ y hy (h.trans hyb hbx)
        have hnone : l₁.countP (same b) = 0 :=
          List.countP_eq_zero.mpr fun y hy hby => hl₁ y hy (h.trans (h.symm hby) hbx)
        rw [excess, List.countP_append, hnone]
        omega
      rw [unmatched, if_pos hany, herase, ih, hexpected, hactual, hfirst, hsecond]
    · have hx : ∀ y ∈ actual, ¬ same y x = true :=
        fun y hy hyx => hany (List.any_eq_true.mpr ⟨y, hy, hyx⟩)
      obtain ⟨hfirst, hsecond⟩ := lastCopies_alone h hx
      rw [hfirst, hsecond]
      simp only [unmatched, if_neg hany, ih]

/-- What is left on both sides differs by as much as the lists do. -/
theorem length_unmatched (same : α → α → Bool) (expected actual : List α) :
    (unmatched same expected actual).1.length + actual.length =
      (unmatched same expected actual).2.length + expected.length := by
  induction expected generalizing actual with
  | nil => simp [unmatched]
  | cons x expected ih =>
    by_cases hany : actual.any (same · x) = true
    · obtain ⟨c, hc, hcx⟩ := List.any_eq_true.mp hany
      have hlength := List.length_eraseP_of_mem (p := (same · x)) hc hcx
      have hpos := List.length_pos_of_mem hc
      have hrest := ih (actual.eraseP (same · x))
      rw [unmatched, if_pos hany, List.length_cons]
      omega
    · have hrest := ih actual
      simp only [unmatched, if_neg hany, List.length_cons]
      omega

/-! ## The difference -/

/-- The tally lists the texts of the items, each text once, in order of first occurrence, with the
number of items that have it. -/
structure Lists (text : α → String) (items : List α) (tally : Tally) : Prop where
  entries : tally = (items.map text).eraseDups.map fun t => (t, (items.map text).count t)
  count : ∀ t, Tally.count t tally = (items.map text).count t
  total : Tally.total tally = items.length

theorem lists_ofTexts (text : α → String) (items : List α) :
    Lists text items (Tally.ofTexts (items.map text)) :=
  ⟨Tally.ofTexts_eq _, Tally.count_ofTexts _, by rw [Tally.total_ofTexts, List.length_map]⟩

theorem difference?_eq_none {text : α → String} {expected actual missing unexpected : List α}
    (h : unmatched same expected actual = (missing, unexpected)) :
    difference? same text expected actual = none ↔ missing = [] ∧ unexpected = [] := by
  rw [difference?, h]
  cases missing <;> cases unexpected <;> simp

theorem difference?_eq_some {text : α → String} {expected actual missing unexpected : List α}
    (h : unmatched same expected actual = (missing, unexpected)) {d : Difference}
    (hd : difference? same text expected actual = some d) :
    d.expectedLength = expected.length ∧ d.actualLength = actual.length ∧
      Lists text missing d.missing ∧ Lists text unexpected d.unexpected := by
  rw [difference?, h] at hd
  split at hd
  · cases hd
  · rename_i missing' unexpected' _ heq
    obtain ⟨rfl, rfl⟩ := Prod.mk.inj heq
    cases hd
    exact ⟨rfl, rfl, lists_ofTexts text _, lists_ofTexts text _⟩

/-- The difference of two lists is exact. What is left without a partner is what each list has more
than the other. There is no difference exactly if nothing is left, which for an equality means that
one list is a reordering of the other. Otherwise the difference lists the texts of the elements
left, each once, in order of first occurrence, with its number of copies; and the numbers on both
sides differ by as much as the lengths of the lists. -/
theorem difference?_exact (h : IsPartialEquality same) (text : α → String)
    (expected actual : List α) :
    ∃ missing unexpected, unmatched same expected actual = (missing, unexpected) ∧
      IsSurplus same expected actual missing ∧ IsSurplus same actual expected unexpected ∧
      (difference? same text expected actual = none ↔ missing = [] ∧ unexpected = []) ∧
      (IsEquality same → (difference? same text expected actual = none ↔
        Reorders same actual expected)) ∧
      ∀ d, difference? same text expected actual = some d →
        d.expectedLength = expected.length ∧ d.actualLength = actual.length ∧
        Lists text missing d.missing ∧ Lists text unexpected d.unexpected ∧
        (Tally.total d.missing : Int) - Tally.total d.unexpected =
          expected.length - actual.length := by
  have hleft := unmatched_eq h expected actual
  have hlength := length_unmatched same expected actual
  rw [hleft] at hlength
  refine ⟨_, _, hleft, isSurplus_lastCopies h expected actual,
    isSurplus_lastCopies h actual expected, difference?_eq_none hleft,
    fun he => difference?_eq_none_iff he, fun d hd => ?_⟩
  obtain ⟨hexpected, hactual, hmissing, hunexpected⟩ := difference?_eq_some hleft hd
  refine ⟨hexpected, hactual, hmissing, hunexpected, ?_⟩
  rw [hmissing.total, hunexpected.total]
  simp only at hlength
  omega

/-- Readings of a meter with notes are the same if their numbers are; a reading without a number is
not the same as any. -/
def sameReading (x y : Option Nat × String) : Bool := x.1.isSome && x.1 == y.1

theorem isPartialEquality_reading : IsPartialEquality sameReading := by
  refine ⟨fun {x y} h => ?_, fun {x y z} h h' => ?_⟩ <;>
    simp only [sameReading, Bool.and_eq_true, beq_iff_eq] at *
  · exact ⟨h.2 ▸ h.1, h.2.symm⟩
  · exact ⟨h.1, h.2.trans h'.2⟩

/-- The last of two readings of one is left, under its own note, and all readings without a number
are left on both sides. -/
theorem difference?_exact_readings :
    let expected := [(some 1, "a"), (none, "n"), (some 2, "b"), (some 1, "c"), (none, "n")]
    let actual := [(some 1, "x"), (some 3, "z"), (none, "n"), (some 3, "z")]
    IsPartialEquality sameReading ∧
    ∃ d, difference? sameReading Prod.snd expected actual = some d ∧
      d.missing = [("n", 2), ("b", 1), ("c", 1)] ∧ d.unexpected = [("z", 2), ("n", 1)] := by
  intro expected actual
  refine ⟨isPartialEquality_reading, ?_⟩
  obtain ⟨missing, unexpected, hleft, -, -, hnone, -, hsome⟩ :=
    difference?_exact isPartialEquality_reading Prod.snd expected actual
  obtain ⟨rfl, rfl⟩ := Prod.mk.inj hleft
  cases hd : difference? sameReading Prod.snd expected actual with
  | none => exact absurd (hnone.mp hd).1 (List.cons_ne_nil _ _)
  | some d =>
    obtain ⟨-, -, hmissing, hunexpected, -⟩ := hsome d hd
    refine ⟨d, rfl, hmissing.entries.trans ?_, hunexpected.entries.trans ?_⟩
    · decide
    · decide

end CheckedFlow
