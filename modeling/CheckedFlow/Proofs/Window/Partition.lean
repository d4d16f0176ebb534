import CheckedFlow.Window
import Mathlib.Tactic.Tauto

/-!
# Fixed windows and the ends of time

Fixed windows cut time at the multiples of their size, and two timestamps get the same window exactly
if no cut lies between them. Between the ends of time the window of a timestamp then holds the
timestamps with that window and no others. At the ends the bounds are moved, and the windows are no
longer the pieces: the first window starts late and is not made shorter for it, so it reaches into
the second one, and the last one stops before the last timestamp.

* `toInt_ofIntClamp`: bounds are moved to the nearest timestamp.
* `assign_fixed_eq_iff`: the windows of two timestamps are the same exactly if their quotients are.
* `contains_fixed_iff`: the timestamps in the window of a timestamp, told by their own windows.
* `fixed_partition_iff`: where windows are the pieces, and where they are not.
-/

namespace CheckedFlow

/-- The last timestamp. -/
def Timestamp.greatest : Timestamp := Int64.maxValue

theorem Timestamp.toInt_least : Timestamp.least.toInt = -9223372036854775808 := rfl

theorem Timestamp.toInt_greatest : Timestamp.greatest.toInt = 9223372036854775807 := rfl

theorem Timestamp.least_le (t : Timestamp) : Timestamp.least.toInt ≤ t.toInt := t.le_toInt

theorem Timestamp.le_greatest (t : Timestamp) : t.toInt ≤ Timestamp.greatest.toInt :=
  Int.le_of_lt_add_one t.toInt_lt

/-- A number outside the range of timestamps becomes the end that it is nearest to. -/
theorem toInt_ofIntClamp (x : Int) : (Int64.ofIntClamp x).toInt =
    max Timestamp.least.toInt (min x Timestamp.greatest.toInt) := by
  have hmin : Int64.minValue.toInt = Timestamp.least.toInt := rfl
  have hmax : Int64.maxValue.toInt = Timestamp.greatest.toInt := rfl
  have hends := Timestamp.least.le_greatest
  unfold Int64.ofIntClamp
  split
  · split
    · rw [Int64.toInt_ofIntLE]
      omega
    · omega
  · omega

namespace WindowFn

variable {size : Int64} {a b : Timestamp}

/-- Valid sizes are positive. -/
theorem invalidSize?_fixed : (fixed size).invalidSize? = none ↔ 0 < size.toInt := by
  have hle : size ≤ 0 ↔ size.toInt ≤ 0 := Int64.le_iff_toInt_le
  simp only [invalidSize?, hle]
  split
  · simp; omega
  · simp; omega

/-- The number of the piece of time in which `t` lies, counted from the one that starts at zero. -/
def quotient (size : Int64) (t : Timestamp) : Int := t.toInt / size.toInt

theorem quotient_eq_iff (hs : 0 < size.toInt) {q : Int} :
    quotient size a = q ↔ q * size.toInt ≤ a.toInt ∧ a.toInt < q * size.toInt + size.toInt :=
  Int.ediv_eq_iff_of_pos hs

/-- A timestamp lies in its piece of time. -/
theorem quotient_bounds (hs : 0 < size.toInt) (a : Timestamp) :
    quotient size a * size.toInt ≤ a.toInt ∧
      a.toInt < quotient size a * size.toInt + size.toInt :=
  (quotient_eq_iff hs).mp rfl

/-- Where the window of a timestamp starts. -/
def start (size : Int64) (t : Timestamp) : Int :=
  max Timestamp.least.toInt (quotient size t * size.toInt)

/-- The window of a timestamp runs from its start for `size` milliseconds, or to the last
timestamp. -/
theorem assign_fixed_eq (hs : 0 < size.toInt) (a : Timestamp) :
    ∃ first stop : Timestamp, (fixed size).assign a = .interval first stop ∧
      first.toInt = start size a ∧
      stop.toInt = min (start size a + size.toInt) Timestamp.greatest.toInt := by
  have hq := quotient_bounds hs a
  have ha := a.le_greatest
  have hends := Timestamp.least.le_greatest
  have hfirst : (Int64.ofIntClamp (quotient size a * size.toInt)).toInt = start size a := by
    rw [toInt_ofIntClamp, start]
    omega
  refine ⟨_, _, rfl, hfirst, ?_⟩
  rw [toInt_ofIntClamp]
  change max _ (min ((Int64.ofIntClamp (quotient size a * size.toInt)).toInt + _) _) = _
  rw [hfirst]
  unfold start
  omega

/-- The timestamps in the window of `a`. The last timestamp is never one of them. -/
theorem contains_assign_fixed (hs : 0 < size.toInt) :
    ((fixed size).assign a).contains b = true ↔
      start size a ≤ b.toInt ∧ b.toInt < start size a + size.toInt ∧ b ≠ .greatest := by
  obtain ⟨first, stop, hassign, hfirst, hstop⟩ := assign_fixed_eq hs a
  have hlast : b = .greatest ↔ b.toInt = Timestamp.greatest.toInt := Int64.toInt_inj.symm
  have hb := b.le_greatest
  rw [hassign, Window.contains, Bool.and_eq_true, decide_eq_true_iff, decide_eq_true_iff,
    Int64.le_iff_toInt_le, Int64.lt_iff_toInt_lt, hfirst, hstop, ne_eq, hlast]
  omega

/-- Between the starts of two pieces lies the earlier one. -/
theorem quotient_mul_add_le (hs : 0 < size.toInt) (h : quotient size a < quotient size b) :
    quotient size a * size.toInt + size.toInt ≤ quotient size b * size.toInt := by
  have hle := Int.mul_le_mul_of_nonneg_right (Int.add_one_le_of_lt h) (Int.le_of_lt hs)
  rwa [Int.add_mul, Int.one_mul] at hle

/-- The window of a later piece starts later, also where bounds are moved: the earlier piece holds a
timestamp, and the later one starts behind it. -/
theorem start_lt (hs : 0 < size.toInt) (h : quotient size a < quotient size b) :
    start size a < start size b := by
  have hle := quotient_mul_add_le hs h
  have hqa := quotient_bounds hs a
  have ha := a.least_le
  unfold start
  omega

/-- Two timestamps have the same window exactly if they lie in the same piece of time. -/
theorem assign_fixed_eq_iff (hs : 0 < size.toInt) :
    (fixed size).assign a = (fixed size).assign b ↔ quotient size a = quotient size b := by
  constructor
  · intro h
    obtain ⟨first, stop, hassign, hfirst, -⟩ := assign_fixed_eq hs a
    obtain ⟨first', stop', hassign', hfirst', -⟩ := assign_fixed_eq hs b
    rw [hassign, hassign'] at h
    obtain ⟨rfl, -⟩ := Window.interval.inj h
    have hstart : start size a = start size b := hfirst.symm.trans hfirst'
    rcases Int.lt_trichotomy (quotient size a) (quotient size b) with hlt | heq | hlt
    · exact absurd hstart (Int.ne_of_lt (start_lt hs hlt))
    · exact heq
    · exact absurd hstart.symm (Int.ne_of_lt (start_lt hs hlt))
  · intro h
    unfold quotient at h
    simp only [assign, h]

/-! ## Pieces of time -/

/-- Where the second window starts: the first multiple of `size` behind the first timestamp. -/
def secondStart (size : Int64) : Int := quotient size .least * size.toInt + size.toInt

/-- `a` is in the first piece of time and `b` is not, but `b` is less than `size` milliseconds behind
the first timestamp. -/
structure Overreaches (size : Int64) (a b : Timestamp) : Prop where
  first : a.toInt < secondStart size
  behind : secondStart size ≤ b.toInt
  near : b.toInt < Timestamp.least.toInt + size.toInt

/-- The timestamps before the second window are those in the piece of the first timestamp. -/
theorem lt_secondStart_iff (hs : 0 < size.toInt) :
    a.toInt < secondStart size ↔ quotient size a = quotient size .least := by
  have hfirst := quotient_bounds hs .least
  have ha := a.least_le
  rw [quotient_eq_iff hs, secondStart]
  omega

/-- The window of the first piece starts at the first timestamp. -/
theorem start_of_lt (hs : 0 < size.toInt) (h : a.toInt < secondStart size) :
    start size a = Timestamp.least.toInt := by
  have hfirst := quotient_bounds hs .least
  rw [start, (lt_secondStart_iff hs).mp h]
  omega

/-- Every other window starts where its piece does. -/
theorem start_of_le (hs : 0 < size.toInt) (h : secondStart size ≤ a.toInt) :
    start size a = quotient size a * size.toInt := by
  have hlater : quotient size a ≠ quotient size .least := fun heq =>
    Int.not_lt.mpr h ((lt_secondStart_iff hs).mpr heq)
  have hqa := quotient_bounds hs a
  have ha := a.least_le
  rw [ne_comm, ne_eq, quotient_eq_iff hs] at hlater
  unfold start
  omega

/-- The timestamps that the first window reaches into have another window, and the last timestamp is
not one of them. -/
theorem Overreaches.apart (hs : 0 < size.toInt) (h : Overreaches size a b) :
    (fixed size).assign b ≠ (fixed size).assign a ∧ b ≠ .greatest := by
  constructor
  · rw [ne_eq, assign_fixed_eq_iff hs, (lt_secondStart_iff hs).mp h.first, ← lt_secondStart_iff hs]
    exact Int.not_lt.mpr h.behind
  · rintro rfl
    have hnear := h.near
    have hsize := Timestamp.le_greatest size
    rw [Timestamp.toInt_least] at hnear
    rw [Timestamp.toInt_greatest] at hnear hsize
    omega

/-- A window holds the timestamps that have it and those that it reaches into, but never the last
timestamp. -/
theorem contains_fixed_iff (hs : 0 < size.toInt) :
    ((fixed size).assign a).contains b = true ↔
      ((fixed size).assign b = (fixed size).assign a ∨ Overreaches size a b) ∧ b ≠ .greatest := by
  have hover : Overreaches size a b ↔ a.toInt < secondStart size ∧ secondStart size ≤ b.toInt ∧
      b.toInt < Timestamp.least.toInt + size.toInt :=
    ⟨fun h => ⟨h.first, h.behind, h.near⟩, fun h => ⟨h.1, h.2.1, h.2.2⟩⟩
  have hb := b.least_le
  rw [contains_assign_fixed hs, assign_fixed_eq_iff hs, ← and_assoc]
  refine and_congr_left fun _ => ?_
  by_cases hfirst : a.toInt < secondStart size
  · -- from the first timestamp on for `size` milliseconds: the first piece, and what follows it
    have hsecond : secondStart size ≤ Timestamp.least.toInt + size.toInt :=
      Int.add_le_add_right (quotient_bounds hs .least).1 _
    rw [start_of_lt hs hfirst, (lt_secondStart_iff hs).mp hfirst, ← lt_secondStart_iff hs, hover]
    omega
  · rw [start_of_le hs (Int.not_lt.mp hfirst), quotient_eq_iff hs, hover]
    omega

/-! ## The law and its exceptions -/

/-- The first window reaches into the second exactly if the first timestamp is no multiple of the
size. -/
theorem exists_overreaches_iff (hs : 0 < size.toInt) :
    (∃ a b, Overreaches size a b) ↔ ¬ size.toInt ∣ Timestamp.least.toInt := by
  have hq := quotient_bounds hs .least
  have hsize := Timestamp.le_greatest size
  have hleast := Timestamp.toInt_least
  have hgreatest := Timestamp.toInt_greatest
  have hdvd : size.toInt ∣ Timestamp.least.toInt ↔
      quotient size .least * size.toInt = Timestamp.least.toInt := by
    rw [quotient, Int.mul_comm]
    exact ⟨Int.mul_ediv_cancel', fun h => ⟨_, h.symm⟩⟩
  rw [hdvd]
  constructor
  · rintro ⟨a, b, h⟩ heq
    have hbehind := h.behind
    have hnear := h.near
    unfold secondStart at hbehind
    omega
  · intro hne
    have hsecond : (Int64.ofIntClamp (secondStart size)).toInt = secondStart size := by
      rw [toInt_ofIntClamp, secondStart]
      omega
    refine ⟨.least, .ofIntClamp (secondStart size), ?_, ?_, ?_⟩
    · unfold secondStart
      omega
    · omega
    · rw [hsecond, secondStart]
      omega

/-- The window of a timestamp holds exactly the timestamps with the same window, but for the last
timestamp, which is in no window, and for those that the first window reaches into. So every
timestamp but the last is in its own window, and two windows share only timestamps that the first of
all windows reaches into; there are some exactly if the first timestamp is no multiple of the
size. -/
theorem fixed_partition_iff (h : (fixed size).invalidSize? = none) (a b : Timestamp) :
    (((fixed size).assign a).contains b = true ↔
      ((fixed size).assign b = (fixed size).assign a ∨ Overreaches size a b) ∧ b ≠ .greatest) ∧
    ((((fixed size).assign a).contains b = true ↔
        (fixed size).assign b = (fixed size).assign a) ↔
      ¬ Overreaches size a b ∧
        ¬ (b = .greatest ∧ (fixed size).assign b = (fixed size).assign a)) ∧
    (((fixed size).assign a).contains a = true ↔ a ≠ .greatest) ∧
    (∀ t, ((fixed size).assign a).contains t = true → ((fixed size).assign b).contains t = true →
      (fixed size).assign a = (fixed size).assign b ∨ Overreaches size a t ∨
        Overreaches size b t) ∧
    ((∃ a b, Overreaches size a b) ↔ ¬ size.toInt ∣ Timestamp.least.toInt) := by
  have hs := invalidSize?_fixed.mp h
  refine ⟨contains_fixed_iff hs, ?_, ?_, ?_, exists_overreaches_iff hs⟩
  · have hapart := @Overreaches.apart size a b hs
    rw [contains_fixed_iff hs]
    tauto
  · rw [contains_fixed_iff hs]
    simp
  · intro t hta htb
    rw [contains_fixed_iff hs] at hta htb
    rcases hta.1 with heqa | hover
    · rcases htb.1 with heqb | hover
      · exact .inl (heqa.symm.trans heqb)
      · exact .inr (.inr hover)
    · exact .inr (.inl hover)

/-- Windows of five seconds: one holds its timestamps, and its first timestamp is not in the window
before it. -/
theorem fixed_partition_iff_seconds :
    (fixed 5000).invalidSize? = none ∧
    ((fixed 5000).assign 7250).contains 9999 = true ∧
    ((fixed 5000).assign (-1)).contains 0 = false := by
  have hvalid : (fixed 5000).invalidSize? = none := by decide
  refine ⟨hvalid, (fixed_partition_iff hvalid 7250 9999).1.mpr ?_, ?_⟩
  · exact ⟨.inl (by decide), by decide⟩
  · have hzero := (fixed_partition_iff hvalid (-1) 0).2.1.mpr
      ⟨fun hover => absurd hover.near (by decide), by decide⟩
    rw [← Bool.not_eq_true, hzero]
    decide

/-- Windows of a second at the ends of time. The first timestamp gets a whole second, of which the
last 192 milliseconds belong to the second window. The last timestamp is not in its own window. -/
theorem fixed_overlap :
    (fixed 1000).invalidSize? = none ∧
    (((fixed 1000).assign .least).contains (-9223372036854774908) = true ∧
      ((fixed 1000).assign (-9223372036854774908)).contains (-9223372036854774908) = true ∧
      (fixed 1000).assign .least ≠ (fixed 1000).assign (-9223372036854774908)) ∧
    ((fixed 1000).assign .greatest).contains .greatest = false ∧
    ¬ ∀ size a b, (fixed size).invalidSize? = none →
      (((fixed size).assign a).contains b = true ↔
        (fixed size).assign b = (fixed size).assign a) := by
  have hlast : ((fixed 1000).assign .greatest).contains .greatest = false := by decide
  refine ⟨by decide, by decide, hlast, fun hlaw => ?_⟩
  have hown := (hlaw 1000 .greatest .greatest (by decide)).mpr rfl
  rw [hlast] at hown
  cases hown

end WindowFn

end CheckedFlow
