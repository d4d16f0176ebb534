import CheckedFlow.Proofs.View.PerWindow
import CheckedFlow.Proofs.View.SideInputs
import CheckedFlow.Proofs.Window.Partition
import Mathlib.Data.Rat.Floor

/-!
# Fixed windows as join keys

A stage that reads a view joins its own elements with those of the view by their windows. If both
were given fixed windows of one size, the windows stand for the quotients of the timestamps by the
size, rounded down: no two quotients share a window and none is split, also at the ends of time, and
later quotients have later windows. So an element meets exactly the elements with its own quotient.

* `assigns_fixed_iff`: when the quotient of a timestamp is one of 64 bits.
* `compare_assign_fixed`: windows are in the order of their quotients.
* `sharingPiece`: the elements that an element meets.
* `Graph.Processes.windowed`, `Graph.Processes.own`: what a stage between windows reads.
* `fixed_windows_join`: quotients, windows and what is joined.
-/

namespace CheckedFlow

namespace WindowFn

variable {size : Int64} {a b : Timestamp}

/-! ## Quotients and their order -/

/-- For a positive size the quotient is that of rational numbers, rounded down. -/
theorem floor_eq_quotient (hs : 0 < size.toInt) (a : Timestamp) :
    ⌊(a.toInt : ℚ) / size.toInt⌋ = quotient size a := by
  obtain ⟨n, hn⟩ := Int.eq_ofNat_of_zero_le (Int.le_of_lt hs)
  rw [quotient, hn, Int.cast_natCast, Rat.floor_intCast_div_natCast]

/-- The quotient of a timestamp by a positive size is no farther from zero. -/
theorem quotient_range (hs : 0 < size.toInt) (a : Timestamp) :
    Timestamp.least.toInt ≤ quotient size a ∧ quotient size a ≤ Timestamp.greatest.toInt := by
  have hleast := Timestamp.toInt_least
  have hgreatest := Timestamp.toInt_greatest
  constructor
  · refine (Int.le_ediv_iff_mul_le hs).mpr (Int.le_trans ?_ a.least_le)
    rw [hleast]
    omega
  · refine Int.le_of_lt_add_one ((Int.ediv_lt_iff_lt_mul hs).mpr
      (Int.lt_of_le_of_lt a.le_greatest ?_))
    rw [hgreatest]
    omega

/-- The window of a timestamp is computed from a quotient: there is one, and it has 64 bits. -/
theorem assigns_fixed_iff : (fixed size).assigns a = true ↔
    size.toInt ≠ 0 ∧ Timestamp.least.toInt ≤ quotient size a ∧
      quotient size a ≤ Timestamp.greatest.toInt := by
  have hassigns : (fixed size).assigns a = true ↔
      size.toInt ≠ 0 ∧ ¬ (a.toInt = Timestamp.least.toInt ∧ size.toInt = -1) := by
    have hzero : size = 0 ↔ size.toInt = 0 := Int64.toInt_inj.symm
    have hminus : size = -1 ↔ size.toInt = -1 := Int64.toInt_inj.symm
    have hleast : a = Int64.minValue ↔ a.toInt = Timestamp.least.toInt := Int64.toInt_inj.symm
    simp only [assigns, Bool.and_eq_true, bne_iff_ne, ne_eq, Bool.not_eq_true',
      Bool.and_eq_false_iff, beq_eq_false_iff_ne, hzero, hminus, hleast]
    tauto
  have hfirst := a.least_le
  have hlast := a.le_greatest
  have hleast := Timestamp.toInt_least
  have hgreatest := Timestamp.toInt_greatest
  rw [hassigns]
  refine and_congr_right fun hne => ?_
  rcases Int.lt_trichotomy size.toInt 0 with hneg | hzero | hpos
  · -- the quotient by a negative size is that by its amount, with the other sign
    have hquotient : quotient size a = -(a.toInt / -size.toInt) := by
      rw [quotient, Int.ediv_neg, Int.neg_neg]
    rw [hquotient]
    by_cases hone : size.toInt = -1
    · rw [hone, Int.neg_neg, Int.ediv_one]
      omega
    · have hbelow := (Int.le_ediv_iff_mul_le (a := -4611686018427387904) (b := a.toInt)
        (Int.neg_pos_of_neg hneg)).mpr (by omega)
      have habove := (Int.ediv_lt_iff_lt_mul (a := a.toInt) (b := 4611686018427387904)
        (Int.neg_pos_of_neg hneg)).mpr (by omega)
      omega
  · exact absurd hzero hne
  · have hrange := quotient_range hpos a
    omega

theorem quotient_mono (hs : 0 < size.toInt) (h : a ≤ b) : quotient size a ≤ quotient size b :=
  Int.ediv_le_ediv hs (Int64.le_iff_toInt_le.mp h)

/-- Windows are in the order of the quotients. -/
theorem compare_assign_fixed (hs : 0 < size.toInt) (a b : Timestamp) :
    ((fixed size).assign a).compare ((fixed size).assign b) =
      Ord.compare (quotient size a) (quotient size b) := by
  obtain ⟨first, stop, ha, hfirst, -⟩ := assign_fixed_eq hs a
  obtain ⟨first', stop', hb, hfirst', -⟩ := assign_fixed_eq hs b
  rcases Int.lt_trichotomy (quotient size a) (quotient size b) with hlt | heq | hlt
  · have hstart : Ord.compare first.toInt first'.toInt = .lt := by
      rw [hfirst, hfirst', Int.compare_eq_lt]
      exact start_lt hs hlt
    rw [ha, hb, Window.compare, hstart, Int.compare_eq_lt.mpr hlt]
    rfl
  · rw [(assign_fixed_eq_iff hs).mpr heq, heq, hb, Window.compare, Int.compare_eq_eq.mpr rfl,
      Int.compare_eq_eq.mpr rfl, Int.compare_eq_eq.mpr rfl]
    rfl
  · have hstart : Ord.compare first.toInt first'.toInt = .gt := by
      rw [hfirst, hfirst', Int.compare_eq_gt]
      exact start_lt hs hlt
    rw [ha, hb, Window.compare, hstart, Int.compare_eq_gt.mpr hlt]
    rfl

/-- Two timestamps have the same window exactly if their quotients, rounded down, are the same. -/
theorem assign_fixed_eq_iff_floor (hs : 0 < size.toInt) (a b : Timestamp) :
    (fixed size).assign a = (fixed size).assign b ↔
      ⌊(a.toInt : ℚ) / size.toInt⌋ = ⌊(b.toInt : ℚ) / size.toInt⌋ := by
  rw [assign_fixed_eq_iff hs, floor_eq_quotient hs, floor_eq_quotient hs]

/-- Later timestamps have no earlier windows. -/
theorem assign_fixed_le (hs : 0 < size.toInt) (h : a ≤ b) :
    ((fixed size).assign a).le ((fixed size).assign b) = true := by
  have hle := Int.not_lt.mpr (quotient_mono hs h)
  rw [Window.le, compare_assign_fixed hs, bne_iff_ne, ne_eq, Int.compare_eq_gt]
  exact hle

end WindowFn

open WindowFn

/-! ## Joining -/

variable {k l : Kind} {options : PipelineOptions} {stage : Stage} {declared : List SideInput}
  {outputs : Outputs} {sur : Surroundings} {g : Graph} {size : Int64}

/-- The elements of `xs` whose timestamps have the same quotient by `size`, rounded down, as `t`. -/
def sharingPiece {α : Type} (size : Int64) (t : Timestamp) (xs : List (Windowed α)) :
    List (Windowed α) :=
  xs.filter fun x => ⌊(x.timestamp.toInt : ℚ) / size.toInt⌋ = ⌊(t.toInt : ℚ) / size.toInt⌋

/-- The elements in the window of `t` are those that share its piece of time. -/
theorem valuesIn_assign_fixed {α : Type} (hs : 0 < size.toInt) (t : Timestamp)
    (xs : List (Windowed α)) :
    valuesIn ((fixed size).assign t)
        (xs.map fun x => { x with window := (fixed size).assign x.timestamp }) =
      (sharingPiece size t xs).map Windowed.value := by
  simp only [valuesIn, sharingPiece, List.filter_map, List.map_map, Function.comp_def,
    assign_fixed_eq_iff_floor hs]

namespace Graph.Processes

/-- What a stage finds of another stage that assigns windows: the elements of that stage's input,
each in the window of its timestamp. -/
theorem windowed (h : g.Processes options stage declared outputs sur) {m input : NodeId}
    {name : String} {f : WindowFn} {o : Output} (hm : outputs[m]? = some o)
    (hat : g.stages[m]? = some ⟨name, .windowInto k input f⟩) :
    ∃ xs, outputs[input]? = some (.elements k xs) ∧
      o = .elements k (xs.map fun x => { x with window := f.assign x.timestamp }) := by
  obtain ⟨n, -, g₀, s, -, -, -, -, -, -, -, -, -, hrun, rfl, -, -, -⟩ := h
  have hlt : m < n := by
    have hlt := (List.getElem?_eq_some_iff.mp hm).1
    rw [runStages_length hrun, List.length_take] at hlt
    exact (Nat.lt_min.mp (Nat.lt_of_lt_of_eq hlt (Nat.zero_add _))).1
  obtain ⟨xs, hxs, hleft⟩ := runStages_windowInto hrun ((List.getElem?_take_of_lt hlt).trans hat)
  exact ⟨xs, hxs, Option.some.inj (hm.symm.trans hleft)⟩

/-- A stage behind one that assigns windows processes the elements of that stage's input, each in
the window of its timestamp. -/
theorem own (h : g.Processes options stage declared outputs sur) {source target : Kind}
    {m input : NodeId} {doFn : DoFn source.Value target.Value} {name : String} {f : WindowFn}
    (hop : stage.operation = .parDo source target m declared doFn)
    (hat : g.stages[m]? = some ⟨name, .windowInto source input f⟩) :
    ∃ ys, outputs[input]? = some (.elements source ys) ∧
      ∃ y ∈ ys, sur.timestamp = y.timestamp ∧ sur.window = f.assign y.timestamp := by
  have hp := h
  obtain ⟨-, m', -, -, source', target', doFn', items, found, x, hx, -, hop', -, -, hitems, -, rfl⟩ := h
  rw [hop] at hop'
  cases hop'
  obtain ⟨ys, hys, ho⟩ := hp.windowed (Outputs.elements_getElem? hitems) hat
  cases ho
  obtain ⟨y, hy, rfl⟩ := List.mem_map.mp hx
  exact ⟨ys, hys, y, hy, rfl, rfl⟩

end Graph.Processes

/-- Fixed windows of a positive size group timestamps by their quotients, rounded down. Every
quotient can be computed in 64 bits; two timestamps have the same window exactly if their quotients
are the same, and a later timestamp has no earlier window.

So where a stage and a view that it declared are behind such windows of one size, the function of
the stage reads for each of its elements what the view function makes of the elements, before they
were given windows, whose quotients are that of the element. -/
theorem fixed_windows_join (hvalid : (fixed size).invalidSize? = none) :
    (∀ a b : Timestamp, (fixed size).assigns a = true ∧
      ((fixed size).assign a = (fixed size).assign b ↔
        ⌊(a.toInt : ℚ) / size.toInt⌋ = ⌊(b.toInt : ℚ) / size.toInt⌋) ∧
      (a ≤ b → ((fixed size).assign a).le ((fixed size).assign b) = true)) ∧
    ∀ {k l source target : Kind} {options : PipelineOptions} {g : Graph} {stage : Stage}
      {declared : List SideInput} {outputs : Outputs} {sur : Surroundings}
      {doFn : DoFn source.Value target.Value} {f : ViewFn k.Value l.Value} {v : View l}
      {left right leftInput rightInput : NodeId} {view leftName rightName : String},
      g.Processes options stage declared outputs sur →
      stage.operation = .parDo source target right declared doFn →
      g.stages[right]? = some ⟨rightName, .windowInto source rightInput (fixed size)⟩ →
      v.node ∈ declared.map SideInput.node →
      g.stages[v.node]? = some ⟨view, .view k l left f⟩ →
      g.stages[left]? = some ⟨leftName, .windowInto k leftInput (fixed size)⟩ →
      ∃ xs ys, outputs[leftInput]? = some (.elements k xs) ∧
        outputs[rightInput]? = some (.elements source ys) ∧
        ∃ y ∈ ys, sur.timestamp = y.timestamp ∧ sur.sideInput v =
          ViewContents.valueOf view f ((sharingPiece size y.timestamp xs).map Windowed.value) := by
  have hs := invalidSize?_fixed.mp hvalid
  refine ⟨fun a b => ⟨?_, assign_fixed_eq_iff_floor hs a b, assign_fixed_le hs⟩, ?_⟩
  · exact assigns_fixed_iff.mpr ⟨Int.ne_of_gt hs, quotient_range hs a⟩
  · intro k l source target options g stage declared outputs sur doFn f v left right leftInput
      rightInput view leftName rightName hp hop hright hv hview hleft
    obtain ⟨ys, hys, y, hy, htime, hwindow⟩ := hp.own hop hright
    obtain ⟨items, hitems, hread⟩ := hp.reads_view hv hview
    obtain ⟨xs, hxs, ho⟩ := hp.windowed hitems hleft
    cases ho
    refine ⟨xs, ys, hxs, hys, y, hy, htime, ?_⟩
    have hinterval : (fixed size).assign y.timestamp ≠ .global := nofun
    rw [hread, hwindow, ViewContents.read_share fun hglobal => hinterval hglobal.1,
      valuesIn_assign_fixed hs]

/-- The first timestamp of the second window of a second. The first window, which starts later than
its piece of time, holds it too. -/
def secondSecond : Timestamp := -9223372036854775000

/-- The stage that reads the view of the bits of its second. -/
def joiningStage : Stage :=
  ⟨"Joins", .parDo .boolean (.list .boolean) 3 [⟨4, "Seconds"⟩]
    (readingBits (bitListAt (twice .bounded) 4 "Seconds"))⟩

/-- Bits in the first two windows of a second, and one bit in the second of them that is joined with
them. -/
def joiningGraph : Graph where
  stages :=
    [⟨"Bits", .create .boolean (bitCodec none) [([0], .least), ([1], secondSecond)]⟩,
      ⟨"One", .create .boolean (bitCodec none) [([1], secondSecond + 100)]⟩,
      ⟨"BitsBySecond", .windowInto .boolean 0 (fixed 1000)⟩,
      ⟨"OneBySecond", .windowInto .boolean 1 (fixed 1000)⟩,
      ⟨"Seconds", .view .boolean (.list .boolean) 2 .iterable⟩, joiningStage]
  names := ["Joins", "Seconds", "OneBySecond", "BitsBySecond", "One", "Bits"]

theorem joiningGraph_processes :
    ∃ outputs sur, joiningGraph.Processes (twice .bounded).options joiningStage [⟨4, "Seconds"⟩]
      outputs sur ∧ outputs[0]? = some (.elements .boolean
        [⟨false, .least, .global⟩, ⟨true, secondSecond, .global⟩]) ∧
      outputs[1]? = some (.elements .boolean [⟨true, secondSecond + 100, .global⟩]) := by
  let one : Windowed Bool :=
    ⟨true, secondSecond + 100, (fixed 1000).assign (secondSecond + 100)⟩
  refine ⟨(runStages (twice .bounded).options (joiningGraph.stages.take 5)
    { graph := {} }).1.outputs, _, ⟨5, 3, {}, _, .boolean, .list .boolean,
      readingBits (bitListAt (twice .bounded) 4 "Seconds"), [one], _, one, List.mem_cons_self, rfl,
      rfl, ?_, rfl, ?_, rfl, rfl⟩, ?_, ?_⟩
  all_goals rfl

/-- At the start of time, a bit in the second window is joined with the other bit of its second, and
not with the one before it. -/
theorem fixed_windows_join_second :
    (fixed 1000).invalidSize? = none ∧
    ∃ outputs sur, joiningGraph.Processes (twice .bounded).options joiningStage [⟨4, "Seconds"⟩]
        outputs sur ∧
      ((fixed 1000).assign .least).contains sur.timestamp = true ∧
      sur.sideInput (bitListAt (twice .bounded) 4 "Seconds") = .ok [true] := by
  have hvalid : (fixed 1000).invalidSize? = none := by decide
  obtain ⟨outputs, sur, hp, hbits, hone⟩ := joiningGraph_processes
  obtain ⟨xs, ys, hxs, hys, y, hy, htime, hread⟩ := (fixed_windows_join hvalid).2
    (v := bitListAt (twice .bounded) 4 "Seconds") hp rfl rfl List.mem_cons_self rfl rfl
  cases hbits.symm.trans hxs
  cases hone.symm.trans hys
  obtain rfl := List.mem_singleton.mp hy
  refine ⟨hvalid, outputs, sur, hp, ?_, ?_⟩
  · rw [htime]
    decide
  · have hshare : sharingPiece 1000 (secondSecond + 100)
        [⟨false, .least, .global⟩, ⟨true, secondSecond, .global⟩] =
          [⟨true, secondSecond, .global⟩] := by
      have hsize : 0 < Int64.toInt 1000 := by decide
      have hpiece := floor_eq_quotient hsize
      simp only [sharingPiece, hpiece]
      rfl
    rw [hread, hshare]
    rfl

end CheckedFlow
