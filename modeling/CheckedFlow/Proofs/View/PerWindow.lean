import CheckedFlow.Proofs.Check.Evidence
import CheckedFlow.Proofs.View.Reading
import Mathlib.Data.List.Dedup

/-!
# A view holds a value for each window

A stage that materializes a view sorts its elements by their windows, once, and applies the view
function to each share. Who reads a window gets what the view function makes of the elements of that
window, no matter how they were mixed with those of other windows, and of no elements if there are
none. The one exception is the global window of a view of intervals. A refusal is kept with its
window, so the stage itself does not fail.

* `valuesIn`: the share of a window.
* `length_group`: there are as many shares as windows.
* `view_reads_windows`: what each window reads, and that it reads it whatever other windows hold.
-/

namespace CheckedFlow

/-! ## Shares -/

namespace Dictionary

variable {κ α : Type} [DecidableEq κ] {entries : List (κ × α)} {k : κ}

theorem mem_keys_group : k ∈ (group entries).keys ↔ k ∈ entries.map Prod.fst := by
  induction entries with
  | nil => simp [group, empty, keys]
  | cons e rest ih =>
    obtain ⟨j, v⟩ := e
    have hkeys : (group ((j, v) :: rest)).keys = j :: (group rest).keys.filter fun i => i ≠ j := by
      simp only [group, addToGroup, keys, otherEntries, List.map_cons, List.filter_map]
      rfl
    rw [hkeys, List.map_cons, List.mem_cons, List.mem_cons, List.mem_filter, ih]
    by_cases h : k = j <;> simp [h]

/-- The values are gathered under as many keys as there are. -/
theorem length_group (entries : List (κ × α)) :
    (group entries).entries.length = (entries.map Prod.fst).dedup.length := by
  have hperm : (group entries).keys.Perm (entries.map Prod.fst).dedup := by
    refine (List.perm_ext_iff_of_nodup (group entries).nodup (List.nodup_dedup _)).mpr fun k => ?_
    rw [List.mem_dedup]
    exact mem_keys_group
  rw [← hperm.length_eq, keys, List.length_map]

end Dictionary

/-- The values of the elements in the window `w`, in their order. -/
def valuesIn {α : Type} (w : Window) (es : List (Windowed α)) : List α :=
  (es.filter fun e => e.window = w).map Windowed.value

/-- There are elements, but none of them is in the global window. -/
def IntervalsOnly {α : Type} (es : List (Windowed α)) : Prop :=
  es ≠ [] ∧ ∀ e ∈ es, e.window ≠ .global

theorem valuesIn_eq_nil {α : Type} {w : Window} {es : List (Windowed α)} :
    valuesIn w es = [] ↔ ∀ e ∈ es, e.window ≠ w := by
  simp [valuesIn, List.filter_eq_nil_iff]

namespace ViewContents

variable {α β : Type} {name : String} {f : ViewFn α β} {es : List (Windowed α)} {w : Window}

theorem length_materialize (name : String) (f : ViewFn α β) (es : List (Windowed α)) :
    (materialize name f es).perWindow.entries.length = (es.map Windowed.window).dedup.length := by
  simp only [materialize, Dictionary.mapValues, List.length_map, Dictionary.length_group]
  rw [List.map_map]
  rfl

/-- A window reads the value of its share, also if that is empty. -/
theorem read_share (h : ¬ (w = .global ∧ IntervalsOnly es)) :
    (materialize name f es).read w = valueOf name f (valuesIn w es) := by
  refine (read_materialize name f es w).trans (if_neg ?_)
  rintro ⟨hnil, rfl, hne⟩
  exact h ⟨rfl, hne, valuesIn_eq_nil.mp hnil⟩

/-- The global window reads no value from a view of intervals. -/
theorem read_intervals (h : IntervalsOnly es) :
    (materialize name f es).read .global = .error (.viewMaterialization name
      (.intervalsOnly (es.map Windowed.window).dedup.length)) := by
  rw [← length_materialize name f es]
  exact (read_materialize name f es .global).trans
    (if_pos ⟨valuesIn_eq_nil.mpr h.2, rfl, h.1⟩)

/-- What the view function makes of other shares does not matter. -/
theorem read_congr {f' : ViewFn α β} (h : f'.apply (valuesIn w es) = f.apply (valuesIn w es)) :
    (materialize name f' es).read w = (materialize name f es).read w := by
  by_cases hw : w = .global ∧ IntervalsOnly es
  · obtain ⟨rfl, hes⟩ := hw
    rw [read_intervals hes, read_intervals hes]
  · rw [read_share hw, read_share hw, valueOf, valueOf, h]

end ViewContents

/-! ## What windows read -/

/-- Whatever the view function refuses, a view stage has contents. From them a window reads what the
view function makes of the window's own elements, in their order: its value, the repeated key as
such, and every other refusal as one of the view. Only the global window of a view that has elements
in intervals and none in the global window reads neither, but a failure of the view that tells how
many windows there are. What the view function makes of the elements of other windows, refusals
included, does not change what a window reads. -/
theorem view_reads_windows {k l : Kind} (options : PipelineOptions) (view : String)
    (f : ViewFn k.Value l.Value) {outputs : Outputs} {input : NodeId}
    {es : List (Windowed k.Value)} (hes : outputs[input]? = some (.elements k es)) :
    ∃ contents,
      (Operation.view k l input f).evaluate options view outputs =
        { result := .ok (.view l contents) } ∧
      (∀ w, ¬ (w = .global ∧ IntervalsOnly es) →
        (∀ x, f.apply (valuesIn w es) = .ok x → contents.read w = .ok x) ∧
        (∀ key, f.apply (valuesIn w es) = .error (.repeatedKey key) →
          contents.read w = .error (.duplicateKey view key)) ∧
        ∀ e, (∀ key, e ≠ .repeatedKey key) → f.apply (valuesIn w es) = .error e →
          contents.read w = .error (.viewMaterialization view (.view e))) ∧
      (IntervalsOnly es → contents.read .global = .error (.viewMaterialization view
        (.intervalsOnly (es.map Windowed.window).dedup.length))) ∧
      ∀ (f' : ViewFn k.Value l.Value) (contents' : ViewContents l.Value),
        (Operation.view k l input f').evaluate options view outputs =
          { result := .ok (.view l contents') } →
        ∀ w, f'.apply (valuesIn w es) = f.apply (valuesIn w es) →
          contents'.read w = contents.read w := by
  refine ⟨.materialize view f es, evaluate_view hes, fun w hw => ?_, ViewContents.read_intervals,
    fun f' contents' hevaluate w hsame => ?_⟩
  · rw [ViewContents.read_share hw, ViewContents.valueOf]
    refine ⟨fun x hx => ?_, fun key hkey => ?_, fun e he hrefused => ?_⟩
    · rw [hx]
    · rw [hkey]
      rfl
    · rw [hrefused]
      cases e with
      | repeatedKey key => exact absurd rfl (he key)
      | emptySingleton | tooMany | copyFailed | told => rfl
  · rw [evaluate_view hes] at hevaluate
    cases hevaluate
    exact ViewContents.read_congr hsame

/-- Three bits in two windows, the second of which has two. -/
def bitsInTwoWindows : List (Windowed Bool) :=
  [⟨true, 12, .interval 10 20⟩, ⟨false, 3, .interval 0 10⟩, ⟨true, 15, .interval 10 20⟩]

/-- A view of single values: the window with one bit reads it although the one with two is refused.
A window without bits reads the refusal of none, and the global window cannot be read. -/
theorem view_reads_windows_bits :
    ∃ contents : ViewContents Bool,
      (Operation.view .boolean .boolean 0 .singleton).evaluate {} "V"
        [.elements .boolean bitsInTwoWindows] = { result := .ok (.view .boolean contents) } ∧
      contents.read (.interval 0 10) = .ok false ∧
      contents.read (.interval 10 20) = .error (.viewMaterialization "V" (.view (.tooMany 2))) ∧
      contents.read (.interval 20 30) =
        .error (.viewMaterialization "V" (.view .emptySingleton)) ∧
      contents.read .global = .error (.viewMaterialization "V" (.intervalsOnly 2)) := by
  have hes : ([.elements .boolean bitsInTwoWindows] : Outputs)[0]? =
      some (.elements .boolean bitsInTwoWindows) := rfl
  obtain ⟨contents, hevaluate, hshares, hglobal, -⟩ :=
    view_reads_windows (k := .boolean) (l := .boolean) {} "V" .singleton hes
  have hlocal (start stop : Timestamp) := hshares (.interval start stop) (by simp)
  refine ⟨contents, hevaluate, (hlocal 0 10).1 _ rfl, (hlocal 10 20).2.2 _ nofun rfl,
    (hlocal 20 30).2.2 _ nofun rfl, ?_⟩
  have hintervals : IntervalsOnly bitsInTwoWindows :=
    ⟨by simp [bitsInTwoWindows], by simp [bitsInTwoWindows]⟩
  exact hglobal hintervals

end CheckedFlow
