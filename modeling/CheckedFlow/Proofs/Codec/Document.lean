import CheckedFlow.Codec.Basic
import CheckedFlow.Proofs.Json.Reading
import CheckedFlow.Proofs.Json.Typed

/-!
# JSON documents of elements

The JSON codec gives back every element without floats that it encodes, as far as its reader goes in
containers that nest; beyond that it refuses the document, and never gives another element.

* `Kind.Exact`: the elements that their documents tell from all others of their kind.
  `Kind.exact_of_floatless`: all elements of kinds without floats.
* `Kind.Reads`: the JSON value of an element, which the reader of its kind takes for the element;
  one lemma for each kind.
* `json_roundTrips_iff`, `json_roundTrips_of_read`: deep copies. `json_decodes`: documents.
-/

namespace CheckedFlow

namespace Kind

open Json
open Json.Reader

variable {k l : Kind} {j : Json}

/-- The JSON value of an element, if it has one. -/
def jsonOf (k : Kind) (x : k.Value) : Json :=
  match k.toJson x with
  | .ok j => j
  | .error _ => .null

/-- The element has no floats, and in an option that holds something it is not written like
nothing. -/
def Exact : (k : Kind) → k.Value → Prop
  | integer, _ | byte, _ | boolean, _ | text, _ | unit, _ | trade, _ => True
  | option _, none => True
  | option k, some x => k.toJson x ≠ .ok .null ∧ k.Exact x
  | list k, xs => ∀ x ∈ xs, k.Exact x
  | entry _ l, x => l.Exact x.2
  | json, j => j.Exact
  | _, _ => False

/-- `j` is the JSON value of `x`, and a reader takes it for `x` if there are levels enough. -/
structure Reads (k : Kind) (x : k.Value) (j : Json) : Prop where
  toJson : k.toJson x = .ok j
  floatFree : j.FloatFree
  takes : ∀ levels, Takes (k.reader levels) j.renderChars (within j.nesting levels x)

theorem Reads.jsonOf {x : k.Value} (h : Reads k x j) : Reads k x (k.jsonOf x) := by
  have hj : k.jsonOf x = j := by rw [Kind.jsonOf, h.toJson]
  rwa [hj]

theorem reads_integer (n : Int64) : Reads integer n (.integer n.toInt) where
  toJson := rfl
  floatFree := trivial
  takes _ := int64_takes n

theorem reads_byte (n : UInt8) : Reads byte n (.integer n.toNat) where
  toJson := rfl
  floatFree := trivial
  takes _ := by
    have hle : (n.toNat : Int) ≤ 255 := Int.ofNat_le.mpr (Nat.le_of_lt_succ n.toNat_lt)
    have h := (wholeBetween_takes "u8" (isWord_natCast (Nat.lt_trans n.toNat_lt (by decide)))
      (Int.natCast_nonneg _) hle).map fun n : Int => UInt8.ofNat n.toNat
    rwa [Option.map_some, Int.toNat_natCast, UInt8.ofNat_toNat] at h

theorem reads_boolean (b : Bool) : Reads boolean b (.boolean b) where
  toJson := rfl
  floatFree := trivial
  takes _ := truth_takes b

theorem reads_text (s : String) : Reads text s (.text s) where
  toJson := rfl
  floatFree := trivial
  takes _ := anyText_takes _ s

theorem reads_unit : Reads unit () .null where
  toJson := rfl
  floatFree := trivial
  takes _ := nothing_takes

theorem reads_json (h : j.Exact) : Reads json j j where
  toJson := rfl
  floatFree := h.floatFree
  takes := value_takes h

theorem reads_none (k : Kind) : Reads (option k) none .null where
  toJson := rfl
  floatFree := trivial
  takes levels := by
    intro rest hrest
    have hpeek : peek.run (Bytes.ofChars (renderChars .null) ++ rest) =
        .ok (some 'n', Bytes.ofChars (renderChars .null) ++ rest) := by
      rw [renderChars_null]
      exact peek_char (by decide) _ rest
    rw [reader, run_bind_ok hpeek, if_pos rfl, run_bind_ok (nothing_takes rest hrest)]
    rfl

theorem reads_some {x : k.Value} (h : Reads k x j) (hj : j ≠ .null) :
    Reads (option k) (some x) j where
  toJson := h.toJson
  floatFree := h.floatFree
  takes levels := by
    intro rest hrest
    obtain ⟨c, tail, hcs, hc, hnull⟩ := renderChars_begin h.floatFree
    have hne : ¬ some c = some 'n' := fun hn => hj (hnull (Option.some.inj hn))
    have hpeek := peek_char hc.1 tail rest
    rw [← hcs] at hpeek
    have hx := (h.takes levels).into some rest hrest
    rw [map_within] at hx
    rw [reader, run_bind_ok hpeek, if_neg hne]
    exact hx

theorem itemsToJson_ok {α : Type} {toJson : α → Except EncodingFault Json} {f : α → Json}
    {xs : List α} (h : ∀ x ∈ xs, toJson x = .ok (f x)) : itemsToJson toJson xs = .ok (xs.map f) := by
  induction xs with
  | nil => rfl
  | cons x xs ih =>
    rw [itemsToJson, h x List.mem_cons_self, ih fun y hy => h y (List.mem_cons_of_mem x hy)]
    rfl

theorem renderItems_map {α : Type} (f : α → Json) (xs : List α) :
    renderItems (xs.map f) = allItems (fun x => (f x).renderChars) xs := by
  rw [renderItems_eq]
  cases xs with
  | nil => rfl
  | cons x xs => rw [List.map_cons, allItems, allItems, moreItems, moreItems, List.flatMap_map]

theorem reads_list {xs : List k.Value} (h : ∀ x ∈ xs, Reads k x (k.jsonOf x)) :
    Reads (list k) xs (.array (xs.map k.jsonOf)) where
  toJson := by
    rw [Kind.toJson, itemsToJson_ok fun x hx => (h x hx).toJson]
    rfl
  floatFree := by
    refine floatFree_array.mpr fun j hj => ?_
    obtain ⟨x, hx, rfl⟩ := List.mem_map.mp hj
    exact (h x hx).floatFree
  takes levels := by
    rw [reader, renderChars, nesting, List.cons_append]
    refine array_takes _ (fun inner rest => ?_) levels
    have hitem : ∀ x ∈ xs, Takes (k.reader inner) (k.jsonOf x).renderChars
        (within (k.jsonOf x).nesting inner x) := fun x hx => (h x hx).takes inner
    have hbegun : ∀ x ∈ xs, Begun (k.jsonOf x).renderChars := fun x hx => (h x hx).floatFree.begun
    rw [renderItems_map, run_bind_ok rfl, ← mapM_within]
    exact itemsFrom_all hitem hbegun (length_lt_allItems hbegun rest) rest

theorem floatFree_keyToJson (k : KeyKind) (x : k.Key) : (keyToJson k x).FloatFree := by
  cases k <;> trivial

theorem keyValue_takes (k : KeyKind) (x : k.Key) :
    Takes (keyValue k) (keyToJson k x).renderChars (some x) := by
  cases k with
  | text => exact anyText_takes _ x
  | integer => exact int64_takes x

theorem nesting_keyToJson (k : KeyKind) (x : k.Key) : (keyToJson k x).nesting = 0 := by
  cases k <;> rfl

theorem reads_entry {k : KeyKind} (key : k.Key) {x : l.Value} (h : Reads l x j) :
    Reads (entry k l) (key, x) (.array [keyToJson k key, j]) where
  toJson := by
    rw [Kind.toJson, h.toJson]
    rfl
  floatFree := by
    refine floatFree_array.mpr ?_
    simp only [List.mem_cons, List.not_mem_nil, or_false, forall_eq_or_imp, forall_eq]
    exact ⟨floatFree_keyToJson k key, h.floatFree⟩
  takes levels := by
    have hneed : nestingItems [keyToJson k key, j] = j.nesting := by
      simp [nestingItems, nesting_keyToJson]
    rw [reader, renderChars, nesting, List.cons_append, hneed]
    refine array_takes _ (fun inner rest => ?_) levels
    have hitems : renderItems [keyToJson k key, j] =
        (keyToJson k key).renderChars ++ ',' :: j.renderChars := by
      rw [renderItems, renderItems]
      exact List.cons_ne_nil _ _
    have hx := itemAt_next 0 "a tuple of size 2" (h.takes inner) h.floatFree.begun
      (stops_bracket [] rest)
    rw [hitems, Bytes.ofChars_append, List.append_assoc,
      run_bind_ok (itemAt_first _ (keyValue_takes k key) (floatFree_keyToJson k key).begun
        (stops_comma _ _)), run_bind_outcome hx fun _ => rfl, map_within]

theorem reads_trade (t : Trade) : Reads trade t (.object
    [("symbol", .text t.symbol), ("quantity", .integer t.quantity.toNat),
     ("price_cents", .integer t.priceCents.toInt)]) where
  toJson := rfl
  floatFree := ⟨trivial, trivial, trivial, trivial⟩
  takes levels := by
    have hsymbol := (once_takes "symbol" (anyText_takes "a string" t.symbol)).into
      fun s => (⟨s, none, none⟩ : TradeFields)
    have hquantity := (once_takes "quantity" (uint32_takes t.quantity)).into
      fun n => (⟨some t.symbol, n, none⟩ : TradeFields)
    have hcents := (once_takes "price_cents" (int64_takes t.priceCents)).into
      fun n => (⟨some t.symbol, some t.quantity, n⟩ : TradeFields)
    rw [reader, Json.Reader.trade]
    exact record_takes _ (.next hsymbol (.next hquantity (.next hcents (.done _)))) (fun _ => rfl)
      levels

theorem Exact.reads {x : k.Value} (hx : k.Exact x) : Reads k x (k.jsonOf x) := by
  induction k with
  | integer => exact (reads_integer x).jsonOf
  | byte => exact (reads_byte x).jsonOf
  | boolean => exact (reads_boolean x).jsonOf
  | text => exact (reads_text x).jsonOf
  | unit => exact reads_unit.jsonOf
  | trade => exact (reads_trade x).jsonOf
  | json => exact (reads_json hx).jsonOf
  | option k ih =>
    cases x with
    | none => exact (reads_none k).jsonOf
    | some x =>
      have h := ih hx.2
      have hnull : k.jsonOf x ≠ .null := fun hj => hx.1 (hj ▸ h.toJson)
      exact (reads_some h hnull).jsonOf
  | list k ih => exact (reads_list fun x hxs => ih (hx x hxs)).jsonOf
  | entry k l ih => exact (reads_entry x.1 (ih hx)).jsonOf
  | _ => exact hx.elim

/-- No element of the kind is written like nothing. -/
def neverNull : Kind → Bool
  | integer | byte | boolean | text | trade | list _ | entry _ _ => true
  | _ => false

/-- Kinds without floats and without options that cannot be told from nothing. -/
def floatless : Kind → Bool
  | integer | byte | boolean | text | unit | trade => true
  | option k => k.neverNull && k.floatless
  | list k => k.floatless
  | entry _ l => l.floatless
  | _ => false

theorem toJson_ne_null (hk : k.neverNull = true) (x : k.Value) : k.toJson x ≠ .ok .null := by
  intro hx
  cases k with
  | integer | byte | boolean | text | trade => cases hx
  | list k =>
    rw [Kind.toJson] at hx
    cases hxs : itemsToJson k.toJson x with
    | ok js => rw [hxs] at hx; cases hx
    | error e => rw [hxs] at hx; cases hx
  | entry k l =>
    rw [Kind.toJson] at hx
    cases hl : l.toJson x.2 with
    | ok j => rw [hl] at hx; cases hx
    | error e => rw [hl] at hx; cases hx
  | _ => cases hk

theorem exact_of_floatless (hk : k.floatless = true) (x : k.Value) : k.Exact x := by
  induction k with
  | integer | byte | boolean | text | unit | trade => trivial
  | option k ih =>
    rw [floatless, Bool.and_eq_true] at hk
    cases x with
    | none => trivial
    | some x => exact ⟨toJson_ne_null hk.1 x, ih hk.2 x⟩
  | list k ih => exact fun x _ => ih hk x
  | entry k l ih => exact ih hk x.2
  | _ => cases hk

example : [integer, byte, boolean, text, unit, option integer, list integer, list text,
    entry .text integer, entry .integer text, trade].all floatless = true := rfl

end Kind

namespace Codec

open Json (maxLevels)

variable {k : Kind} {x : k.Value} {j : Json}

/-- A document is taken for the element that it was made of, or refused. -/
theorem json_document (h : Kind.Reads k x j) :
    (json k).encode x = .ok (Bytes.ofChars j.renderChars) ∧
      (json k).decode (Bytes.ofChars j.renderChars) =
        if j.nesting ≤ maxLevels then .ok x else .error (.decoding (.json .malformed)) := by
  constructor
  · simp only [json, Kind.encodeJson, h.toJson, Json.render, Bytes.ofText_ofList]
  · simp only [json, Kind.decodeJson, Json.Reader.document_takes (h.takes maxLevels), Json.within]
    by_cases hle : j.nesting ≤ maxLevels
    · rw [if_pos hle, if_pos hle]
      rfl
    · rw [if_neg hle, if_neg hle]
      rfl

/-- An element without floats is its own deep copy if the levels of a reader are enough. -/
theorem json_roundTrips_iff (hx : k.Exact x) :
    (json k).RoundTrips x ↔ (k.jsonOf x).nesting ≤ maxLevels := by
  obtain ⟨hencode, hdecode⟩ := json_document hx.reads
  rw [RoundTrips, copy, hencode]
  change (json k).decode _ = .ok x ↔ _
  rw [hdecode]
  split
  · exact iff_of_true rfl ‹_›
  · exact iff_of_false (fun h => by cases h) ‹_›

/-- A JSON value that was read and has no floats is its own deep copy. -/
theorem json_roundTrips_of_read {bs : Bytes} (hread : Json.read bs = .ok j) (hfree : j.FloatFree) :
    (json .json).RoundTrips j := by
  obtain ⟨hexact, hdepth⟩ := Json.exact_of_read hread
  have hj : Kind.json.Exact j := hexact hfree
  exact (json_roundTrips_iff hj).mpr hdepth

/-- Elements of kinds without floats and JSON values without floats, among them all that were read,
have documents. A document is decoded to the element that it was made of, as far as readers go in
nesting, and refused beyond that; it is never decoded to another element. So within that depth no two
elements of a kind have the same document. -/
theorem json_decodes :
    (∀ k : Kind, k.floatless = true → ∀ x : k.Value, k.Exact x) ∧
    (∀ j : Json, j.Canonical → j.FloatFree → Kind.json.Exact j) ∧
    (∀ bs j, Json.read bs = .ok j → j.FloatFree → Kind.json.Exact j) ∧
    ∀ (k : Kind) (x : k.Value), k.Exact x →
      ∃ j b, k.toJson x = .ok j ∧ (json k).encode x = .ok b ∧
        (∀ y, (json k).decode b = .ok y → y = x) ∧
        (j.nesting ≤ maxLevels → (json k).decode b = .ok x) ∧
        (maxLevels < j.nesting → (json k).decode b = .error (.decoding (.json .malformed))) ∧
        ∀ y, k.Exact y → y ≠ x → j.nesting ≤ maxLevels → (json k).encode y ≠ .ok b := by
  refine ⟨fun k hk x => Kind.exact_of_floatless hk x, fun j hj hfree => ⟨hj, hfree⟩,
    fun bs j hread hfree => (Json.exact_of_read hread).1 hfree, fun k x hx => ?_⟩
  have hreads := hx.reads
  obtain ⟨hencode, hdecode⟩ := json_document hreads
  refine ⟨_, _, hreads.toJson, hencode, fun y hy => ?_, fun hle => ?_, fun hlt => ?_,
    fun y hy hne hle hsame => ?_⟩
  · rw [hdecode] at hy
    split at hy
    · exact (Except.ok.inj hy).symm
    · cases hy
  · rw [hdecode, if_pos hle]
  · rw [hdecode, if_neg (Nat.not_le.mpr hlt)]
  · -- one document cannot be decoded to both
    obtain ⟨hencode', hdecode'⟩ := json_document hy.reads
    rw [hencode'] at hsame
    rw [Except.ok.inj hsame, hdecode, if_pos hle] at hdecode'
    split at hdecode'
    · exact hne (Except.ok.inj hdecode').symm
    · cases hdecode'

/-- A quote, a backslash, a control character, a letter outside ASCII and both ends of the whole
numbers, in containers. -/
theorem json_decodes_nested :
    let j : Json := .array [.text "\"\\\x01é", .null,
      .object [("high", .integer 0xFFFFFFFFFFFFFFFF), ("low", .integer (-0x8000000000000000))]]
    Kind.json.Exact j ∧ ∃ b, (json .json).encode j = .ok b ∧ (json .json).decode b = .ok j ∧
      (json .json).encode .null ≠ .ok b := by
  intro j
  have hj : Kind.json.Exact j := by
    refine ⟨⟨trivial, trivial, ⟨?_, ?_, ?_, trivial⟩, trivial⟩, trivial, trivial,
      ⟨trivial, trivial, trivial⟩, trivial⟩
    · simp only [List.pairwise_cons, List.mem_singleton, forall_eq, List.not_mem_nil]
      exact ⟨by decide, fun _ h => h.elim, .nil⟩
    · exact ⟨by decide, by decide⟩
    · exact ⟨by decide, by decide⟩
  have hnull : Kind.json.Exact .null := ⟨trivial, trivial⟩
  have hdepth : j.nesting ≤ maxLevels := by decide
  obtain ⟨j', b, hvalue, hencode, -, hdecode, -, hother⟩ := json_decodes.2.2.2 .json j hj
  rw [← Except.ok.inj hvalue] at hdecode hother
  exact ⟨hj, b, hencode, hdecode hdepth, hother .null hnull (fun h => Json.noConfusion h) hdepth⟩

end Codec

end CheckedFlow
