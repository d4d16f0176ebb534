import CheckedFlow.Decimal.Reading
import CheckedFlow.Element.Document

/-!
# The plain form of elements

The plain form of an element is a JSON value that keeps all of it: floats are told by their message
text, since JSON has no infinities and no NaN, and dictionaries and tables are arrays of entries in
increasing order of their keys. `Kind.plain` gives an element its plain form and `Kind.ofPlain?`
reads one back; `Kind.plainText` is the plain form as a text, with the keys of objects sorted.
-/

namespace CheckedFlow.Kind

/-- The plain form of an element. -/
def plain : (k : Kind) → k.Value → Json
  | integer, n => .integer n.toInt
  | byte, n => .integer n.toNat
  | boolean, b => .boolean b
  | text, s => .text s
  | float, x => .text (Decimal.Layout.message.write x)
  | unit, _ => .null
  | option _, none => .null
  | option k, some x => k.plain x
  | list k, xs => .array (xs.map k.plain)
  | entry k l, x => .array [keyToJson k x.1, l.plain x.2]
  | dictionary k l, d =>
    .array ((d.entries.mergeSort fun e f => k.le e.1 f.1).map fun e =>
      .array [keyToJson k e.1, l.plain e.2])
  | pairTable, t =>
    .array (t.entries.map fun e =>
      .array [.array [.integer e.1.1.toInt, .integer e.1.2.toInt], .integer e.2.toInt])
  | trade, t => .ofFields
      [("symbol", .text t.symbol), ("quantity", .integer t.quantity.toNat),
       ("price_cents", .integer t.priceCents.toInt)]
  | json, j => j
  | window, .global => .text "Global"
  | window, .interval s e => .object
      [("Interval", .ofFields [("start_ms", .integer s.toInt), ("end_ms", .integer e.toInt)])]
  | windowFn, .global => .text "Global"
  | windowFn, .fixed n => .object [("Fixed", .object [("size_ms", .integer n.toInt)])]
  | options, o => .ofFields
      [("job_name", .text o.jobName), ("run_mode", .text o.runMode.name),
       ("parallelism", .integer o.parallelism.toNat),
       ("trigger_firings", .integer o.triggerFirings.toNat)]
  | copy k, .ok x => k.plain x
  | copy _, .error e => .text e.message

/-- The plain form of an element as a text. -/
def plainText (k : Kind) (x : k.Value) : String := (k.plain x).render

/-- The whole number of 64 signed bits that a plain form holds. -/
def int64? : Json → Option Int64
  | .integer n =>
    if Int64.minValue.toInt ≤ n ∧ n ≤ Int64.maxValue.toInt then some (Int64.ofInt n) else none
  | _ => none

/-- The key that a plain form holds. -/
def keyOfPlain? : (k : KeyKind) → Json → Option k.Key
  | .text, .text s => some s
  | .integer, j => int64? j
  | _, _ => none

/-- The items of a list from their plain forms. -/
def itemsOfPlain? {α : Type} (read : Json → Option α) : List Json → Option (List α)
  | [] => some []
  | j :: js => do return (← read j) :: (← itemsOfPlain? read js)

/-- An entry of a table of pairs from its plain form. -/
def pairEntryOfPlain? : Json → Option ((Int64 × Int64) × Int64)
  | .array [.array [a, b], v] => do return ((← int64? a, ← int64? b), ← int64? v)
  | _ => none

/-- An element whose plain form is its JSON document. -/
def ofDocument? (k : Kind) (j : Json) : Option k.Value :=
  match k.decodeJson (Bytes.ofText j.render) with
  | .ok x => some x
  | .error _ => none

/-- The element with a plain form. A float may also stand as a number. -/
def ofPlain? : (k : Kind) → Json → Option k.Value
  | integer, j => int64? j
  | byte, .integer n => if 0 ≤ n ∧ n < 256 then some (UInt8.ofNat n.toNat) else none
  | boolean, .boolean b => some b
  | text, .text s => some s
  | float, .text s => Decimal.readFloat? s
  | float, .integer n => some (Float.ofInt n)
  | float, .float x => some x
  | unit, .null => some ()
  | option _, .null => some none
  | option k, j => (k.ofPlain? j).map some
  | list k, .array js => itemsOfPlain? k.ofPlain? js
  | entry k l, .array [j, j'] => do return (← keyOfPlain? k j, ← l.ofPlain? j')
  | dictionary k l, .array js => do
    let entries ← itemsOfPlain?
      (fun j =>
        match j with
        | .array [j, j'] => do return (← keyOfPlain? k j, ← l.ofPlain? j')
        | _ => none) js
    return entries.foldl (fun d e => d.insert e.1 e.2) Dictionary.empty
  | pairTable, .array js => PairTable.ofEntries <$> itemsOfPlain? pairEntryOfPlain? js
  | trade, j => ofDocument? trade j
  | json, j => some j
  | window, j => ofDocument? window j
  | windowFn, j => ofDocument? windowFn j
  | options, j => ofDocument? options j
  | _, _ => none

end CheckedFlow.Kind
