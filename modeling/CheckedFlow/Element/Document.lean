import CheckedFlow.Element.Kind
import CheckedFlow.Json.Reader
import CheckedFlow.Json.Render

/-!
# Elements as JSON documents

* `Kind.toJson`: the JSON value of an element. Records have their fields in the order of their
  declaration; a table of pairs has a JSON form only when it is empty, since its keys are no texts.
* `Kind.reader`: reads an element. Records are read from objects, in which fields that the record
  lacks are passed over, and from arrays in the order of the fields.
* `Kind.encodeJson`, `Kind.decodeJson`: the same between elements and whole documents.
-/

namespace CheckedFlow

open Decoding
open Json (Reader)

namespace Json.Reader

/-! ## Scalars -/

/-- A whole number between `low` and `high`. -/
def wholeBetween (low high : Int) (wanted : String) : Reader Int := do
  match ← found with
  | .integer n => if low ≤ n ∧ n ≤ high then return n else throw (.wrongValue (.integer n) wanted)
  | other => throw (.wrongKind other wanted)

/-- A number as a float. -/
def anyNumber : Reader Float := do
  match ← found with
  | .integer n => return Float.ofInt n
  | .float x => return x
  | other => throw (.wrongKind other "f64")

/-- A truth value. -/
def truth : Reader Bool := do
  match ← found with
  | .boolean b => return b
  | other => throw (.wrongKind other "a boolean")

/-- A text. -/
def anyText (wanted : String) : Reader String := do
  match ← found with
  | .text s => return s
  | other => throw (.wrongKind other wanted)

/-- The value that holds nothing. -/
def nothing : Reader Unit := do
  match ← found with
  | .nothing => return ()
  | other => throw (.wrongKind other "unit")

/-! ## Containers -/

/-- `body` inside a container, for which a level must be left. -/
def inside {α : Type} (levels : Nat) (body : Nat → Reader α) : Reader α :=
  match levels with
  | 0 => malformed
  | inner + 1 => do skip; body inner

/-- `body` on the items of an array. -/
def array {α : Type} (levels : Nat) (wanted : String) (body : Nat → Reader α) : Reader α := do
  if (← peek) = some '[' then
    inside levels fun inner => do
      let x ← body inner
      endArray
      return x
  else wrong wanted

/-- The next item of an array of fixed length, of which `index` items came before. -/
def itemAt {α : Type} (index : Nat) (wanted : String) (item : Reader α) : Reader α := do
  if ← nextItem (index = 0) then item else throw (.wrongLength index wanted)

/-- The next item of an array, or `default` at its end. -/
def itemOr {α : Type} (index : Nat) (default : α) (item : Reader α) : Reader α := do
  if ← nextItem (index = 0) then item else return default

/-- The value of a field that was not read before. -/
def once {α : Type} (name : String) (old : Option α) (value : Reader α) : Reader (Option α) := do
  if old.isSome then throw (.repeatedField name)
  colon
  return some (← value)

/-- The value of a field that must be there. -/
def need {α : Type} (name : String) : Option α → Reader α
  | some x => return x
  | none => throw (.missingField name)

/-- Passes over a field that nobody wants. -/
def skipField : Reader Unit := do colon; skipValue

/-- A record: from an array by `items`, from an object by `step` for each field and `finish`. -/
def record {σ α : Type} (levels : Nat) (wanted : String) (items : Reader α)
    (step : σ → String → Reader σ) (start : σ) (finish : σ → Reader α) : Reader α := do
  match ← peek with
  | some '[' => array levels wanted fun _ => items
  | some '\x7b' =>
    inside levels fun _ => do
      let x ← finish (← foldFields step start)
      endObject
      return x
  | _ => wrong wanted

/-- One of several alternatives: a bare name, or an object of one field that has the name as its
key. `bare` makes of a name what it stands for, `content` reads what belongs to it. -/
def alternative {α : Type} (levels : Nat) (bare : String → Reader α)
    (content : String → Nat → Reader α) : Reader α := do
  match ← peek with
  | some '"' => skip; bare (← string)
  | some '\x7b' =>
    inside levels fun inner => do
      let x ← content (← anyText "variant identifier") inner
      endObject
      return x
  | _ => malformed

/-- What an alternative without fields stands for, after its name. -/
def bareContent {α : Type} (x : α) : Reader α := do colon; nothing; return x

/-! ## Records -/

/-- A whole number of 64 signed bits. -/
def int64 : Reader Int64 :=
  Int64.ofInt <$> wholeBetween Int64.minValue.toInt Int64.maxValue.toInt "i64"

/-- A natural number of 32 bits. -/
def uint32 : Reader UInt32 := (fun n => UInt32.ofNat n.toNat) <$> wholeBetween 0 (UInt32.size - 1) "u32"

/-- A natural number of 64 bits. -/
def uint64 : Reader UInt64 :=
  (fun n => UInt64.ofNat n.toNat) <$> wholeBetween 0 (UInt64.size - 1) "usize"

/-- The fields of a trade that were read. -/
structure TradeFields where
  symbol : Option String := none
  quantity : Option UInt32 := none
  priceCents : Option Int64 := none

/-- A trade. -/
def trade (levels : Nat) : Reader Trade :=
  let text := anyText "a string"
  let length := "struct Trade with 3 elements"
  record levels "struct Trade"
    (do return ⟨← itemAt 0 length text, ← itemAt 1 length uint32, ← itemAt 2 length int64⟩)
    (fun (f : TradeFields) key => do
      match key with
      | "symbol" => return { f with symbol := ← once key f.symbol text }
      | "quantity" => return { f with quantity := ← once key f.quantity uint32 }
      | "price_cents" => return { f with priceCents := ← once key f.priceCents int64 }
      | _ => skipField; return f)
    {}
    (fun f => do
      return ⟨← need "symbol" f.symbol, ← need "quantity" f.quantity,
        ← need "price_cents" f.priceCents⟩)

/-- The names of the alternatives, when none of them was met. -/
def unknown {α : Type} (name : String) (known : List String) : Reader α :=
  throw (.unknownAlternative name known)

/-- A window. -/
def window (levels : Nat) : Reader Window :=
  let known := ["Global", "Interval"]
  let length := "struct variant Window::Interval with 2 elements"
  alternative levels
    (fun name =>
      match name with
      | "Global" => return .global
      | "Interval" => throw (.wrongKind .bareAlternative "struct variant")
      | _ => unknown name known)
    (fun name levels =>
      match name with
      | "Global" => bareContent .global
      | "Interval" => do
        colon
        record levels "struct variant Window::Interval"
          (do return .interval (← itemAt 0 length int64) (← itemAt 1 length int64))
          (fun (f : Option Int64 × Option Int64) key => do
            match key with
            | "start_ms" => return (← once key f.1 int64, f.2)
            | "end_ms" => return (f.1, ← once key f.2 int64)
            | _ => skipField; return f)
          (none, none)
          (fun f => do return .interval (← need "start_ms" f.1) (← need "end_ms" f.2))
      | _ => unknown name known)

/-- A window function. -/
def windowFn (levels : Nat) : Reader WindowFn :=
  let known := ["Global", "Fixed"]
  alternative levels
    (fun name =>
      match name with
      | "Global" => return .global
      | "Fixed" => throw (.wrongKind .bareAlternative "struct variant")
      | _ => unknown name known)
    (fun name levels =>
      match name with
      | "Global" => bareContent .global
      | "Fixed" => do
        colon
        record levels "struct variant WindowFn::Fixed"
          (do return .fixed (← itemAt 0 "struct variant WindowFn::Fixed with 1 element" int64))
          (fun (f : Option Int64) key => do
            match key with
            | "size_ms" => once key f int64
            | _ => skipField; return f)
          none
          (fun f => do return .fixed (← need "size_ms" f))
      | _ => unknown name known)

/-- A run mode by its name. -/
def runMode (levels : Nat) : Reader RunMode :=
  let named (name : String) : Reader RunMode :=
    match RunMode.named? name with
    | some mode => return mode
    | none => unknown name RunMode.names
  alternative levels named fun name _ => do bareContent (← named name)

/-- The fields of options that were read. -/
structure OptionsFields where
  jobName : Option String := none
  runMode : Option RunMode := none
  parallelism : Option UInt64 := none
  triggerFirings : Option UInt32 := none

/-- The options with the fields that were read, and with defaults for the others. -/
def OptionsFields.options (f : OptionsFields) : PipelineOptions :=
  let d : PipelineOptions := {}
  ⟨f.jobName.getD d.jobName, f.runMode.getD d.runMode, f.parallelism.getD d.parallelism,
    f.triggerFirings.getD d.triggerFirings⟩

/-- Pipeline options; what is absent has its default. -/
def options (levels : Nat) : Reader PipelineOptions :=
  let text := anyText "a string"
  let d : PipelineOptions := {}
  record levels "struct PipelineOptions"
    (do return ⟨← itemOr 0 d.jobName text, ← itemOr 1 d.runMode (runMode (levels - 1)),
      ← itemOr 2 d.parallelism uint64, ← itemOr 3 d.triggerFirings uint32⟩)
    (fun (f : OptionsFields) key => do
      match key with
      | "job_name" => return { f with jobName := ← once key f.jobName text }
      | "run_mode" => return { f with runMode := ← once key f.runMode (runMode (levels - 1)) }
      | "parallelism" => return { f with parallelism := ← once key f.parallelism uint64 }
      | "trigger_firings" =>
        return { f with triggerFirings := ← once key f.triggerFirings uint32 }
      | _ => skipField; return f)
    {}
    (fun f => return f.options)

/-- A key that stands as a value. -/
def keyValue : (k : KeyKind) → Reader k.Key
  | .text => anyText "a string"
  | .integer => int64

/-- The key of a dictionary that `s` writes. -/
def key : (k : KeyKind) → String → Reader k.Key
  | .text, s => return s
  | .integer, s => do
    match document int64 (Bytes.ofText s) with
    | .ok n => return n
    | .error fault => throw fault

end Json.Reader

namespace Kind

open Json.Reader

/-- Reads an element of a kind, in which at most `levels` containers nest. -/
def reader : (k : Kind) → (levels : Nat) → Reader k.Value
  | integer, _ => int64
  | byte, _ => (fun n => UInt8.ofNat n.toNat) <$> wholeBetween 0 255 "u8"
  | boolean, _ => truth
  | text, _ => anyText "a string"
  | float, _ => anyNumber
  | unit, _ => nothing
  | option k, levels => do
    if (← peek) = some 'n' then
      nothing
      return none
    else return some (← k.reader levels)
  | list k, levels => array levels "a sequence" fun inner => do
    itemsFrom (k.reader inner) (← get) true
  | entry k l, levels =>
    let length := "a tuple of size 2"
    array levels length fun inner => do
      return (← itemAt 0 length (keyValue k), ← itemAt 1 length (l.reader inner))
  | dictionary k l, levels => do
    if (← peek) = some '\x7b' then
      inside levels fun inner => do
        let d ← foldFields
          (fun d name => do
            let key ← key k name
            colon
            return d.insert key (← l.reader inner))
          Dictionary.empty
        endObject
        return d
    else wrong "a map"
  | pairTable, levels => do
    if (← peek) = some '\x7b' then
      inside levels fun _ => do
        match ← nextKey true with
        | none => endObject; return ⟨[]⟩
        | some name => throw (.wrongKind (.text name) "a tuple of size 2")
    else wrong "a map"
  | trade, levels => Json.Reader.trade levels
  | json, levels => Json.Reader.value levels
  | window, levels => Json.Reader.window levels
  | windowFn, levels => Json.Reader.windowFn levels
  | options, levels => Json.Reader.options levels
  | copy k, levels => (fun x => Except.ok x) <$> k.reader levels

/-- The JSON values of the items of a list. -/
def itemsToJson {α : Type} (toJson : α → Except EncodingFault Json) :
    List α → Except EncodingFault (List Json)
  | [] => .ok []
  | x :: xs => do return (← toJson x) :: (← itemsToJson toJson xs)

/-- The JSON value of a key. -/
def keyToJson : (k : KeyKind) → k.Key → Json
  | .text, s => .text s
  | .integer, n => .integer n.toInt

/-- The text of a key of a dictionary in an object. -/
def keyText : (k : KeyKind) → k.Key → String
  | .text, s => s
  | .integer, n => Text.signed n.toInt

/-- The JSON value of an element. -/
def toJson : (k : Kind) → k.Value → Except EncodingFault Json
  | integer, n => .ok (.integer n.toInt)
  | byte, n => .ok (.integer n.toNat)
  | boolean, b => .ok (.boolean b)
  | text, s => .ok (.text s)
  | float, x => .ok (.float x)
  | unit, _ => .ok .null
  | option _, none => .ok .null
  | option k, some x => k.toJson x
  | list k, xs => Json.array <$> itemsToJson k.toJson xs
  | entry k l, x => do return .array [keyToJson k x.1, ← l.toJson x.2]
  | dictionary k l, d => do
    let values ← itemsToJson l.toJson (d.entries.map Prod.snd)
    return .object ((d.entries.map fun e => keyText k e.1).zip values)
  | pairTable, t => if t.entries.isEmpty then .ok (.object []) else .error .jsonKey
  | trade, t => .ok (.object
      [("symbol", .text t.symbol), ("quantity", .integer t.quantity.toNat),
       ("price_cents", .integer t.priceCents.toInt)])
  | json, j => .ok j
  | window, .global => .ok (.text "Global")
  | window, .interval s e => .ok (.object
      [("Interval", .object [("start_ms", .integer s.toInt), ("end_ms", .integer e.toInt)])])
  | windowFn, .global => .ok (.text "Global")
  | windowFn, .fixed n => .ok (.object [("Fixed", .object [("size_ms", .integer n.toInt)])])
  | options, o => .ok (.object
      [("job_name", .text o.jobName), ("run_mode", .text o.runMode.name),
       ("parallelism", .integer o.parallelism.toNat),
       ("trigger_firings", .integer o.triggerFirings.toNat)])
  | copy k, .ok x => k.toJson x
  | copy _, .error e => .error (.told e.message)

/-- The document of an element. -/
def encodeJson (k : Kind) (x : k.Value) : Except SerializationError Bytes :=
  match k.toJson x with
  | .ok j => .ok (Bytes.ofText j.render)
  | .error fault => .error (.encoding fault)

/-- The element of a document. -/
def decodeJson (k : Kind) (bs : Bytes) : Except SerializationError k.Value :=
  match document (k.reader Json.maxLevels) bs with
  | .ok x => .ok x
  | .error fault => .error (.decoding (.json fault))

end Kind

end CheckedFlow
