import CheckedFlow.Element.Plain
import CheckedFlow.Graph.Processing

/-!
# Functions that scripts name

* `ElementMap.meaning?`: functions from an element to one element.
* `ElementTask.meaning?`: functions of stages, which may count, read views, fail or panic.

Both are defined for some kinds of elements only and say what kind they emit.
-/

namespace CheckedFlow.Script

/-- Texts with a number. -/
abbrev counted : Kind := .entry .text .integer

/-- Numbers with a text. -/
abbrev numbered : Kind := .entry .integer .text

/-- The description of a function from an element to an element. -/
inductive ElementMap where
  | identity
  /-- The text of the element in messages. -/
  | debug
  | add (n : Int64)
  | multiply (n : Int64)
  /-- A number under the text of its remainder. -/
  | keyByRemainder (n : Int64)
  /-- The list of the element alone. -/
  | singletonList
  /-- The items of a list, or the bytes of a text. -/
  | length
  | upper
  /-- A text with its length. -/
  | withLength
  | sum
  | key
  | value
  /-- An entry with its key and value exchanged. -/
  | swap
deriving DecidableEq, Repr

/-- The number of bytes of a text. -/
def byteLength (s : String) : Int64 := Int64.ofNat s.utf8ByteSize

/-- A kind of elements with something that depends on it. -/
structure Emitting (F : Kind → Type) where
  kind : Kind
  content : F kind

namespace ElementMap

/-- The function that a description names on the elements of a kind. -/
def meaning? : ElementMap → (k : Kind) → Option (Emitting fun l => k.Value → l.Value)
  | identity, k => some ⟨k, id⟩
  | debug, k => some ⟨.text, k.describe⟩
  | add n, .integer => some ⟨.integer, fun x => x + n⟩
  | multiply n, .integer => some ⟨.integer, fun x => x * n⟩
  | keyByRemainder n, .integer =>
    some ⟨counted, fun x => (Text.signed (x.toInt % max n.toInt 1), x)⟩
  | singletonList, .integer => some ⟨.list .integer, fun x => [x]⟩
  | length, .text => some ⟨.integer, byteLength⟩
  | upper, .text => some ⟨.text, Text.upperAscii⟩
  | withLength, .text => some ⟨counted, fun s => (s, byteLength s)⟩
  | length, .list .integer => some ⟨.integer, fun xs => Int64.ofNat xs.length⟩
  | sum, .list .integer => some ⟨.integer, List.sum⟩
  | key, .entry .text .integer => some ⟨.text, Prod.fst⟩
  | key, .entry .integer .text => some ⟨.integer, Prod.fst⟩
  | value, .entry .text .integer => some ⟨.integer, Prod.snd⟩
  | value, .entry .integer .text => some ⟨.text, Prod.snd⟩
  | swap, .entry .text .integer => some ⟨numbered, fun x => (x.2, x.1)⟩
  | swap, .entry .integer .text => some ⟨counted, fun x => (x.2, x.1)⟩
  | _, _ => none

end ElementMap

/-- Values in plain form as elements of a kind, if all of them fit. -/
def elements? (k : Kind) (values : List Json) : Option (List k.Value) :=
  Kind.itemsOfPlain? k.ofPlain? values

/-- A view with the kind of its values. -/
structure AnyView where
  kind : Kind
  view : View kind

/-- The description of a function of a stage. `ν` names views. -/
inductive ElementTask (ν : Type) where
  | identity
  /-- Some copies; without a number, as many as the element says. -/
  | copies (number : Option Nat)
  /-- Counts, then panics or fails at some elements, and emits the others. -/
  | visit (counting : Option (String × UInt64)) (panicOn failOn : List Json)
      (error : PipelineError)
  /-- Moves the timestamp. -/
  | shift (offset : Int64)
  /-- A text that tells the element and its surroundings. -/
  | describe
  /-- A text of the element and of what views hold for it; a view that cannot be read is told
  in the text, or is the error of the stage. -/
  | read (views : List ν) (propagate : Bool)

/-- The most copies that an element can ask for. -/
def mostCopies : Int := 50

/-- The copies that an element asks for: as many as its number, within limits. -/
def copiesAsked (k : Kind) (x : k.Value) : Nat :=
  match k, x with
  | .integer, n => (min n.toInt mostCopies).toNat
  | .json, .integer n => (min n mostCopies).toNat
  | _, _ => 1

/-- The text of an element and its surroundings. -/
def told (k : Kind) (s : Surroundings) (x : k.Value) : String :=
  k.plainText x ++ " @" ++ Text.signed s.timestamp.toInt ++ " " ++ s.window.text ++ " " ++
    s.stage ++ " " ++ s.options.runMode.name ++ " " ++ s.options.jobName

/-- What a view holds for an element, as an object. -/
def viewed (s : Surroundings) (v : AnyView) : Except PipelineError Json :=
  (fun y => .object [("ok", v.kind.plain y)]) <$> s.sideInput v.view

/-- What a view holds for an element, or why it cannot be read, as an object. -/
def viewedOrTold (s : Surroundings) (v : AnyView) : Json :=
  match viewed s v with
  | .ok j => j
  | .error e => .object [("err", .text e.message)]

/-- What several views hold for an element; the first that cannot be read is told. -/
def viewedAll (s : Surroundings) : List AnyView → Except PipelineError (List Json)
  | [] => .ok []
  | v :: vs => do return (← viewed s v) :: (← viewedAll s vs)

/-- Emits an element. -/
def emitting {β : Type} (s : Surroundings) (x : β) : Processed β := { emitted := [s.emit x] }

namespace ElementTask

/-- The same description with other names for views. -/
def mapViews {m : Type → Type} [Monad m] {ν μ : Type} (f : ν → m μ) :
    ElementTask ν → m (ElementTask μ)
  | identity => return identity
  | copies number => return copies number
  | visit counting panicOn failOn error => return visit counting panicOn failOn error
  | shift offset => return shift offset
  | describe => return describe
  | read views propagate => do return read (← views.mapM f) propagate

/-- Counts, then panics, fails or emits. -/
def visiting {k : Kind} (counting : Option (String × UInt64)) (panicOn failOn : List k.Value)
    (error : PipelineError) : DoFn k.Value k.Value := fun s x =>
  let effects := counting.toList.map fun c => Effect.count c.1 c.2
  if panicOn.any (k.equal · x) then { effects, ending := .panicked }
  else if failOn.any (k.equal · x) then { effects, ending := .failed error }
  else { effects, emitted := [s.emit x] }

/-- The text of an element and of what views hold for it. -/
def reading (k : Kind) (views : List AnyView) (propagate : Bool) : DoFn k.Value String :=
  fun s x =>
    let text (held : List Json) : String := (Json.array (k.plain x :: held)).render
    if propagate then
      match viewedAll s views with
      | .ok held => emitting s (text held)
      | .error e => { ending := .failed e }
    else emitting s (text (views.map (viewedOrTold s)))

/-- The function that a description names on the elements of a kind. -/
def meaning? (k : Kind) :
    ElementTask AnyView → Option (Emitting fun l => DoFn k.Value l.Value)
  | identity => some ⟨k, emitting⟩
  | copies number => some ⟨k, fun s x =>
      { emitted := List.replicate (number.getD (copiesAsked k x)) (s.emit x) }⟩
  | visit counting panicOn failOn error => do
    return ⟨k, visiting counting (← elements? k panicOn) (← elements? k failOn) error⟩
  | shift offset => some ⟨k, fun s x =>
      { emitted := [s.emitAt x (Int64.ofIntClamp (s.timestamp.toInt + offset.toInt))] }⟩
  | describe => some ⟨.text, fun s x => emitting s (told k s x)⟩
  | read views propagate => some ⟨.text, reading k views propagate⟩

end ElementTask

end CheckedFlow.Script
