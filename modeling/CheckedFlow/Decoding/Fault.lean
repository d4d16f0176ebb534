import CheckedFlow.Decimal.Layout
import CheckedFlow.Text.Quoted

/-!
# Why a document does not hold the wanted value

Reading a value of a known type from a document fails with a `Fault`: the document is malformed, or
what it holds at some place is not what the type wants there. A format supplies a `Wording` for the
few words in which formats differ.
-/

namespace CheckedFlow.Decoding

/-- What a document holds at some place. -/
inductive Found where
  | nothing
  | boolean (value : Bool)
  | integer (value : Int)
  /-- An integer outside the range of 64 bits, with the name of the range that it needs. -/
  | wide (value : Int) (range : String)
  | float (value : Float)
  | text (value : String)
  | sequence
  | mapping
  /-- The bare name of an alternative that wants fields. -/
  | bareAlternative

/-- Why no value could be read. -/
inductive Fault where
  | malformed
  | wrongKind (found : Found) (wanted : String)
  | wrongValue (found : Found) (wanted : String)
  | wrongLength (length : Nat) (wanted : String)
  | unknownAlternative (name : String) (known : List String)
  | missingField (name : String)
  | repeatedField (name : String)
  | keyNotText
  /-- A fault in the value of a field. -/
  | inField (name : String) (fault : Fault)

/-- The words of a format for what holds nothing, and its written form of floats. -/
structure Wording where
  nothing : String
  float : Float → String

namespace Wording

/-- The words of JSON. -/
def json : Wording := ⟨"null", Decimal.Layout.json.write⟩

/-- The words of YAML; a finite float without a point gets one. -/
def yaml : Wording :=
  ⟨"unit value", fun x =>
    let text := Decimal.Layout.plain.write x
    if x.isFinite ∧ ¬ text.contains '.' then text ++ ".0" else text⟩

end Wording

/-- What was found, in the words of a format. -/
def Found.describe (w : Wording) : Found → String
  | nothing => w.nothing
  | boolean b => "boolean `" ++ toString b ++ "`"
  | integer n => "integer `" ++ Text.signed n ++ "`"
  | wide n range => "integer `" ++ Text.signed n ++ "` as " ++ range
  | float x => "floating point `" ++ w.float x ++ "`"
  | text s => "string " ++ Text.quoted s
  | sequence => "sequence"
  | mapping => "map"
  | bareAlternative => "unit variant"

/-- The known alternatives, as messages list them. -/
def alternatives (known : List String) : String :=
  let ticked := known.map fun s => "`" ++ s ++ "`"
  match ticked with
  | [a, b] => "expected " ++ a ++ " or " ++ b
  | [a] => "expected " ++ a
  | _ => "expected one of " ++ Text.commas ticked

/-- The message of a fault, in the words of a format. The place and the cause in a malformed
document are not told. -/
def Fault.message (w : Wording) : Fault → String
  | malformed => "<syntax>"
  | wrongKind found wanted => "invalid type: " ++ found.describe w ++ ", expected " ++ wanted
  | wrongValue found wanted => "invalid value: " ++ found.describe w ++ ", expected " ++ wanted
  | wrongLength n wanted => "invalid length " ++ Text.decimal n ++ ", expected " ++ wanted
  | unknownAlternative name known => "unknown variant `" ++ name ++ "`, " ++ alternatives known
  | missingField name => "missing field `" ++ name ++ "`"
  | repeatedField name => "duplicate field `" ++ name ++ "`"
  | keyNotText => "key must be a string"
  | inField name fault =>
    match fault with
    | malformed => "<syntax>"
    | fault => name ++ ": " ++ fault.message w

end CheckedFlow.Decoding
