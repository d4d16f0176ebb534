import CheckedFlow.Text.Quoted

/-!
# The entries of a mapping's text

The order in which a mapping's entries are met is no part of its value, so a message that shows a
mapping lists the entries in the order of their texts. `listedInOrder` gives any text that has the
outer form of a mapping this order and leaves every other text alone.
-/

namespace CheckedFlow.Text

/-- Where a scan of a mapping's text stands: `depth` brackets are open, and the position is inside
double quotes, after a backslash in the second case. -/
structure Nesting where
  depth : Nat
  quoted : Bool
  escaped : Bool

/-- The position after the character `c`. -/
def Nesting.next (n : Nesting) (c : Char) : Nesting :=
  if n.escaped then { n with escaped := false }
  else if n.quoted then
    match c with
    | '\\' => { n with escaped := true }
    | '"' => { n with quoted := false }
    | _ => n
  else
    match c with
    | '"' => { n with quoted := true }
    | '(' | '[' | '\x7b' => { n with depth := n.depth + 1 }
    | ')' | ']' | '\x7d' => { n with depth := n.depth - 1 }
    | _ => n

/-- `cs` cut at every comma and space outside quotes and brackets; `piece` holds, in reverse, what
was read since the last cut. -/
def entriesFrom : Nesting → List Char → List Char → List String
  | _, piece, [] => [String.ofList piece.reverse]
  | n, piece, ',' :: ' ' :: cs =>
    if n.depth = 0 ∧ ¬ n.quoted then String.ofList piece.reverse :: entriesFrom n [] cs
    else entriesFrom ((n.next ',').next ' ') (' ' :: ',' :: piece) cs
  | n, piece, c :: cs => entriesFrom (n.next c) (c :: piece) cs

/-- The entries of the inside of a mapping's text, in the order in which they stand. -/
def entries (inside : String) : List String := entriesFrom ⟨0, false, false⟩ [] inside.toList

/-- A text that opens and closes with braces, with its entries in increasing order; any other text
as it is. -/
def listedInOrder (s : String) : String :=
  match s.toList with
  | '\x7b' :: rest =>
    match rest.reverse with
    | '\x7d' :: inside =>
      braced ((entries (String.ofList inside.reverse)).mergeSort fun a b => a ≤ b)
    | _ => s
  | _ => s

end CheckedFlow.Text
