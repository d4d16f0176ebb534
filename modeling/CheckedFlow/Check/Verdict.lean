import CheckedFlow.Failure.Pipeline
import CheckedFlow.Json.Basic

/-!
# Checkers and their verdicts

A checker inspects a value. It passes the value, refuses it with a failure, or panics; and it may
show values to an observer while it looks.
-/

namespace CheckedFlow

/-- What a checker finds. -/
inductive Verdict where
  | passed
  | failed (failure : CheckFailure)
  /-- The checker stopped by a panic, with its message if that was a text. -/
  | panicked (message : Option String)

namespace Verdict

/-- The failure that a verdict amounts to; a panic is a failure like any other. -/
def failure? : Verdict → Option CheckFailure
  | passed => none
  | failed failure => some failure
  | panicked message => some (.panicked (message.getD "panic payload is not a string"))

end Verdict

/-- What a checker does with a value. -/
structure Inspection where
  verdict : Verdict
  /-- What it shows to an observer, in order. -/
  notes : List (String × Json) := []

/-- Inspects a value. -/
abbrev Checker (α : Type) := α → Inspection

end CheckedFlow
