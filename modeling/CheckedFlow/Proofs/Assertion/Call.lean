import CheckedFlow.Proofs.Assertion.Terminal
import CheckedFlow.Proofs.Build.Adding

/-!
# Calls that build a check

A check is built by applying it to a pipeline under a name of the caller's choice, or by a terminal
call, which takes the next assertion name. Either way it is the program of one `CheckSpec`; a
terminal call that finds no codec for its expected values does not get so far.

* `CheckSpec`: what a check looks at and how; `CheckSpec.body`: its program between checkpoint and
  end.
* `AssertionCall`: the calls; `AssertionCall.run_cases`: which program a call is.
-/

namespace CheckedFlow

variable {k l : Kind}

/-- What a check looks at, and how. -/
inductive CheckSpec where
  | value {k : Kind} (actual : Evidence k) (checker : Checker k.Value)
  | against {k l : Kind} (actual : Evidence k) (expected : Evidence l)
      (r : Relation k.Value l.Value)

namespace CheckSpec

/-- Builds the check under a name. -/
def build (p : Pipeline) (name : String) : CheckSpec → Builder CheckHandle
  | value actual checker => checkValue p name actual checker
  | against actual expected r => checkAgainst p name actual expected r

/-- Registers the stages of the check. -/
def body (p : Pipeline) (name : String) : CheckSpec → Builder CheckHandle
  | value actual checker => do
    let actual ← actual p (name ++ "/CreateActual")
    attachCheck p name (.value actual checker) [actual.sideInput]
  | against actual expected r => do
    let actual ← actual p (name ++ "/CreateActual")
    let expected ← expected p (name ++ "/CreateExpected")
    attachCheck p name (.against actual expected r) [actual.sideInput, expected.sideInput]

theorem build_eq (p : Pipeline) (name : String) (c : CheckSpec) :
    c.build p name = allOrNothing name (c.body p name) := by
  cases c <;> rfl

end CheckSpec

/-- The check that a terminal call builds. -/
def Terminal.spec : Terminal → CheckSpec
  | @collectionSatisfies k a checker => .value (k := .list k) a.evidence checker
  | @collectionRelates k a r expected =>
    .against (k := .list k) (l := .list k) a.evidence (.ofValues expected a.codec .iterable) r
  | valueSatisfies a checker => .value a.evidence checker
  | valueRelates a r expected =>
    .against a.evidence (.ofValues [expected] a.codec .singleton) r

/-- A terminal call builds its check under the next assertion name, or fails before it takes one. -/
theorem Terminal.call_run (t : Terminal) :
    (∃ e, ExceptT.run t.call = .done (.error e)) ∨
      ExceptT.run t.call =
        .nextAssertion fun name => ExceptT.run (t.spec.build t.pipeline name) := by
  cases t with
  | collectionSatisfies a checker => exact .inr rfl
  | collectionRelates a r expected =>
    obtain ⟨p, actual, codec⟩ := a
    cases codec with
    | none => exact .inl ⟨_, rfl⟩
    | some codec => exact .inr rfl
  | valueSatisfies a checker => exact .inr rfl
  | valueRelates a r expected =>
    obtain ⟨p, actual, codec⟩ := a
    cases codec with
    | none => exact .inl ⟨_, rfl⟩
    | some codec => exact .inr rfl

/-- A call that builds a check. -/
inductive AssertionCall where
  /-- Applies a check to a pipeline under a name. -/
  | apply (p : Pipeline) (name : String) (c : CheckSpec)
  | terminal (t : Terminal)

namespace AssertionCall

/-- The check that the call builds. -/
def spec : AssertionCall → CheckSpec
  | apply _ _ c => c
  | terminal t => t.spec

/-- The pipeline that the call is made on. -/
def pipeline : AssertionCall → Pipeline
  | apply p _ _ => p
  | terminal t => t.pipeline

/-- The call itself. -/
def call : AssertionCall → Builder CheckHandle
  | apply p name c => c.build p name
  | terminal t => t.call

/-- The name under which the call builds its check. -/
def name (g : Graph) : AssertionCall → String
  | apply _ name _ => name
  | terminal _ => g.nextAssertion.1

/-- A call fails at once, or it is the program of its check, perhaps after it took a name. -/
theorem run_cases (c : AssertionCall) :
    (∃ e, ExceptT.run c.call = .done (.error e)) ∨
      (∃ name, ExceptT.run c.call = ExceptT.run (c.spec.build c.pipeline name)) ∨
      ExceptT.run c.call =
        .nextAssertion fun name => ExceptT.run (c.spec.build c.pipeline name) := by
  cases c with
  | apply p name c => exact .inr (.inl ⟨name, rfl⟩)
  | terminal t => exact t.call_run.imp_right .inr

end AssertionCall

end CheckedFlow
