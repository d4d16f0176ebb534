import CheckedFlow.Check.Evidence
import CheckedFlow.Check.Relation

/-!
# Check stages

A check with the name `N` becomes these stages:

```text
N/CreateActual/...    the actual value as a view
N/CreateExpected/...  the expected value as a view, for checks that compare with one
N/Trigger             one unit for each firing
N/RunChecks           reads the views and runs the checker
```

* `fire`: one firing. It counts exactly one of a success and a failure, whatever the checker does.
* `FailurePolicy`: a failure ends a bounded run, and is only counted in an unbounded one.
* `allOrNothing`: removes the stages that a failing program registered.
* `checkValue`, `checkAgainst`: build a check of one value, or of a value against an expected one.
-/

namespace CheckedFlow

/-- The counter of successful firings. -/
def successCounter : String := "AssertionSuccess"

/-- The counter of failed firings. -/
def failureCounter : String := "AssertionFailure"

/-- What a failed check does after it was counted. -/
inductive FailurePolicy where
  /-- Its failure is the error of the stage. -/
  | propagate
  /-- The run goes on. -/
  | countOnly
deriving DecidableEq, Repr

namespace FailurePolicy

/-- The policy in a run mode. -/
def ofRunMode : RunMode → FailurePolicy
  | .bounded => propagate
  | .unbounded => countOnly

/-- The text of a policy in messages. -/
def describe : FailurePolicy → String
  | propagate => "Propagate"
  | countOnly => "CountOnly"

end FailurePolicy

namespace CheckState

/-- The name of a state. -/
def name : CheckState → String
  | created => "created"
  | scheduled => "scheduled"
  | running => "running"
  | resolved true => "resolved(success)"
  | resolved false => "resolved(failure)"

/-- The text of a state in messages. -/
def describe : CheckState → String
  | created => "Created"
  | scheduled => "Scheduled"
  | running => "Running"
  | resolved success => Text.record "Resolved" [("success", toString success)]

end CheckState

/-- One firing of a check that finds `i`. -/
def fire (policy : FailurePolicy) (stage : String) (i : Inspection) : Processed Unit :=
  let look := .enter .running :: i.notes.map fun n => Effect.note n.1 n.2
  match i.verdict.failure? with
  | none => { effects := look ++ [.count successCounter 1, .enter (.resolved true)] }
  | some failure =>
    { effects := look ++ [.count failureCounter 1, .enter (.resolved false)]
      ending :=
        match policy with
        | .propagate => .failed (.stageFailed stage (.check failure))
        | .countOnly => .done }

/-- What a check stage looks at on every firing. -/
abbrev CheckBody := Surroundings → Inspection

/-- A value that could not be read. -/
def unreadable (e : PipelineError) : Inspection := ⟨.failed (.sideInput e), []⟩

namespace CheckBody

variable {k l : Kind}

/-- Runs a checker on the value of a view. -/
def value (actual : View k) (checker : Checker k.Value) : CheckBody := fun s =>
  match s.sideInput actual with
  | .error e => unreadable e
  | .ok x => checker x

/-- Runs the checker of a relation on the values of two views. -/
def against (actual : View k) (expected : View l) (r : Relation k.Value l.Value) : CheckBody :=
  fun s =>
    match s.sideInput actual with
    | .error e => unreadable e
    | .ok x =>
      match s.sideInput expected with
      | .error e => unreadable e
      | .ok y => r.bind y x

end CheckBody

/-- A check whose stages are registered. -/
structure CheckHandle where
  pipeline : Pipeline
  name : String
  /-- The name of the stage that runs the check. -/
  stage : String
  policy : FailurePolicy

namespace CheckHandle

/-- The state of the check; in unbounded mode that of its latest firing. -/
def state (c : CheckHandle) (g : Graph) : CheckState := g.check c.stage

/-- The text of a check in messages. -/
def describe (c : CheckHandle) (g : Graph) : String :=
  Text.record "CheckHandle"
    [("stage", Text.quoted c.stage), ("policy", c.policy.describe),
     ("state", (c.state g).describe)]

end CheckHandle

/-- Registers the trigger of a check and the stage that runs it. -/
def attachCheck (p : Pipeline) (name : String) (body : CheckBody) (sideInputs : List SideInput) :
    Builder CheckHandle := do
  let policy := FailurePolicy.ofRunMode p.options.runMode
  let stage := name ++ "/RunChecks"
  let trigger ← p.impulse (name ++ "/Trigger")
  let _ ← trigger.parDo .unit stage (fun s _ => fire policy s.stage (body s)) sideInputs
  Builder.setCheck stage .scheduled
  return ⟨p, name, stage, policy⟩

/-- Runs `build`, and removes the stages that it registered under `name` if it fails. -/
def allOrNothing {α : Type} (name : String) (build : Builder α) : Builder α := do
  let checkpoint ← Builder.stageCount
  tryCatch build fun e => do
    let _ ← Builder.discardSince checkpoint (name ++ "/")
    throw e

/-- The check `name` of a value by a checker. -/
def checkValue {k : Kind} (p : Pipeline) (name : String) (actual : Evidence k)
    (checker : Checker k.Value) : Builder CheckHandle :=
  allOrNothing name do
    let actual ← actual p (name ++ "/CreateActual")
    attachCheck p name (.value actual checker) [actual.sideInput]

/-- The check `name` of a value by a relation to an expected value. -/
def checkAgainst {k l : Kind} (p : Pipeline) (name : String) (actual : Evidence k)
    (expected : Evidence l) (r : Relation k.Value l.Value) : Builder CheckHandle :=
  allOrNothing name do
    let actual ← actual p (name ++ "/CreateActual")
    let expected ← expected p (name ++ "/CreateExpected")
    attachCheck p name (.against actual expected r) [actual.sideInput, expected.sideInput]

end CheckedFlow
