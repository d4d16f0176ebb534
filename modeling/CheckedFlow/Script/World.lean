import CheckedFlow.Assertion.Singleton
import CheckedFlow.Run.Report
import CheckedFlow.Script.Check

/-!
# What a script has built

A script names what it builds. A name that is given again replaces the handle that had it. A step
whose handles are missing or do not fit is skipped, and touches nothing.

* `World`: the pipelines of a script with their graphs, and its handles.
* `Answer`: what a step answers.
* `Play`: a step on its way; it ends early with an answer, and what it has built by then stays.
-/

namespace CheckedFlow.Script

/-- A dataset with the kind of its elements. -/
structure AnyDataset where
  kind : Kind
  dataset : Dataset kind

/-- What a script can name. -/
inductive Handle where
  | dataset (d : AnyDataset)
  | view (v : AnyView)
  | iterable (kind : Kind) (a : IterableAssertion kind)
  | singleton (kind : Kind) (a : SingletonAssertion kind)
  | check (c : CheckHandle)

/-- The pipeline whose handle it is; that of a check is not known to scripts. -/
def Handle.pipeline? : Handle → Option Pipeline
  | dataset d => some d.dataset.pipeline
  | view v => some v.view.pipeline
  | iterable _ a => some a.pipeline
  | singleton _ a => some a.pipeline
  | check _ => none

/-- A pipeline of a script, if its options could be run, and its graph. -/
structure Member where
  name : String
  pipeline : Except PipelineError Pipeline
  graph : Graph := {}

/-- What a script has built. The identity of a pipeline is its place among the members. -/
structure World where
  members : List Member
  handles : List (String × Handle) := []

namespace World

/-- The world of some pipelines by name. -/
def ofOptions (options : List (String × PipelineOptions)) : World where
  members := options.zipIdx.map fun e => ⟨e.1.1, Pipeline.create e.2 e.1.2, {}⟩

/-- The graph of a pipeline. -/
def graph (w : World) (p : Pipeline) : Graph := ((w.members[p.id]?).map Member.graph).getD {}

/-- The world with another graph of a pipeline. -/
def setGraph (w : World) (p : Pipeline) (g : Graph) : World :=
  { w with members := w.members.modify p.id fun m => { m with graph := g } }

/-- The world with a handle under a name. -/
def store (w : World) (name : String) (h : Handle) : World :=
  { w with handles := (name, h) :: w.handles.filter fun e => e.1 != name }

end World

/-- What a step answers. -/
inductive Answer where
  | done
  /-- The step has nothing to work on. -/
  | skipped
  | failed (error : PipelineError)
  | text (text : Option String)
  | texts (texts : List String)
  /-- The number of stages, the run mode, the text in messages and the job name. -/
  | pipeline (stages : Nat) (runMode : RunMode) (description jobName : String)
  /-- A report, to be shown with the counters of some names. -/
  | report (report : RunReport) (counters : List String)
  /-- A run that panicked. -/
  | crashed

/-- A step on its way. -/
abbrev Play := ExceptT Answer (StateM World)

namespace Play

/-- What must be there for the step not to be skipped. -/
def need {α : Type} : Option α → Play α
  | some x => return x
  | none => throw .skipped

/-- The handle with a name. -/
def handle (name : String) : Play Handle := do need ((← get).handles.lookup name)

/-- The dataset with a name. -/
def dataset (name : String) : Play AnyDataset := do
  match ← handle name with
  | .dataset d => return d
  | _ => throw .skipped

/-- The view with a name. -/
def view (name : String) : Play AnyView := do
  match ← handle name with
  | .view v => return v
  | _ => throw .skipped

/-- The check with a name. -/
def check (name : String) : Play CheckHandle := do
  match ← handle name with
  | .check c => return c
  | _ => throw .skipped

/-- The pipeline with a name. -/
def pipeline (name : String) : Play Pipeline := do
  let member ← need ((← get).members.find? fun m => m.name = name)
  match member.pipeline with
  | .ok p => return p
  | .error _ => throw .skipped

/-- The graph of a pipeline. -/
def graph (p : Pipeline) : Play Graph := do return (← get).graph p

/-- Runs a builder call on the graph of a pipeline. -/
def build {α : Type} (p : Pipeline) (call : Builder α) : Play α := do
  let (result, g) := Build.run (ExceptT.run call) (← graph p)
  modify fun w => w.setGraph p g
  match result with
  | .ok x => return x
  | .error e => throw (.failed e)

/-- Stores a handle. -/
def store (name : String) (h : Handle) : Play Answer := do
  modify fun w => w.store name h
  return .done

end Play

end CheckedFlow.Script
