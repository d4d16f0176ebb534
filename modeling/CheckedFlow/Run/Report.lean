import CheckedFlow.Counter.Cells
import CheckedFlow.Graph.Basic
import CheckedFlow.Run.Evaluate

/-!
# Running a pipeline

A run evaluates the stages of a pipeline in the order of their registration. The first stage without
an output ends it. Every run counts from zero; the states of the checks outlast it.

* `runStages`: the stages one after the other.
* `Pipeline.run`: a whole run and what is reported of it.
-/

namespace CheckedFlow

/-- What a run has done so far. -/
structure RunState where
  outputs : Outputs := []
  counters : Counters := .empty
  /-- What was noted, in order. -/
  notes : List (String × Json) := []
  /-- The graph, of which only the states of checks change. -/
  graph : Graph

namespace RunState

/-- The state after an effect of the stage `stage`. -/
def apply (stage : String) (s : RunState) : Effect → RunState
  | .count counter amount => { s with counters := s.counters.add ⟨counter, stage⟩ amount }
  | .enter state => { s with graph := s.graph.setCheck stage state }
  | .note label value => { s with notes := s.notes ++ [(label, value)] }

/-- The state after the effects of the stage `stage`, in their order. -/
def applyAll (stage : String) (s : RunState) (effects : List Effect) : RunState :=
  effects.foldl (apply stage) s

end RunState

/-- Evaluates stages until one has no output. -/
def runStages (options : PipelineOptions) : List Stage → RunState → RunState × Option Stop
  | [], s => (s, none)
  | stage :: stages, s =>
    let e := stage.operation.evaluate options stage.name s.outputs
    let s := s.applyAll stage.name e.effects
    match e.result with
    | .ok o => runStages options stages { s with outputs := s.outputs ++ [o] }
    | .error stop => (s, some stop)

/-- What is known of a run that came to its end. -/
structure RunReport where
  jobName : String
  runMode : RunMode
  /-- The error of the stage that ended the run. -/
  failure : Option PipelineError
  /-- The values of all counters at the end. -/
  counters : CounterTable
  /-- The stages that were evaluated. -/
  stagesRun : Nat
  notes : List (String × Json)

namespace RunReport

/-- Every stage was evaluated. -/
def isSuccess (r : RunReport) : Bool := r.failure.isNone

/-- The name of the state in which the run ended. -/
def stateName (r : RunReport) : String := if r.isSuccess then "DONE" else "FAILED"

/-- The report, or the failure of the run. -/
def result (r : RunReport) : Except PipelineError RunReport :=
  match r.failure with
  | none => .ok r
  | some e => .error e

end RunReport

/-- A run of the stages of `g`: its report, unless the run itself crashed, and the graph with the
states of its checks. -/
def Pipeline.run (p : Pipeline) (g : Graph) : Option RunReport × Graph :=
  let (s, stop) := runStages p.options g.stages { graph := g }
  let report (failure : Option PipelineError) : RunReport :=
    ⟨p.options.jobName, p.options.runMode, failure, s.counters.table, s.outputs.length, s.notes⟩
  match stop with
  | none => (some (report none), s.graph)
  | some (.failed e) => (some (report (some e)), s.graph)
  | some .crashed => (none, s.graph)

end CheckedFlow
