import CheckedFlow.Graph.Stage
import CheckedFlow.Text.Blank

/-!
# The graph of a pipeline

A graph holds the registered stages of a pipeline in order, the names that they have taken, the
number of assertion names given out, and the state of every check. Stages are only ever added at the
end, and removed from the end.

* `Graph.register`: adds a stage under a name that is not blank and not taken.
* `Graph.discardSince`: removes the stages after a checkpoint, if all of them are named under a
  given text; else it keeps them all.
* `Graph.nextAssertion`: the next name in the sequence of assertion names.
-/

namespace CheckedFlow

/-- The stages of a pipeline. -/
structure Graph where
  stages : List Stage := []
  /-- The names that are taken. -/
  names : List String := []
  /-- The assertion names given out. -/
  assertions : Nat := 0
  /-- The state of the check of each check stage. -/
  checks : List (String × CheckState) := []

namespace Graph

/-- The names of the stages, in order. -/
def stageNames (g : Graph) : List String := g.stages.map Stage.name

/-- Adds a stage. -/
def register (g : Graph) (s : Stage) : Except PipelineError NodeId × Graph :=
  if Text.isBlankText s.name then (.error (.construction s.name .blankName), g)
  else if s.name ∈ g.names then (.error (.duplicateStageName s.name), g)
  else (.ok g.stages.length, { g with stages := g.stages ++ [s], names := s.name :: g.names })

/-- Removes the stages after the first `checkpoint` ones, if the names of all of them start with
`under`. Returns how many it removed. -/
def discardSince (g : Graph) (checkpoint : Nat) (under : String) : Nat × Graph :=
  let recent := g.stages.drop checkpoint
  if recent.all fun s => under.toList.isPrefixOf s.name.toList then
    (recent.length, { g with
      stages := g.stages.take checkpoint
      names := g.names.filter fun n => n ∉ recent.map Stage.name })
  else (0, g)

/-- The next assertion name. -/
def nextAssertion (g : Graph) : String × Graph :=
  ("Assert$" ++ Text.decimal g.assertions, { g with assertions := g.assertions + 1 })

/-- Moves the check of a stage to a state. -/
def setCheck (g : Graph) (stage : String) (state : CheckState) : Graph :=
  { g with checks := (stage, state) :: g.checks.filter fun c => c.1 != stage }

/-- The state of the check of a stage. -/
def check (g : Graph) (stage : String) : CheckState := (g.checks.lookup stage).getD .created

end Graph

namespace Pipeline

/-- The text of a pipeline in messages. -/
def describe (p : Pipeline) (g : Graph) : String :=
  Text.record "Pipeline"
    [("job_name", Text.quoted p.options.jobName), ("run_mode", p.options.runMode.describe),
     ("stages", Text.decimal g.stages.length)]

end Pipeline

end CheckedFlow
