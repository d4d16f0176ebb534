import CheckedFlow.Graph.Basic

/-!
# Building a graph

A builder call is a program over the operations of the graph. Each operation is one atomic step, and
between two steps of a program other programs may take steps of theirs.

* `Build`: such programs.
* `Build.run`: a program that nobody interrupts; `Build.run_bind` splits it into its parts.
* `Build.step`: the next step of a program.
* `Builder`: programs that may fail with a `PipelineError`.
-/

namespace CheckedFlow

/-- A program over the operations of a graph. -/
inductive Build (α : Type) : Type where
  | done (result : α)
  /-- Asks for the number of stages. -/
  | stageCount (next : Nat → Build α)
  /-- Registers a stage. -/
  | register (stage : Stage) (next : Except PipelineError NodeId → Build α)
  /-- Removes the stages after a checkpoint, if they are all named under a text. -/
  | discardSince (checkpoint : Nat) (under : String) (next : Nat → Build α)
  /-- Takes an assertion name. -/
  | nextAssertion (next : String → Build α)
  /-- Moves the check of a stage to a state. -/
  | setCheck (stage : String) (state : CheckState) (next : Unit → Build α)

namespace Build

variable {α β : Type}

/-- One program after another. -/
def bind : Build α → (α → Build β) → Build β
  | done x, f => f x
  | stageCount next, f => stageCount fun n => (next n).bind f
  | register stage next, f => register stage fun r => (next r).bind f
  | discardSince checkpoint under next, f =>
    discardSince checkpoint under fun n => (next n).bind f
  | nextAssertion next, f => nextAssertion fun s => (next s).bind f
  | setCheck stage state next, f => setCheck stage state fun u => (next u).bind f

instance : Monad Build where
  pure := done
  bind := bind

/-- Runs a program without interruption. -/
def run : Build α → Graph → α × Graph
  | done x, g => (x, g)
  | stageCount next, g => (next g.stages.length).run g
  | register stage next, g =>
    let (r, g) := g.register stage
    (next r).run g
  | discardSince checkpoint under next, g =>
    let (n, g) := g.discardSince checkpoint under
    (next n).run g
  | nextAssertion next, g =>
    let (s, g) := g.nextAssertion
    (next s).run g
  | setCheck stage state next, g => (next ()).run (g.setCheck stage state)

theorem run_bind (p : Build α) (f : α → Build β) (g : Graph) :
    (p.bind f).run g = (f (p.run g).1).run (p.run g).2 := by
  induction p generalizing g with
  | done x => rfl
  | stageCount next ih => exact ih _ g
  | register stage next ih => exact ih _ _
  | discardSince checkpoint under next ih => exact ih _ _
  | nextAssertion next ih => exact ih _ _
  | setCheck stage state next ih => exact ih _ _

/-- The next step of a program: what is left of it, and the graph after the step. A program that is
done has none. -/
def step : Build α → Graph → Option (Build α × Graph)
  | done _, _ => none
  | stageCount next, g => some (next g.stages.length, g)
  | register stage next, g => let (r, g) := g.register stage; some (next r, g)
  | discardSince checkpoint under next, g =>
    let (n, g) := g.discardSince checkpoint under
    some (next n, g)
  | nextAssertion next, g => let (s, g) := g.nextAssertion; some (next s, g)
  | setCheck stage state next, g => some (next (), g.setCheck stage state)

end Build

/-- A program over the operations of a graph that may fail. -/
abbrev Builder := ExceptT PipelineError Build

namespace Builder

/-- A result, as a program without steps. -/
def ofExcept {α : Type} (result : Except PipelineError α) : Builder α := .mk (.done result)

/-- The number of stages. -/
def stageCount : Builder Nat := .mk (.stageCount fun n => .done (.ok n))

/-- Registers a stage. -/
def register (stage : Stage) : Builder NodeId := .mk (.register stage .done)

/-- Removes the stages after a checkpoint, if they are all named under a text. -/
def discardSince (checkpoint : Nat) (under : String) : Builder Nat :=
  .mk (.discardSince checkpoint under fun n => .done (.ok n))

/-- Takes an assertion name. -/
def nextAssertion : Builder String := .mk (.nextAssertion fun s => .done (.ok s))

/-- Moves the check of a stage to a state. -/
def setCheck (stage : String) (state : CheckState) : Builder Unit :=
  .mk (.setCheck stage state fun u => .done (.ok u))

end Builder

end CheckedFlow
