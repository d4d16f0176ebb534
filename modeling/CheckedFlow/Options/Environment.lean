import CheckedFlow.Options.Basic

/-!
# Options from the environment

Each option has a variable of the environment that replaces it. The variables are read in a fixed
order, so the first one that holds no value of its range is told; the merged options are validated
at the end, whether the options before them were valid or not.
-/

namespace CheckedFlow

/-- The text of each variable that is set. -/
structure Overrides where
  jobName : Option String := none
  runMode : Option String := none
  parallelism : Option String := none
  triggerFirings : Option String := none

namespace Overrides

/-- The variable that replaces the job name. -/
def jobNameVariable : String := "VELO_JOB_NAME"

/-- The variable that replaces the run mode. -/
def runModeVariable : String := "VELO_RUN_MODE"

/-- The variable that replaces the parallelism. -/
def parallelismVariable : String := "VELO_PARALLELISM"

/-- The variable that replaces the trigger firings. -/
def triggerFiringsVariable : String := "VELO_TRIGGER_FIRINGS"

/-- The overrides that an environment holds. -/
def ofLookup (lookup : String → Option String) : Overrides :=
  ⟨lookup jobNameVariable, lookup runModeVariable, lookup parallelismVariable,
    lookup triggerFiringsVariable⟩

/-- The number below `bound` in the text of a variable, with blanks around it. -/
def number (bound : Nat) (name text : String) : Except ConfigurationFault Nat :=
  match Text.readBounded bound (Text.trim text) with
  | .ok n => .ok n
  | .error fault => .error (.badNumber text name fault)

/-- The field `read` from the text of a variable, or `kept` when the variable is not set. -/
def field {α : Type} (text : Option String) (kept : α)
    (read : String → Except ConfigurationFault α) : Except ConfigurationFault α :=
  match text with
  | none => .ok kept
  | some text => read text

/-- `o` with every field replaced whose variable is set. -/
def merge (v : Overrides) (o : PipelineOptions) : Except ConfigurationFault PipelineOptions := do
  let jobName := v.jobName.getD o.jobName
  let runMode ← field v.runMode o.runMode RunMode.parse
  let parallelism ← field v.parallelism o.parallelism fun s =>
    UInt64.ofNat <$> number UInt64.size parallelismVariable s
  let triggerFirings ← field v.triggerFirings o.triggerFirings fun s =>
    UInt32.ofNat <$> number UInt32.size triggerFiringsVariable s
  return ⟨jobName, runMode, parallelism, triggerFirings⟩

/-- The merged options, validated. -/
def apply (v : Overrides) (o : PipelineOptions) : Except ConfigurationFault PipelineOptions := do
  (← v.merge o).validated

end Overrides

end CheckedFlow
