import CheckedFlow.Decoding.Fault
import CheckedFlow.Text.Blank

/-!
# Pipeline options

The options that every stage of a pipeline shares: its job name, its run mode, how many workers
process a stage and how often a trigger fires.

* `RunMode.parse`: the run mode that a text names.
* `PipelineOptions.validate`: refuses options that cannot be run. Of several violations the first
  of blank job name, no workers and no firings is told.
* `PipelineOptions.firings`: once in bounded mode, as often as asked in unbounded mode.
-/

namespace CheckedFlow

/-- Whether a run is finite or continuous. -/
inductive RunMode where
  /-- A finite run. -/
  | bounded
  /-- A continuous run, in which triggers fire repeatedly. -/
  | unbounded
deriving DecidableEq, Repr

/-- Why an options file could not be read. -/
inductive FileFault where
  | missing
  | directory
  | notText
  /-- The path, or a part of it, is longer than a name can be. -/
  | longName
  /-- The path holds a zero byte, so that it names nothing. -/
  | zeroInName

/-- The wording of a file's fault. -/
def FileFault.message : FileFault → String
  | missing => "No such file or directory (os error 2)"
  | directory => "Is a directory (os error 21)"
  | notText => "stream did not contain valid UTF-8"
  | longName => "File name too long (os error 36)"
  | zeroInName => "file name contained an unexpected NUL byte"

/-- Why options were refused. -/
inductive ConfigurationFault where
  | unknownRunMode (text : String)
  | blankJobName
  | noWorkers
  | noFirings
  /-- A variable of the environment holds no number of its range. -/
  | badNumber (value name : String) (fault : Text.NumeralFault)
  | document (fault : Decoding.Fault)
  | file (path : String) (fault : FileFault)
  | told (message : String)

/-- The wording of a configuration fault. -/
def ConfigurationFault.message : ConfigurationFault → String
  | unknownRunMode text =>
    "Unknown run mode '" ++ text ++ "', expected one of: bounded, batch, unbounded, streaming"
  | blankJobName => "job_name must not be empty"
  | noWorkers => "parallelism must be at least 1"
  | noFirings => "trigger_firings must be at least 1 in unbounded mode"
  | badNumber value name fault =>
    "Invalid value '" ++ value ++ "' for " ++ name ++ ": " ++ fault.message
  | document fault => "Failed to parse pipeline options: " ++ fault.message .yaml
  | file path fault => "Failed to read options file '" ++ path ++ "': " ++ fault.message
  | told message => message

namespace RunMode

/-- The name of a run mode. -/
def name : RunMode → String
  | bounded => "bounded"
  | unbounded => "unbounded"

/-- The text of a run mode in messages. -/
def describe : RunMode → String
  | bounded => "Bounded"
  | unbounded => "Unbounded"

/-- The names of the run modes, as documents spell them. -/
def names : List String := [bounded.name, unbounded.name]

/-- The run mode with the name `s`. -/
def named? (s : String) : Option RunMode :=
  if s = bounded.name then some bounded else if s = unbounded.name then some unbounded else none

/-- The run mode that `s` names, in any case of letters and with blanks around it; each mode has a
second name. -/
def parse (s : String) : Except ConfigurationFault RunMode :=
  let s := Text.lowerAscii (Text.trim s)
  if s = "bounded" ∨ s = "batch" then .ok bounded
  else if s = "unbounded" ∨ s = "streaming" then .ok unbounded
  else .error (.unknownRunMode s)

/-- The run is continuous. -/
def isStreaming : RunMode → Bool
  | bounded => false
  | unbounded => true

end RunMode

/-- Options shared by every stage of a pipeline. -/
structure PipelineOptions where
  jobName : String := "velo-pipeline"
  runMode : RunMode := .bounded
  /-- Workers per stage that processes elements. -/
  parallelism : UInt64 := 4
  /-- How often a trigger fires in unbounded mode. -/
  triggerFirings : UInt32 := 1
deriving DecidableEq, Repr

namespace PipelineOptions

/-- How often a trigger fires. -/
def firings (o : PipelineOptions) : Nat :=
  match o.runMode with
  | .bounded => 1
  | .unbounded => o.triggerFirings.toNat

/-- Refuses options that cannot be run. -/
def validate (o : PipelineOptions) : Except ConfigurationFault Unit :=
  if Text.isBlankText o.jobName then .error .blankJobName
  else if o.parallelism = 0 then .error .noWorkers
  else if o.runMode.isStreaming ∧ o.triggerFirings = 0 then .error .noFirings
  else .ok ()

/-- The options, if they can be run. -/
def validated (o : PipelineOptions) : Except ConfigurationFault PipelineOptions := do
  o.validate
  return o

/-- The text of options in messages. -/
def describe (o : PipelineOptions) : String :=
  Text.record "PipelineOptions"
    [("job_name", Text.quoted o.jobName), ("run_mode", o.runMode.describe),
     ("parallelism", Text.decimal o.parallelism.toNat),
     ("trigger_firings", Text.decimal o.triggerFirings.toNat)]

end PipelineOptions

end CheckedFlow
