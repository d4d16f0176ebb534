import CheckedFlow.Failure.Difference
import CheckedFlow.Failure.Serialization
import CheckedFlow.Options.Basic
import CheckedFlow.Text.Entries
import CheckedFlow.Window

/-!
# Failures of pipelines and of checks

* `PipelineError`: why a pipeline could not be built, or which stage of a run failed and why.
* `CheckFailure`: why a check refused the value it was given.
* `StageFault`: what the code of a caller raised inside a stage, a check failure in particular.

The three refer to one another: a check can fail because a view could not be read, and a stage fails
with the failure of its check.

* `PipelineError.stage?`: the stage or view an error is about.
* `PipelineError.isConstruction`: whether the error arises while a pipeline is built.
* `PipelineError.check?`: the check failure that stopped a stage.
-/

namespace CheckedFlow

/-- Why the elements of a window have no view value. -/
inductive ViewError where
  /-- A singleton of no element. -/
  | emptySingleton
  /-- A singleton of several elements. -/
  | tooMany (count : Nat)
  /-- A mapping of entries with one key twice; the key as messages write it. -/
  | repeatedKey (key : String)
  /-- The copy of an element through its codec failed. -/
  | copyFailed (index : Nat) (error : SerializationError)
  | told (message : String)

/-- The wording of a view's failure. -/
def ViewError.message : ViewError → String
  | emptySingleton => "expected exactly one element, found none"
  | tooMany count => "expected exactly one element, found " ++ Text.decimal count
  | repeatedKey key => "duplicate key " ++ key
  | copyFailed index error =>
    "element " ++ Text.decimal index ++ " failed to round-trip: " ++ error.message
  | told message => message

/-- Why a view has no value to read. -/
inductive ReadFault where
  | view (error : ViewError)
  /-- The view holds intervals only and is read from the global window. -/
  | intervalsOnly (windows : Nat)
  | told (message : String)

/-- The wording of a read's failure. -/
def ReadFault.message : ReadFault → String
  | view error => error.message
  | intervalsOnly windows =>
    "holds values for " ++ Text.decimal windows ++
      " interval window(s) and cannot be read from the global window; " ++
      "rewindow its input with WindowFn::Global first"
  | told message => message

/-- Why a builder call made no stage. -/
inductive ConstructionFault where
  | blankName
  /-- The codec of a source refuses an element. -/
  | unencodable (index : Nat) (format : String) (error : SerializationError)
  | windowSize (size : Int64)
  | foreignDataset (name : String)
  | foreignView (name : String)
  /-- The elements of a dataset cannot be copied for want of a codec. -/
  | datasetWithoutCodec (name : String) (keyed : Bool)
  /-- A singleton is expected and other than one value given. -/
  | notOneExpected (count : Nat)
  | expectedWithoutCodec
  /-- An assertion of the given kind has no codec; what would give it one. -/
  | assertionWithoutCodec (kind remedy : String)
  | told (message : String)

/-- The wording of a construction fault. -/
def ConstructionFault.message : ConstructionFault → String
  | blankName => "stage names must not be empty"
  | unencodable index format error =>
    "element " ++ Text.decimal index ++ " cannot be encoded with " ++ format ++ ": " ++
      error.message
  | windowSize size => WindowFn.sizeMessage size
  | foreignDataset name => "dataset '" ++ name ++ "' belongs to a different pipeline"
  | foreignView name => "view '" ++ name ++ "' belongs to a different pipeline"
  | datasetWithoutCodec name true =>
    "dataset '" ++ name ++ "' has no serde; map and multimap assertions copy its entries, " ++
      "so give it one with Dataset::with_serde"
  | datasetWithoutCodec name false =>
    "dataset '" ++ name ++ "' has no serde; set one with set_serde or Dataset::with_serde " ++
      "before asserting on it"
  | notOneExpected count =>
    "a singleton expectation needs exactly one value, got " ++ Text.decimal count
  | expectedWithoutCodec => "expected values need a serde to be injected"
  | assertionWithoutCodec kind remedy =>
    "the serde of this " ++ kind ++ " has not been set; " ++ remedy
  | told message => message

/-- A broken promise of the engine itself, or what a caller reports as one. -/
inductive EngineFault where
  /-- A stage needs the output of a node that has none. -/
  | notEvaluated (stage : String) (node : Nat)
  /-- A stage needs elements of another type from a node. -/
  | wrongElements (stage : String) (node : Nat)
  /-- A view is read as one of another type. -/
  | wrongView (view : String)
  /-- A worker of a stage stopped before its end. -/
  | workerStopped (stage : String)
  | told (message : String)

/-- The wording of an engine fault. Types and the ends of workers are not told in detail. -/
def EngineFault.message : EngineFault → String
  | notEvaluated stage node =>
    "stage '" ++ stage ++ "' reads node #" ++ Text.decimal node ++ " before it was evaluated"
  | wrongElements stage node =>
    "stage '" ++ stage ++ "' expected elements of type <type> from node #" ++ Text.decimal node
  | wrongView view => "view '" ++ view ++ "' does not hold values of type <type>"
  | workerStopped stage => "worker of stage '" ++ stage ++ "' did not complete: <panic>"
  | told message => message

mutual

/-- Why a pipeline could not be built or run. -/
inductive PipelineError where
  | configuration (fault : ConfigurationFault)
  | duplicateStageName (name : String)
  | construction (stage : String) (fault : ConstructionFault)
  | serialization (stage : String) (source : SerializationError)
  | undeclaredSideInput (stage view : String)
  | viewMaterialization (view : String) (fault : ReadFault)
  | duplicateKey (view key : String)
  | stageFailed (stage : String) (source : StageFault)
  | internal (fault : EngineFault)

/-- What the code of a caller raised inside a stage. -/
inductive StageFault where
  | check (failure : CheckFailure)
  | pipeline (error : PipelineError)
  | serialization (error : SerializationError)
  | user (text : String)

/-- Why a check refused a value. -/
inductive CheckFailure where
  | notEqual (expected actual : String)
  | unexpectedlyEqual (unexpected : String)
  | mismatch (difference : Difference)
  | custom (message : String)
  | panicked (message : String)
  | sideInput (error : PipelineError)

end

mutual

/-- The wording of a pipeline's failure. -/
def PipelineError.message : PipelineError → String
  | .configuration fault => "Invalid pipeline configuration: " ++ fault.message
  | .duplicateStageName name => "Stage '" ++ name ++ "' is already registered in this pipeline"
  | .construction stage fault => "Invalid construction of '" ++ stage ++ "': " ++ fault.message
  | .serialization stage source =>
    "Serialization error in '" ++ stage ++ "': " ++ source.message
  | .undeclaredSideInput stage view =>
    "Stage '" ++ stage ++ "' reads view '" ++ view ++ "' which is not one of its side inputs"
  | .viewMaterialization view fault =>
    "View '" ++ view ++ "' could not be materialized: " ++ fault.message
  | .duplicateKey view key => "Duplicate key " ++ key ++ " in map view '" ++ view ++ "'"
  | .stageFailed stage source => "Stage '" ++ stage ++ "' failed: " ++ source.message
  | .internal fault => "Internal pipeline error: " ++ fault.message

/-- The wording of what a caller's code raised. -/
def StageFault.message : StageFault → String
  | .check failure => failure.message
  | .pipeline error => error.message
  | .serialization error => error.message
  | .user text => "user error: " ++ text

/-- The wording of a check's failure. A mapping's text lists its entries in their order. -/
def CheckFailure.message : CheckFailure → String
  | .notEqual expected actual =>
    "Expected: " ++ Text.listedInOrder expected ++ ", but was: " ++ Text.listedInOrder actual
  | .unexpectedlyEqual unexpected =>
    "Expected a value different from: " ++ Text.listedInOrder unexpected
  | .mismatch difference => difference.message
  | .custom message => message
  | .panicked message => "Checker panicked: " ++ message
  | .sideInput error => "Could not read checked value: " ++ error.message

end

namespace PipelineError

/-- The stage or view that the error is about. -/
def stage? : PipelineError → Option String
  | construction stage _ | serialization stage _ | undeclaredSideInput stage _
  | stageFailed stage _ => some stage
  | duplicateStageName name => some name
  | viewMaterialization view _ | duplicateKey view _ => some view
  | configuration _ | internal _ => none

/-- The error arises while a pipeline is built. -/
def isConstruction : PipelineError → Bool
  | configuration _ | duplicateStageName _ | construction .. => true
  | _ => false

/-- The wording of the failure that caused the error. -/
def cause? : PipelineError → Option String
  | serialization _ source => some source.message
  | stageFailed _ source => some source.message
  | _ => none

/-- The failure of a check that stopped a stage. -/
def check? : PipelineError → Option CheckFailure
  | stageFailed _ (.check failure) => some failure
  | _ => none

end PipelineError

namespace CheckFailure

/-- The difference behind a mismatch. -/
def difference? : CheckFailure → Option Difference
  | mismatch d => some d
  | _ => none

/-- The error behind a value that could not be read. -/
def sideInput? : CheckFailure → Option PipelineError
  | sideInput e => some e
  | _ => none

end CheckFailure

end CheckedFlow
