import CheckedFlow.Script.World

/-!
# Steps of a script

* `Step`: one builder call, question or run, with the names of what it works on.
* `Step.play`: what a step does and answers.
* `World.answers`: the answers of all steps, played one after the other. A step that fails does not
  keep the others from being played; a run that panics does, and the script has no answer.
-/

namespace CheckedFlow.Script

/-- The description of evidence. -/
inductive EvidenceSpec where
  | actual (input : String) (shape : ShapeSpec) (fallback : Option CodecSpec) (keyed : Bool)
  | expected (kind : Kind) (values : List Json) (shape : ShapeSpec) (codec : Option CodecSpec)
  | view (view : String)
  | intruder (stage : String) (fails : Bool)

/-- What an assertion is about. -/
inductive Subject where
  | elements
  | singleton
  | singletonIterable
  | map
  | multimap
deriving DecidableEq, Repr

/-- A call on an assertion. Values are in plain form. -/
inductive Call where
  | setCodec (codec : CodecSpec)
  | format
  | describe
  | satisfies (checking : Checking)
  | containsInAnyOrder (expected : List Json)
  | empty
  | isEqualTo (expected : Json)
  | notEqualTo (expected : Json)
  | satisfiesRelation (relation : RelationSpec) (expected : Json)

/-- What a check tests. -/
inductive Test where
  | checker (checking : Checking)
  | relation (expected : EvidenceSpec) (relation : RelationSpec)

/-- A step of a script. `target` is the name under which a handle is stored, `name` the name of
what is built. -/
inductive Step where
  | create (pipeline target name : String) (kind : Kind) (values : List Json)
      (timestamps : Option (List Timestamp)) (codec : CodecSpec)
  | impulse (pipeline target name : String)
  | windowInto (input target name : String) (windowFn : WindowFn)
  | withCodec (input target : String) (codec : CodecSpec)
  /-- Keeps the elements that are among `values`, or those that are not. -/
  | filter (input target name : String) (values : List Json) (keep : Bool)
  | map (input target name : String) (f : ElementMap)
  | parDo (input target name : String) (sideInputs : List String) (task : ElementTask String)
  /-- Shows all elements with their surroundings to the observer. -/
  | dump (input name : String)
  | view (input target name : String) (shape : ShapeSpec)
  | format (input : String)
  | datasetInfo (input : String)
  | viewInfo (view : String)
  | checkInfo (check : String)
  | stages (pipeline : String)
  | pipelineInfo (pipeline : String)
  /-- The pipelines that a handle belongs to. -/
  | owners (handle : String)
  | assertOn (input target : String) (subject : Subject)
  | assertView (view target : String)
  | call (assertion : String) (call : Call)
  | check (pipeline target name : String) (actual : EvidenceSpec) (test : Test)
  | run (pipeline : String) (counters : List String)

namespace EvidenceSpec

open Play

/-- The codec that an optional description names. -/
def codec? (k : Kind) : Option CodecSpec → Option (Option (Codec k.Value))
  | none => some none
  | some c => some <$> c.codec? k

/-- The evidence that a description names. -/
def meaning : EvidenceSpec → Play (Emitting Evidence)
  | actual input shape fallback keyed => do
    let ⟨k, d⟩ ← dataset input
    let ⟨l, f⟩ ← need (shape.viewFn? k)
    return ⟨l, .ofDataset d f (← need (codec? k fallback)) keyed⟩
  | expected k values shape codec => do
    let ⟨l, f⟩ ← need (shape.viewFn? k)
    return ⟨l, .ofValues (← need (elements? k values)) (← need (codec? k codec)) f⟩
  | view name => do
    let ⟨k, v⟩ ← Play.view name
    return ⟨k, .ofView v⟩
  | intruder stage fails => return ⟨.list .integer, intruding stage fails⟩

/-- The dataset that evidence, expanded after `before`, leaves to the script. -/
def leak (before : Builder Unit) (p : Pipeline) (under : String) (g : Graph) :
    EvidenceSpec → Option (Dataset .integer)
  | intruder stage _ =>
    let data := do before; intruderData stage p under
    (Build.run (ExceptT.run data) g).1.toOption
  | _ => none

end EvidenceSpec

namespace Step

open Play

/-- The name of the handle of the dataset that an intruder registered. -/
def leakedName : String := "leaked"

/-- Stores the dataset that an intruder registered, if there is one. -/
def storeLeaked : Option (Dataset .integer) → Play Unit
  | none => return ()
  | some d => do let _ ← store leakedName (.dataset ⟨.integer, d⟩)

/-- Registers the check `name` and stores its handle. -/
def playCheck (pipeline target name : String) (actual : EvidenceSpec) (test : Test) :
    Play Answer := do
  let p ← Play.pipeline pipeline
  let ⟨k, evidence⟩ ← actual.meaning
  let under := name ++ "/CreateActual"
  match test with
  | .checker checking => do
    let checker ← need (checking.checker? k)
    storeLeaked (actual.leak (pure ()) p under (← graph p))
    store target (.check (← build p (checkValue p name evidence checker)))
  | .relation expected relation => do
    let ⟨l, given⟩ ← expected.meaning
    let r ← need (relation.relation? k l)
    let before := do let _ ← evidence p under
    let g ← graph p
    storeLeaked (expected.leak before p (name ++ "/CreateExpected") g <|>
      actual.leak (pure ()) p under g)
    store target (.check (← build p (checkAgainst p name evidence given r)))

/-- Shows all elements of a dataset with their surroundings to the observer. -/
def playDump (input name : String) : Play Answer := do
  let ⟨k, d⟩ ← dataset input
  let ⟨l, f⟩ ← need (ElementTask.meaning? k .describe)
  let told ← build d.pipeline (d.parDo l name f [])
  let checker ← need (Checking.checker? ⟨some name, .pass⟩ (.list l))
  let _ ← build d.pipeline ((assertThat (told.withCodec (.json l))).satisfies checker)
  return .done

/-- Makes an assertion on a dataset. -/
def playAssert (input target : String) (subject : Subject) : Play Answer := do
  match subject, ← dataset input with
  | .elements, ⟨k, d⟩ => store target (.iterable k (assertThat d))
  | .singleton, ⟨k, d⟩ => store target (.singleton k (assertThatSingleton d))
  | .singletonIterable, ⟨.list k, d⟩ =>
    store target (.iterable k (assertThatSingletonIterable d))
  | .map, ⟨.entry key k, d⟩ => store target (.singleton (.dictionary key k) (assertThatMap d))
  | .multimap, ⟨.entry key k, d⟩ =>
    store target (.singleton (.dictionary key (.list k)) (assertThatMultimap d))
  | _, _ => throw .skipped

/-- Makes an assertion on a view. -/
def playAssertView (view target : String) : Play Answer := do
  match ← Play.view view with
  | ⟨.list k, v⟩ =>
    if v.shape = .iterable then store target (.iterable k (assertThatIterable v))
    else throw .skipped
  | _ => throw .skipped

/-- Runs a builder call that makes a check nobody keeps a handle of. -/
def buildCheck (p : Pipeline) (call : Builder CheckHandle) : Play Answer := do
  let _ ← build p call
  return .done

/-- The name of a codec's format, or the error for want of a codec. -/
def formatAnswer {α : Type} : Except PipelineError (Codec α) → Answer
  | .ok c => .text (some c.format)
  | .error e => .failed e

/-- A call on the assertion `name` on a collection. -/
def callIterable (name : String) {k : Kind} (a : IterableAssertion k) : Call → Play Answer
  | .setCodec spec => do store name (.iterable k (a.setCodec (← need (spec.codec? k))))
  | .format => return formatAnswer a.expectedCodec
  | .describe => return .text (some a.describe)
  | .satisfies checking => do
    buildCheck a.pipeline (a.satisfies (← need (checking.checker? (.list k))))
  | .containsInAnyOrder expected => do
    buildCheck a.pipeline (a.containsInAnyOrder (← need (elements? k expected)))
  | .empty => buildCheck a.pipeline a.empty
  | .satisfiesRelation relation expected => do
    let r ← need (relation.within? (.list k))
    buildCheck a.pipeline (a.satisfiesRelation r (← need (Kind.ofPlain? (.list k) expected)))
  | _ => throw .skipped

/-- A call on the assertion `name` on a single value. -/
def callSingleton (name : String) {k : Kind} (a : SingletonAssertion k) : Call → Play Answer
  | .setCodec spec => do store name (.singleton k (a.setCodec (← need (spec.codec? k))))
  | .format => return formatAnswer a.expectedCodec
  | .describe => return .text (some a.describe)
  | .satisfies checking => do
    buildCheck a.pipeline (a.satisfies (← need (checking.checker? k)))
  | .isEqualTo expected => do
    buildCheck a.pipeline (a.isEqualTo (← need (k.ofPlain? expected)))
  | .notEqualTo expected => do
    buildCheck a.pipeline (a.notEqualTo (← need (k.ofPlain? expected)))
  | .satisfiesRelation relation expected => do
    let r ← need (relation.within? k)
    buildCheck a.pipeline (a.satisfiesRelation r (← need (k.ofPlain? expected)))
  | _ => throw .skipped

/-- A call on an assertion. -/
def playCall (assertion : String) (call : Call) : Play Answer := do
  match ← handle assertion with
  | .iterable _ a => callIterable assertion a call
  | .singleton _ a => callSingleton assertion a call
  | _ => throw .skipped

/-- Runs a pipeline. -/
def playRun (pipeline : String) (counters : List String) : Play Answer := do
  let p ← Play.pipeline pipeline
  let (report, g) := p.run (← graph p)
  modify fun w => w.setGraph p g
  match report with
  | some report => return .report report counters
  | none => return .crashed

/-- Creates a dataset of values. -/
def playCreate (pipeline target name : String) (k : Kind) (values : List Json)
    (timestamps : Option (List Timestamp)) (codec : CodecSpec) : Play Answer := do
  let p ← Play.pipeline pipeline
  let codec ← need (codec.codec? k)
  let items ← need (elements? k values)
  let d ← build p
    (match timestamps with
    | none => p.source k name items codec
    | some timestamps => p.sourceAt k name (items.zip timestamps) codec)
  store target (.dataset ⟨k, d⟩)

/-- What a step does, and its answer unless it ends early. -/
def act : Step → Play Answer
  | create pipeline target name k values timestamps codec =>
    playCreate pipeline target name k values timestamps codec
  | impulse pipeline target name => do
    let p ← Play.pipeline pipeline
    store target (.dataset ⟨.unit, ← build p (p.impulse name)⟩)
  | windowInto input target name f => do
    let ⟨k, d⟩ ← dataset input
    store target (.dataset ⟨k, ← build d.pipeline (d.windowInto name f)⟩)
  | withCodec input target codec => do
    let ⟨k, d⟩ ← dataset input
    store target (.dataset ⟨k, d.withCodec (← need (codec.codec? k))⟩)
  | filter input target name values keep => do
    let ⟨k, d⟩ ← dataset input
    let values ← need (elements? k values)
    let kept (x : k.Value) : Bool := values.any (k.equal · x) == keep
    store target (.dataset ⟨k, ← build d.pipeline (d.filter name kept)⟩)
  | map input target name f => do
    let ⟨k, d⟩ ← dataset input
    let ⟨l, f⟩ ← need (f.meaning? k)
    store target (.dataset ⟨l, ← build d.pipeline (d.map l name f)⟩)
  | parDo input target name sideInputs task => do
    let ⟨k, d⟩ ← dataset input
    let declared ← sideInputs.mapM Play.view
    let ⟨l, f⟩ ← need ((← task.mapViews Play.view).meaning? k)
    let declared := declared.map fun v => v.view.sideInput
    store target (.dataset ⟨l, ← build d.pipeline (d.parDo l name f declared)⟩)
  | dump input name => playDump input name
  | view input target name shape => do
    let ⟨k, d⟩ ← dataset input
    let ⟨l, f⟩ ← need (shape.viewFn? k)
    store target (.view ⟨l, ← build d.pipeline (d.view l name f)⟩)
  | format input => do
    let ⟨_, d⟩ ← dataset input
    return .text (d.codec.map Codec.format)
  | datasetInfo input => do
    let ⟨_, d⟩ ← dataset input
    return .texts [d.name, d.describe]
  | viewInfo name => do
    let ⟨_, v⟩ ← Play.view name
    return .texts [v.name, v.shape.name, v.describe, v.sideInput.name]
  | checkInfo name => do
    let c ← Play.check name
    let g ← graph c.pipeline
    return .texts [c.name, c.stage, c.policy.describe, (c.state g).name, c.describe g]
  | stages pipeline => do return .texts (← graph (← Play.pipeline pipeline)).stageNames
  | pipelineInfo pipeline => do
    let p ← Play.pipeline pipeline
    let g ← graph p
    return .pipeline g.stages.length p.options.runMode (p.describe g) p.options.jobName
  | owners name => do
    let p ← need (← handle name).pipeline?
    let same (m : Member) : Bool :=
      match m.pipeline with
      | .ok q => q.isSame p
      | .error _ => false
    return .texts (((← get).members.filter same).map Member.name)
  | assertOn input target subject => playAssert input target subject
  | assertView name target => playAssertView name target
  | call assertion c => playCall assertion c
  | check pipeline target name actual test => playCheck pipeline target name actual test
  | run pipeline counters => playRun pipeline counters

/-- The answer of a step, and the world after it. -/
def play (step : Step) (w : World) : Answer × World :=
  match (ExceptT.run step.act).run w with
  | (.ok answer, w) => (answer, w)
  | (.error answer, w) => (answer, w)

end Step

/-- What the steps of a script answer that are played one after the other. A run that panics takes the
script with it, and leaves no answer. -/
def World.answers (w : World) : List Step → Option (List Answer)
  | [] => some []
  | step :: steps =>
    match step.play w with
    | (.crashed, _) => none
    | (answer, w) => do return answer :: (← w.answers steps)

end CheckedFlow.Script
