import CheckedFlow.Counter.Cells
import CheckedFlow.Decimal.Layout

/-!
# The text exposition of counters

Monitoring systems scrape counters as lines of text: two lines that describe the metric, then one
line per cell with the labels of its owner, in their order, and its count as a float. Without cells
there is no line.
-/

namespace CheckedFlow.Counters

/-- The metric that all counters belong to. -/
def metric : String := "velo_pipeline_stage_counter_total"

/-- The value of a label, with backslashes, quotes and line feeds escaped. -/
def labelValue (s : String) : String :=
  String.join (s.toList.map fun c =>
    match c with
    | '\\' => "\\\\"
    | '"' => "\\\""
    | '\n' => "\\n"
    | _ => c.toString)

/-- A label with its value. -/
def label (name value : String) : String := name ++ "=\"" ++ labelValue value ++ "\""

/-- The line of one cell. -/
def line (job : String) (c : CounterCell) : String :=
  let labels := [label "counter" c.owner.counter, label "stage" c.owner.stage, label "job" job]
  metric ++ "\x7b" ++ String.intercalate "," labels ++ "\x7d " ++
    Decimal.Layout.plain.write c.count.toFloat ++ "\n"

/-- The text that shows all counts of the job. -/
def exposition (job : String) (c : Counters) : String :=
  let cells := c.cells.mergeSort fun a b => ! b.owner.before a.owner
  if cells.isEmpty then ""
  else
    "# HELP " ++ metric ++ " Named counters incremented by pipeline stages\n" ++
      "# TYPE " ++ metric ++ " counter\n" ++ String.join (cells.map (line job))

end CheckedFlow.Counters
