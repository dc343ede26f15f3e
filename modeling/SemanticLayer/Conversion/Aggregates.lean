import SemanticLayer.Conversion.State
import SemanticLayer.Formula.Aggregate
import SemanticLayer.Formula.Rendering

set_option autoImplicit false

/-!
Metrics that compute one aggregation: a measure that is nothing else, or a hidden helper for a
formula that contains one. All formulas with the same aggregation share its metric.
-/
namespace SemanticLayer.Conversion

open Formula (AggregateCall AggregateFunction)
open Tabular (Table Measure)

structure AggregateTarget where
  table : Table
  /-- The column of the table's dataset. -/
  column : String
  key : String

/-- The target of a call, or what is wrong with it. A row count reads the column of ones and has no
column in its key. -/
def aggregateTarget (source : Source) (call : AggregateCall) : Except String AggregateTarget :=
  match source.model.table? call.table with
  | none => .error ("formula references unknown table '" ++ call.table ++ "'")
  | some t =>
    let key := Identifier.Key.aggregate call.function.keyword t.name
    match call.column with
    | none => .ok ⟨t, rowCountColumn source.settings t, key ""⟩
    | some name =>
      match t.column? name with
      | none =>
        .error ("formula references unknown column '" ++ t.name ++ "'[" ++ name ++ "]")
      | some c => .ok ⟨t, c.name, key c.name⟩

/-- The target of a call in a formula; a call without one is noted. -/
def aggregateTarget? (source : Source) (call : AggregateCall) (object : String) :
    Run (Option AggregateTarget) := do
  match aggregateTarget source call with
  | .ok target => return some target
  | .error problem =>
    warn object problem
    return none

/-- Puts a metric into the result and remembers what it computes. The first metric of an
aggregation is the one that formulas use. -/
def registerMetric (m : Metric) (table key : String) : Run Unit := do
  store (·.addMetric m)
  modify fun s =>
    let known := s.measures
    { s with measures := { known with
        metricTables := known.metricTables ++ [(m.uniqueName, table)]
        aggregates :=
          if (known.aggregates.lookup key).isSome then known.aggregates
          else known.aggregates ++ [(key, m.uniqueName)] } }

def resolveAs (key uniqueName : String) : Run Unit :=
  modify fun s =>
    { s with measures := { s.measures with resolved := (key, uniqueName) :: s.measures.resolved } }

def simpleMeasure (source : Source) (owner : Table) (measure : Measure) (call : AggregateCall) :
    Run Unit := do
  let some target ← aggregateTarget? source call measure.name | return
  let key := Identifier.Key.measure owner.name measure.name
  let name ← uniqueName {
    candidate := measure.name, key, kind := .metric, owner := owner.name }
  let dataset ← datasetName target.table.name
  registerMetric {
    uniqueName := name
    label := measure.name
    dataset
    column := target.column
    calculationMethod := call.function.calculationMethod
    format := measure.formatString
    folder := measure.displayFolder
    isHidden := measure.isHidden
    description := measure.description } target.table.name target.key
  resolveAs key name

def resolveSimpleMeasures (source : Source) : Run Unit := do
  for t in source.model.tables do
    for measure in t.measures do
      if let some call := Formula.singleAggregate measure.expression.text.toList then
        simpleMeasure source t measure call

/-- The name of what a helper aggregates: its column, or its table when it counts rows. -/
def aggregated (call : AggregateCall) (target : AggregateTarget) : String :=
  if call.column.isSome then target.column else target.table.name

/-- The metric that computes a call, made when no metric does so yet. -/
def aggregateMetric (source : Source) (call : AggregateCall) (object : String) :
    Run (Option String) := do
  let some target ← aggregateTarget? source call object | return none
  if let some known := (← get).measures.aggregates.lookup target.key then
    return some known
  let subject := aggregated call target
  let suffix := "_" ++ call.function.keyword
  let name ← uniqueName {
    candidate := subject ++ suffix
    key := target.key
    kind := .metric
    owner := target.table.name
    suffix := some suffix }
  let dataset ← datasetName target.table.name
  registerMetric {
    uniqueName := name
    label := call.function.label ++ " of " ++ subject
    dataset
    column := target.column
    calculationMethod := call.function.calculationMethod
    isHidden := true } target.table.name target.key
  modify fun s =>
    { s with measures := { s.measures with helpers := s.measures.helpers ++ [name] } }
  return some name

def isReferenced (o : Output) (name : String) : Bool :=
  let reference := (Formula.measureReference name).toList
  o.metricCalcs.any fun m => Text.occursIn reference m.expression.toList

/-- Notes the helpers that no expression refers to, which is what a formula leaves behind when it is
given up halfway. -/
def reportUnreferencedHelpers : Run Unit := do
  let s ← get
  log ((s.measures.helpers.filter fun name => !isReferenced s.output name).map fun name =>
    ⟨.info, some name, "helper metric is not referenced by any translated formula"⟩)

end SemanticLayer.Conversion
