import SemanticLayer.Conversion.Aggregates
import SemanticLayer.Conversion.Datasets

set_option autoImplicit false

/-!
Measures that are more than one aggregation become calculated metrics over other metrics.

A formula that refers to a measure needs that measure first, so the work goes down along the
references. `idle` holds the keys of the measures that are not being worked on; a reference to any
other measure has come round to where it started and gets no answer. The list shrinks on the way
down, which is why the work ends.
-/
namespace SemanticLayer.Conversion

open Formula (MeasureSource Rendering)
open Tabular (Table Measure)

def measureKeys (model : Tabular.Model) : List String :=
  model.tables.flatMap fun t => t.measures.map fun m => Identifier.Key.measure t.name m.name

def referencedMeasure? (model : Tabular.Model) (name : String) : Option (Table × Measure) :=
  model.tables.findSome? fun t => (t.measure? name).map fun m => (t, m)

/-- Renders a formula as it is written, and then once more in its normal form. The failure is the
text that the first attempt left. -/
def renderMeasure (source : MeasureSource Run) (measure : Measure) :
    Run (Except String String) := do
  let written := Text.trimmed measure.expression.text
  match ← Formula.render source written with
  | .complete expression => return .ok expression
  | .incomplete _ remainder =>
    let normal := String.ofList (Formula.normalize written.toList)
    if normal = written then return .error remainder
    match ← Formula.render source normal with
    | .complete expression =>
      info measure.name "formula translated after removing comments and redundant parentheses"
      return .ok expression
    | .incomplete _ _ => return .error remainder

def renderedCalc (measure : Measure) (uniqueName expression : String) : MetricCalc where
  uniqueName
  label := measure.name
  expression
  format := measure.formatString
  folder := measure.displayFolder
  isHidden := measure.isHidden
  description := measure.description

/-- A hidden calculated metric that evaluates to zero and keeps the formula in a comment. -/
def placeholderCalc (measure : Measure) (uniqueName : String) : MetricCalc :=
  let written := Text.trimmed measure.expression.text
  { uniqueName
    label := measure.name
    expression := Sql.withComment "0" written.toList
    format := measure.formatString
    folder := measure.displayFolder
    isHidden := true
    description :=
      some ("Not translated, needs manual follow-up. Original formula: " ++ written) }

def remainderMessage (measure : Measure) (remainder : String) : String :=
  let shape := if Formula.isRatio measure.expression.text.toList then "ratio" else "formula"
  shape ++ " could not be translated past `" ++ remainder ++
    "`; emitted a disabled placeholder"

def withoutKey (key : String) (idle : List String) : List String := idle.filter (· ≠ key)

theorem withoutKey_length_lt {key : String} {idle : List String} (h : key ∈ idle) :
    (withoutKey key idle).length < idle.length :=
  List.length_filter_lt_length_iff_exists.2 ⟨key, h, by simp⟩

/-- The metric or calculated metric of a measure, made when it is not there yet. -/
def calculatedMeasure (source : Source) (idle : List String) (owner : Table)
    (measure : Measure) : Run (Option String) := do
  let key := Identifier.Key.measure owner.name measure.name
  if let some known := (← get).measures.resolved.lookup key then
    return some known
  if _h : key ∈ idle then
    let references : MeasureSource Run := {
      aggregate := fun call => aggregateMetric source call measure.name
      measure := fun name =>
        match referencedMeasure? source.model name with
        | some (t, m) => calculatedMeasure source (withoutKey key idle) t m
        | none => pure none }
    let outcome ← renderMeasure references measure
    if let .error remainder := outcome then
      warn measure.name (remainderMessage measure remainder)
    let name ← uniqueName {
      candidate := measure.name, key, kind := .metricCalc, owner := owner.name }
    store (·.addMetricCalc (match outcome with
      | .ok expression => renderedCalc measure name expression
      | .error _ => placeholderCalc measure name))
    resolveAs key name
    return some name
  else
    warn measure.name "measure reaches itself through other measures"
    return none
termination_by idle.length
decreasing_by
  exact withoutKey_length_lt _h

def resolveCalculatedMeasures (source : Source) (t : Table) : Run Unit := do
  for measure in t.measures do
    let _ ← calculatedMeasure source (measureKeys source.model) t measure

/-- Makes the datasets of the tables in use, and after each one the measures of its table. Formulas
may aggregate columns of further tables, whose datasets come last. -/
def resolveDatasets (source : Source) : Run Unit := do
  for t in source.model.tables do
    let tables := (← get).tables
    unless tables.unused.contains t.name do
      unless tables.measureOnly.contains t.name do
        let _ ← ensureDataset source t
      resolveCalculatedMeasures source t
  for name in (← get).metricTables do
    if let some t := source.model.table? name then
      let _ ← ensureDataset source t

end SemanticLayer.Conversion
