import SemanticLayer.Conversion.Aggregates

set_option autoImplicit false

/-!
Metrics that columns of facts imply by themselves: shown columns with a summary, which no
relationship and no dimension uses, whose names do not speak against it, and whose aggregation no
measure computes yet.
-/
namespace SemanticLayer.Conversion

open Formula (AggregateFunction)
open Tabular (Table Column)

def impliedFunction? (c : Column) : Option AggregateFunction := do
  let written := Text.trimmed (← c.summarizeBy)
  if Text.equalFold written "none" then none
  else if Text.equalFold written "default" then if c.isNumeric then some .sum else none
  else
    match AggregateFunction.ofName? written with
    | some .countRows | none => some .sum
    | some function => some function

/-- A summary that names no function of columns is read as a sum. -/
def summaryDiagnostics (t : Table) (c : Column) : List Diagnostic :=
  match c.summarizeBy.map Text.trimmed with
  | none => []
  | some written =>
    let known :=
      match AggregateFunction.ofName? written with
      | some .countRows | none => false
      | some _ => true
    if known || Text.equalFold written "none" || Text.equalFold written "default" then []
    else [⟨.warning, some (columnObject t.name c.name),
      "unknown summarizeBy '" ++ written ++ "'; using sum"⟩]

/-- Whether a relationship, active or not, uses a column of a table. -/
def joinsColumn (t : Table) (folded : String) (r : Tabular.Relationship) : Bool :=
  (Text.equalFold r.fromTable t.name && Text.lower r.fromColumn == folded) ||
    (Text.equalFold r.toTable t.name && Text.lower r.toColumn == folded)

def describesRows (names : Identifier.Registry) (t : Table) (c : Column) : Bool :=
  (names.lookup (Identifier.Key.level t.name c.name)).isSome ||
    (names.lookup (Identifier.Key.secondaryAttribute t.name c.name)).isSome

/-- Whether a column is in use by a relationship or a dimension, under its name in lower case. -/
def isConsumed (source : Source) (names : Identifier.Registry) (t : Table) (c : Column) : Bool :=
  let folded := Text.lower c.name
  source.model.relationships.any (joinsColumn t folded) ||
    t.columns.any fun other => Text.lower other.name == folded && describesRows names t other

def columnMetric (source : Source) (t : Table) (c : Column) (function : AggregateFunction) :
    Run Unit := do
  if source.settings.measures.isNonAdditive c.name then
    info (columnObject t.name c.name) "column looks non-additive; no metric created"
    return
  let key := Identifier.Key.aggregate function.keyword t.name c.name
  if ((← get).measures.aggregates.lookup key).isSome then return
  let name ← uniqueName {
    candidate := c.name
    key
    kind := .metric
    owner := t.name
    suffix := some ("_" ++ function.keyword) }
  let dataset ← datasetName t.name
  registerMetric {
    uniqueName := name
    label := c.name
    dataset
    column := c.name
    calculationMethod := function.calculationMethod
    format := c.formatString
    folder := c.displayFolder
    description := c.description } t.name key

def freeColumns (source : Source) (names : Identifier.Registry) (t : Table) : List Column :=
  t.columns.filter fun c =>
    !c.isHidden && c.kind != .rowNumber && !isConsumed source names t c

def resolveColumnMeasures (source : Source) : Run Unit := do
  if !source.settings.measures.columnMeasures then return
  for t in source.model.tables do
    if (← get).tables.fact.contains t.name then
      for c in freeColumns source (← get).names t do
        log (summaryDiagnostics t c)
        if let some function := impliedFunction? c then
          columnMetric source t c function

end SemanticLayer.Conversion
