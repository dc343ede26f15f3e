import SemanticLayer.Conversion.State
import SemanticLayer.DimensionGraph

set_option autoImplicit false

/-!
Joins between datasets and dimensions.

An active relationship joins the dataset of its table with many rows to the level of its other
column: as a join of the model when that table is a fact, as a join nested in the table's own
dimension when it is a dimension, and as both when it is both.
-/
namespace SemanticLayer.Conversion

open Tabular (Table Column)

def relationshipObject (r : Tabular.Relationship) : String :=
  columnObject r.fromTable r.fromColumn ++ " -> " ++ columnObject r.toTable r.toColumn

structure JoinEnds where
  fromTable : Table
  fromColumn : Column
  toTable : Table
  toColumn : Column

/-- The ends of an active relationship, or why it is skipped. -/
def joinEnds (model : Tabular.Model) (r : Tabular.Relationship) :
    Except (Severity × String) JoinEnds :=
  if !r.isActive then .error (.info, "inactive relationship skipped")
  else
    match model.table? r.fromTable, model.table? r.toTable with
    | some fromTable, some toTable =>
      match fromTable.column? r.fromColumn, toTable.column? r.toColumn with
      | some fromColumn, some toColumn => .ok ⟨fromTable, fromColumn, toTable, toColumn⟩
      | _, _ => .error (.warning, "relationship references an unknown column")
    | _, _ => .error (.warning, "relationship references an unknown table")

/-- Stores the join between two ends, in each of the forms that the class of its table asks for. -/
def storeJoin (ends : JoinEnds) (join : JoinSource) (target : JoinTarget) : Run Unit := do
  let candidate := ends.fromTable.name ++ "_" ++ ends.toTable.name
  let request (key : String) : Identifier.Request :=
    { candidate, key, kind := .relationship, owner := ends.fromTable.name }
  let columns (key : String → String → String → String → String) : String :=
    key ends.fromTable.name ends.fromColumn.name ends.toTable.name ends.toColumn.name
  let tables := (← get).tables
  if tables.fact.contains ends.fromTable.name then
    let name ← uniqueName (request (columns Identifier.Key.relationship))
    store (·.addJoin ⟨name, join, target⟩)
  if tables.dimension.contains ends.fromTable.name then
    let name ← uniqueName (request (columns Identifier.Key.embeddedRelationship))
    let owner ← dimensionName ends.fromTable.name
    store (·.addNestedJoin owner ⟨name, join, target⟩)

def resolveRelationship (source : Source) (r : Tabular.Relationship) : Run Unit := do
  let object := some (relationshipObject r)
  match joinEnds source.model r with
  | .error (severity, reason) => log [⟨severity, object, reason⟩]
  | .ok ends =>
    match (← get).names.lookup (Identifier.Key.level ends.toTable.name ends.toColumn.name) with
    | none => log [⟨.warning, object, "join column is not a level of the target dimension"⟩]
    | some level =>
      let dimension ← dimensionName ends.toTable.name
      let dataset ← datasetName ends.fromTable.name
      let output := (← get).output
      if (output.dimension? dimension).isSome && (output.dataset? dataset).isSome then
        storeJoin ends ⟨dataset, [ends.fromColumn.name]⟩ ⟨dimension, level⟩
      else log [⟨.warning, object, "relationship endpoints were not converted"⟩]

/-- The column and the level on which a dataset joins its own dimension: those of the key column if
it is a level, else those of the leaf of the first hierarchy. -/
def selfJoinTarget (names : Identifier.Registry) (t : Table) (d : Dimension) :
    Option (String × String) :=
  let onKey := t.keyColumn?.bind fun c =>
    (names.lookup (Identifier.Key.level t.name c.name)).map fun level => (c.name, level)
  onKey.or do
    let leaf ← (← d.hierarchies.head?).leaf?
    let keyed ← d.levelAttribute? leaf.uniqueName
    return (← keyed.keyColumns.head?, leaf.uniqueName)

def addSelfJoin (source : Source) (table : String) : Run Unit := do
  let key := Identifier.Key.selfRelationship table
  if ((← get).names.lookup key).isSome then return
  let some t := source.model.table? table | return
  let dimension ← dimensionName t.name
  let s ← get
  let some d := s.output.dimension? dimension | return
  match selfJoinTarget s.names t d with
  | none => warn t.name "dimension has no level to join its own dataset to"
  | some (column, level) =>
    let dataset ← datasetName t.name
    let name ← uniqueName {
      candidate := t.name ++ "_self", key, kind := .relationship, owner := t.name }
    store (·.addJoin ⟨name, ⟨dataset, [column]⟩, ⟨dimension, level⟩⟩)
    info t.name "joined dataset to its own dimension"

def ownerOf (names : Identifier.Registry) (name : String) : Option String :=
  (names.registration? name).map fun r => Text.lower r.owner

/-- Notes a dimension under a dataset; both keep the order in which they come. -/
def noteDimension (dataset dimension : String) :
    List (String × List String) → List (String × List String)
  | [] => [(dataset, [dimension])]
  | (known, dimensions) :: rest =>
    if known = dataset then (known, insertName dimensions dimension) :: rest
    else (known, dimensions) :: noteDimension dataset dimension rest

def directDimensions (names : Identifier.Registry) (o : Output) : List (String × List String) :=
  (o.relationships.filter fun r =>
    ownerOf names r.source.dataset != ownerOf names r.target.dimension).foldl
      (fun direct r => noteDimension r.source.dataset r.target.dimension direct) []

def reachableFrom (graph : DimensionGraph) (maxDepth : Nat) (start : String) :
    Except ConversionError (List String) :=
  match graph.reachable start maxDepth with
  | .ok found => .ok found
  | .error path => .error (.depthExceeded path)

/-- The pairs of dimensions of one dataset, each also reached through the one before it. -/
def ambiguousPairs (graph : DimensionGraph) (maxDepth : Nat) (dimensions : List String) :
    Except ConversionError (List (String × String)) := do
  let pairs ← dimensions.mapM fun through => do
    let reached ← reachableFrom graph maxDepth through
    return (dimensions.filter fun other => other ≠ through && reached.contains other).map
      fun other => (through, other)
  return pairs.flatten

def ambiguityDiagnostics (graph : DimensionGraph) (maxDepth : Nat)
    (direct : List (String × List String)) : Except ConversionError (List Diagnostic) := do
  let entries ← direct.mapM fun (dataset, dimensions) => do
    let pairs ← ambiguousPairs graph maxDepth dimensions
    return pairs.map fun (through, other) =>
      ⟨.warning, some dataset, "dimension '" ++ other ++
        "' is joined directly and also reachable through '" ++ through ++ "'"⟩
  return entries.flatten

def warnAmbiguousPaths (source : Source) : Run Unit := do
  let s ← get
  let graph := DimensionGraph.ofDimensions s.output.dimensions
  log (← ambiguityDiagnostics graph source.settings.relationships.maxDepth
    (directDimensions s.names s.output))

/-- Makes the joins of all relationships, then those of the tables that are facts and dimensions to
themselves. -/
def resolveRelationships (source : Source) : Run Unit := do
  for r in source.model.relationships do
    resolveRelationship source r
  for table in (← get).tables.factDimensions do
    addSelfJoin source table
  warnAmbiguousPaths source

def repeatMetric (dataset : String) (m : Metric) : Metric :=
  if m.dataset == dataset then { m with unrelatedDimensions := some .repeated } else m

theorem uniqueName_repeatMetric (dataset : String) (m : Metric) :
    (repeatMetric dataset m).uniqueName = m.uniqueName := by
  unfold repeatMetric
  split <;> rfl

/-- Makes the metrics of a dataset repeat their value across dimensions that they cannot reach. -/
def repeatMetrics (dataset : String) (o : Output) : Output :=
  { o with metricMap :=
      o.metricMap.mapValues (repeatMetric dataset) (uniqueName_repeatMetric dataset) }

/-- Makes the metrics of one table usable everywhere, and joins its dataset to its own dimension
when nothing does so yet. -/
def backfillTable (source : Source) (table : String) : Run Unit := do
  let dataset ← datasetName table
  let dimension ← dimensionName table
  unless (← get).output.joins dataset dimension do
    addSelfJoin source table
  let count := ((← get).output.metrics.filter (·.dataset == dataset)).length
  modify fun s => { s with output := repeatMetrics dataset s.output }
  info table (toString count ++ " metric(s) repeat across unrelated dimensions")

/-- The tables with metrics that are only ever on the single side of relationships. -/
def dimensionOnlyTables (s : State) : List String :=
  s.metricTables.filter fun table =>
    !s.tables.left.contains table && s.tables.right.contains table

def backfillRelationships (source : Source) : Run Unit := do
  for table in dimensionOnlyTables (← get) do
    backfillTable source table

/-- The dimensions of a model: those that its joins lead to and those reached from them. What a
dimension reaches is looked up the first time that it is met as the target of a join. -/
def exposedDimensions (graph : DimensionGraph) (maxDepth : Nat) (targets : List String) :
    Except ConversionError (List String) :=
  targets.foldlM (fun found target =>
    if found.contains target then .ok found
    else (reachableFrom graph maxDepth target).map fun reached =>
      reached.foldl insertName (found ++ [target])) []

def modelDimensions (source : Source) (s : State) : Except ConversionError (List String) :=
  exposedDimensions (DimensionGraph.ofDimensions s.output.dimensions)
    source.settings.relationships.maxDepth (s.output.relationships.map (·.target.dimension))

end SemanticLayer.Conversion
