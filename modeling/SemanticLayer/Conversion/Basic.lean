import SemanticLayer.Conversion.CalculatedMeasures
import SemanticLayer.Conversion.ColumnMetrics
import SemanticLayer.Conversion.Dimensions
import SemanticLayer.Conversion.Perspectives

set_option autoImplicit false

/-!
Conversion of a tabular model into a semantic layer: a catalog, a connection, datasets, metrics,
dimensions, and one model that ties them together.

Tables are classified twice, since a formula may aggregate a column of any table and so make a fact
of it. What is skipped, renamed or approximated on the way is noted in the order in which it
happens.
-/
namespace SemanticLayer

structure Conversion where
  catalog : Catalog
  models : List Model
  datasets : List Dataset
  metrics : List Metric
  metricCalcs : List MetricCalc
  dimensions : List Dimension
  connections : List Connection
  diagnostics : List Diagnostic
  deriving DecidableEq, Repr

namespace Conversion

def dataset? (c : Conversion) (uniqueName : String) : Option Dataset :=
  c.datasets.find? (·.uniqueName == uniqueName)

def datasetForTable? (c : Conversion) (table : String) : Option Dataset :=
  c.datasets.find? (·.label == table)

def metric? (c : Conversion) (uniqueName : String) : Option Metric :=
  c.metrics.find? (·.uniqueName == uniqueName)

def metricCalc? (c : Conversion) (uniqueName : String) : Option MetricCalc :=
  c.metricCalcs.find? (·.uniqueName == uniqueName)

def dimension? (c : Conversion) (uniqueName : String) : Option Dimension :=
  c.dimensions.find? (·.uniqueName == uniqueName)

def dimensionForTable? (c : Conversion) (table : String) : Option Dimension :=
  c.dimensions.find? (·.label == table)

def hasErrors (c : Conversion) : Bool := SemanticLayer.hasErrors c.diagnostics

def setTables (tables : TableLists) : Run Unit := modify fun s => { s with tables }

/-- Classifies the tables anew, knowing which of them back metrics. -/
def reclassify (source : Source) : Run Unit := do
  setTables (classify source.model (← get).metricTables)

def resolveCatalog (source : Source) (label : String) : Run Catalog := do
  let name ← uniqueName {
    candidate := label, key := Identifier.Key.catalog label, kind := .catalog }
  return ⟨name, label, source.settings.catalog.version⟩

def resolveConnection (label : String) : Run Unit := do
  let name ← uniqueName {
    candidate := label, key := Identifier.Key.connection label, kind := .connection }
  modify fun s => { s with connectionId := name }
  store (·.addConnection ⟨name, label, label⟩)

/-- Classifies the tables for the first time and notes those that are left out. -/
def classifyTables (source : Source) : Run Unit := do
  let tables := classify source.model []
  setTables tables
  log (tables.unused.map fun name => ⟨.info, some name, "table is unused and was skipped"⟩)

/-- The dimensions that a model does not mention. -/
def orphanDiagnostics (o : Output) (exposed : List String) : List Diagnostic :=
  ((o.dimensions.map (·.uniqueName)).filter fun name => !exposed.contains name).map fun name =>
    ⟨.info, some name,
      "dimension is not reachable from any dataset; not referenced by the model"⟩

def assembleModel (source : Source) (label : String) : Run Model := do
  let name ← uniqueName { candidate := label, key := Identifier.Key.model label, kind := .model }
  let s ← get
  let exposed ← modelDimensions source s
  log (orphanDiagnostics s.output exposed)
  return {
    uniqueName := name
    label
    relationships := s.output.relationships
    metrics := s.output.metrics.map (·.uniqueName) ++ s.output.metricCalcs.map (·.uniqueName)
    dimensions := exposed
    perspectives := s.output.perspectives }

/-- All steps of a conversion in their order. -/
def run (source : Source) (database : Tabular.Database) (connection : String) :
    Run (Catalog × Model) := do
  let catalog ← resolveCatalog source database.name
  resolveConnection connection
  classifyTables source
  reserveDimensionNames
  resolveSimpleMeasures source
  resolveDatasets source
  reportUnreferencedHelpers
  reclassify source
  resolveDimensions source
  resolveRelationships source
  resolveColumnMeasures source
  backfillRelationships source
  resolvePerspectives source
  let model ← assembleModel source (database.model.name.getD database.name)
  return (catalog, model)

end Conversion

variable [Sql.Parser]

/-- Converts a database; every dataset uses the connection with the given label. -/
def convertWith (settings : Settings) (database : Tabular.Database) (connection : String) :
    Except ConversionError Conversion := do
  if let some problem := settings.problem? then
    throw (.invalidSettings problem)
  let source : Conversion.Source := ⟨database.model, settings⟩
  match (Conversion.run source database connection).run (.initial settings) with
  | .error halt => throw halt.error
  | .ok ((catalog, model), s) =>
    return {
      catalog
      models := [model]
      datasets := s.output.datasets
      metrics := s.output.metrics
      metricCalcs := s.output.metricCalcs
      dimensions := s.output.dimensions
      connections := s.output.connections
      diagnostics := s.diagnostics }

def convert (database : Tabular.Database) (connection : String) :
    Except ConversionError Conversion :=
  convertWith {} database connection

end SemanticLayer
