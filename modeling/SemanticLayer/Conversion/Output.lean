import SemanticLayer.Catalog
import SemanticLayer.DimensionGraph
import SemanticLayer.Identifier.Basic
import SemanticLayer.Settings.Basic

set_option autoImplicit false

/-!
The objects that a conversion has made so far, each kind in a map by names.

Additions change the result in place, and fail before they have changed anything. Joins of the model
and joins nested in dimensions share one space of names.
-/
namespace SemanticLayer

inductive ConversionError where
  | depthExceeded (path : DepthExceeded)
  | duplicate (kind : Identifier.Kind) (name : String)
  | missing (kind : Identifier.Kind) (name : String)
  | invalidSettings (problem : InvalidSetting)
  deriving DecidableEq, Repr

def DepthExceeded.message (d : DepthExceeded) : String :=
  "Embedded dimension traversal from '" ++ d.start ++ "' exceeded depth " ++
    toString d.maxDepth ++ " (path: " ++ " -> ".intercalate d.path ++ ")"

def ConversionError.message : ConversionError → String
  | .depthExceeded d => d.message
  | .duplicate kind name =>
    "Duplicate " ++ kind.text ++ " identifier inserted into the result: " ++ name
  | .missing kind name => kind.text ++ " '" ++ name ++ "' referenced before it was created"
  | .invalidSettings problem =>
    "Invalid settings: Invalid configuration: " ++ problem.message

/-- Objects by their names, in the order in which they were put in. -/
structure NamedMap {A : Type} (name : A → String) where
  keys : List String
  values : List A
  keyed : keys = values.map name
  deriving DecidableEq, Repr

namespace NamedMap

variable {A : Type} {name : A → String}

def ofList (values : List A) : NamedMap name := ⟨values.map name, values, rfl⟩

def contains (m : NamedMap name) (key : String) : Bool := m.keys.contains key

abbrev insert (m : NamedMap name) (item : A) : NamedMap name where
  keys := m.keys ++ [name item]
  values := m.values ++ [item]
  keyed := by rw [m.keyed, List.map_append, List.map_singleton]

abbrev mapValues (m : NamedMap name) (f : A → A) (same : ∀ item, name (f item) = name item) :
    NamedMap name where
  keys := m.keys
  values := m.values.map f
  keyed := by
    rw [m.keyed, List.map_map]
    exact (List.map_congr_left fun item _ => same item).symm

end NamedMap

structure Output where
  connectionMap : NamedMap Connection.uniqueName := .ofList []
  datasetMap : NamedMap Dataset.uniqueName := .ofList []
  metricMap : NamedMap Metric.uniqueName := .ofList []
  metricCalcMap : NamedMap MetricCalc.uniqueName := .ofList []
  dimensionMap : NamedMap Dimension.uniqueName := .ofList []
  relationshipMap : NamedMap Relationship.uniqueName := .ofList []
  perspectiveMap : NamedMap Perspective.uniqueName := .ofList []
  /-- The names of the joins that are stored on dimensions. -/
  embedded : List String := []
  deriving DecidableEq, Repr

namespace Output

abbrev connections (o : Output) : List Connection := o.connectionMap.values

abbrev datasets (o : Output) : List Dataset := o.datasetMap.values

abbrev metrics (o : Output) : List Metric := o.metricMap.values

abbrev metricCalcs (o : Output) : List MetricCalc := o.metricCalcMap.values

abbrev dimensions (o : Output) : List Dimension := o.dimensionMap.values

abbrev relationships (o : Output) : List Relationship := o.relationshipMap.values

abbrev perspectives (o : Output) : List Perspective := o.perspectiveMap.values

/-- Procedures that change a result in place. What they have written stays when they fail. -/
abbrev Writing := EStateM ConversionError Output

/-- The result that a procedure makes of another one, unless it fails. -/
def Writing.result (w : Writing Unit) (o : Output) : Except ConversionError Output :=
  match w.run o with
  | .ok _ o' => .ok o'
  | .error e _ => .error e

/-- One of the maps of a result that objects of a kind are put into. -/
structure Shelf {A : Type} (name : A → String) where
  kind : Identifier.Kind
  map : Output → NamedMap name
  put : NamedMap name → Output → Output

namespace Shelf

def connections : Shelf Connection.uniqueName :=
  ⟨.connection, (·.connectionMap), fun m o => { o with connectionMap := m }⟩

def datasets : Shelf Dataset.uniqueName :=
  ⟨.dataset, (·.datasetMap), fun m o => { o with datasetMap := m }⟩

def metrics : Shelf Metric.uniqueName :=
  ⟨.metric, (·.metricMap), fun m o => { o with metricMap := m }⟩

def metricCalcs : Shelf MetricCalc.uniqueName :=
  ⟨.metricCalc, (·.metricCalcMap), fun m o => { o with metricCalcMap := m }⟩

def dimensions : Shelf Dimension.uniqueName :=
  ⟨.dimension, (·.dimensionMap), fun m o => { o with dimensionMap := m }⟩

def perspectives : Shelf Perspective.uniqueName :=
  ⟨.perspective, (·.perspectiveMap), fun m o => { o with perspectiveMap := m }⟩

/-- Puts an object at the end of its map, unless its name is taken there. -/
def insert {A : Type} {name : A → String} (shelf : Shelf name) (item : A) : Writing Unit := do
  let o ← get
  if (shelf.map o).contains (name item) then throw (.duplicate shelf.kind (name item))
  else modify fun o => shelf.put ((shelf.map o).insert item) o

end Shelf

def addConnection (o : Output) (c : Connection) : Except ConversionError Output :=
  (Shelf.connections.insert c).result o

def addDataset (o : Output) (d : Dataset) : Except ConversionError Output :=
  (Shelf.datasets.insert d).result o

def addMetric (o : Output) (m : Metric) : Except ConversionError Output :=
  (Shelf.metrics.insert m).result o

def addMetricCalc (o : Output) (m : MetricCalc) : Except ConversionError Output :=
  (Shelf.metricCalcs.insert m).result o

def addDimension (o : Output) (d : Dimension) : Except ConversionError Output :=
  (Shelf.dimensions.insert d).result o

def addPerspective (o : Output) (p : Perspective) : Except ConversionError Output :=
  (Shelf.perspectives.insert p).result o

def holdsJoin (o : Output) (name : String) : Bool :=
  o.relationshipMap.contains name || o.embedded.contains name

def hasDimension (o : Output) (name : String) : Bool := o.dimensionMap.contains name

/-- A dimension with one more join at the end of its list if it is the owner. -/
def withJoin (owner : String) (r : Relationship) (d : Dimension) : Dimension :=
  if d.uniqueName == owner then { d with relationships := d.relationships ++ [r] } else d

theorem uniqueName_withJoin (owner : String) (r : Relationship) (d : Dimension) :
    (withJoin owner r d).uniqueName = d.uniqueName := by
  unfold withJoin
  split <;> rfl

def insertJoin (r : Relationship) : Writing Unit := do
  let o ← get
  if o.holdsJoin r.uniqueName then throw (.duplicate .relationship r.uniqueName)
  else modify fun o => { o with relationshipMap := o.relationshipMap.insert r }

/-- Puts a join on its dimension first, and then its name among those of the nested joins. -/
def insertNestedJoin (owner : String) (r : Relationship) : Writing Unit := do
  let o ← get
  if o.holdsJoin r.uniqueName then throw (.duplicate .relationship r.uniqueName)
  else if o.hasDimension owner then
    modify fun o => { o with
      dimensionMap := o.dimensionMap.mapValues (withJoin owner r) (uniqueName_withJoin owner r) }
    modify fun o => { o with embedded := o.embedded ++ [r.uniqueName] }
  else throw (.missing .dimension owner)

def addJoin (o : Output) (r : Relationship) : Except ConversionError Output :=
  (insertJoin r).result o

def addNestedJoin (o : Output) (owner : String) (r : Relationship) :
    Except ConversionError Output :=
  (insertNestedJoin owner r).result o

def joins (o : Output) (dataset dimension : String) : Bool :=
  o.relationships.any fun r => r.source.dataset == dataset && r.target.dimension == dimension

def dataset? (o : Output) (name : String) : Option Dataset :=
  o.datasets.find? (·.uniqueName == name)

def dimension? (o : Output) (name : String) : Option Dimension :=
  o.dimensions.find? (·.uniqueName == name)

end Output

end SemanticLayer
