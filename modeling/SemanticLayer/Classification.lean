import SemanticLayer.Tabular.Model

set_option autoImplicit false

/-!
Which tables hold rows to aggregate and which ones describe them.

The relationships decide: a table on their many side is a fact, one on their single side a
dimension, and one on both sides a dimension only. A table whose columns back a metric is a fact
whatever else it is. An unrelated table with measures is a fact when it has columns to show and
holds only measures when it has none; what is left is unused.
-/
namespace SemanticLayer

/-- The classes of tables, each a list of names without repetition. -/
structure TableLists where
  unused : List String := []
  /-- On the side of an active relationship that has many rows. -/
  left : List String := []
  right : List String := []
  measureOnly : List String := []
  fact : List String := []
  dimension : List String := []
  deriving DecidableEq, Repr

def insertName (names : List String) (name : String) : List String :=
  if names.contains name then names else names ++ [name]

namespace TableLists

/-- Tables that are facts and dimensions, in the order of the facts. -/
def factDimensions (lists : TableLists) : List String :=
  lists.fact.filter lists.dimension.contains

def addRelationship (model : Tabular.Model) (lists : TableLists) (r : Tabular.Relationship) :
    TableLists :=
  match model.table? r.fromTable, model.table? r.toTable with
  | some source, some target =>
    { lists with
      left := insertName lists.left source.name
      right := insertName lists.right target.name }
  | _, _ => lists

def sides (model : Tabular.Model) : TableLists :=
  (model.relationships.filter (·.isActive)).foldl (addRelationship model) {}

structure Role where
  isDimension : Bool
  isFact : Bool
  isMeasureOnly : Bool

def hasVisibleColumns (t : Tabular.Table) : Bool :=
  t.columns.any fun c => !c.isHidden && c.kind != .rowNumber

def role (lists : TableLists) (backing : List String) (t : Tabular.Table) : Role :=
  let onLeft := lists.left.contains t.name
  let onRight := lists.right.contains t.name
  let joinsOrBacks := (onLeft && !onRight) || backing.contains t.name
  let standsAlone := !joinsOrBacks && !(onLeft || onRight) && !t.measures.isEmpty
  { isDimension := onRight
    isFact := joinsOrBacks || (standsAlone && hasVisibleColumns t)
    isMeasureOnly := standsAlone && !hasVisibleColumns t }

def addTable (backing : List String) (lists : TableLists) (t : Tabular.Table) : TableLists :=
  let r := role lists backing t
  let lists :=
    { lists with
      dimension := if r.isDimension then insertName lists.dimension t.name else lists.dimension
      fact := if r.isFact then insertName lists.fact t.name else lists.fact
      measureOnly :=
        if r.isMeasureOnly then insertName lists.measureOnly t.name else lists.measureOnly }
  if lists.fact.contains t.name || lists.dimension.contains t.name ||
      lists.measureOnly.contains t.name then lists
  else { lists with unused := insertName lists.unused t.name }

end TableLists

/-- Classifies the tables of a model; `backing` names those whose columns back a metric. -/
def classify (model : Tabular.Model) (backing : List String) : TableLists :=
  model.tables.foldl (TableLists.addTable backing) (TableLists.sides model)

end SemanticLayer
