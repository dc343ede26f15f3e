import SemanticLayer.Tabular.Table

set_option autoImplicit false

namespace SemanticLayer.Tabular

/-- A relationship between two columns. `from` is the side with many rows. -/
structure Relationship where
  name : Option String := none
  fromTable : String
  fromColumn : String
  toTable : String
  toColumn : String
  isActive : Bool := true
  crossFilteringBehavior : Option String := none
  deriving DecidableEq, Repr

structure PerspectiveTable where
  name : String := ""
  columns : List String := []
  measures : List String := []
  hierarchies : List String := []
  deriving DecidableEq, Repr

structure Perspective where
  name : String := ""
  tables : List PerspectiveTable := []
  deriving DecidableEq, Repr

structure DataSource where
  name : String := ""
  connectionString : Option String := none
  kind : Option String := none
  deriving DecidableEq, Repr

structure Model where
  name : Option String := none
  culture : Option String := none
  tables : List Table := []
  relationships : List Relationship := []
  perspectives : List Perspective := []
  dataSources : List DataSource := []
  deriving DecidableEq, Repr, Inhabited

def Model.table? (m : Model) (name : String) : Option Table :=
  m.tables.find? fun t => Text.equalFold t.name name

structure Database where
  name : String := ""
  compatibilityLevel : Option Nat := none
  model : Model := {}
  deriving DecidableEq, Repr, Inhabited

end SemanticLayer.Tabular
