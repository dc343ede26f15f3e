import SemanticLayer.Text.Blank
import SemanticLayer.Text.LowerCase

set_option autoImplicit false

/-!
Tables of tabular models with their columns, measures, partitions and hierarchies. Names meet up to
the case of the letters A to Z, and the first of two equal names wins.
-/
namespace SemanticLayer.Tabular

structure Expression where
  text : String := ""
  deriving DecidableEq, Repr, Inhabited

/-- The text written as a list of lines. -/
def Expression.ofLines (lines : List String) : Expression := ⟨"\n".intercalate lines⟩

def Expression.isBlank (e : Expression) : Bool := Text.isBlankText e.text

inductive ColumnKind where
  | data
  | calculated
  | calculatedTableColumn
  | rowNumber
  deriving DecidableEq, Repr

structure Column where
  name : String := ""
  dataType : Option String := none
  /-- How the values come about, as the model words it; anything unknown means plain data. -/
  columnType : Option String := none
  sourceColumn : Option String := none
  expression : Option Expression := none
  summarizeBy : Option String := none
  isHidden : Bool := false
  isKey : Bool := false
  sortByColumn : Option String := none
  displayFolder : Option String := none
  formatString : Option String := none
  description : Option String := none
  deriving DecidableEq, Repr, Inhabited

namespace Column

def data (name dataType : String) : Column where
  name
  dataType := some dataType
  sourceColumn := some name

def calculated (name dataType : String) (expression : Expression) : Column where
  name
  dataType := some dataType
  columnType := some "calculated"
  expression := some expression

def kind (c : Column) : ColumnKind :=
  match c.columnType with
  | none => .data
  | some t =>
    if Text.equalFold t "calculated" then .calculated
    else if Text.equalFold t "calculatedTableColumn" then .calculatedTableColumn
    else if Text.equalFold t "rowNumber" then .rowNumber
    else .data

def physicalName (c : Column) : String := c.sourceColumn.getD c.name

def isNumeric (c : Column) : Bool :=
  match c.dataType with
  | none => false
  | some t => ["int64", "double", "decimal"].contains (Text.lowerAscii t)

end Column

structure Measure where
  name : String := ""
  expression : Expression := {}
  formatString : Option String := none
  displayFolder : Option String := none
  isHidden : Bool := false
  description : Option String := none
  deriving DecidableEq, Repr, Inhabited

inductive PartitionSource where
  | query (query : Expression) (dataSource : Option String)
  | powerQuery (expression : Expression)
  | calculated (expression : Expression)
  | other
  deriving DecidableEq, Repr

structure Partition where
  name : String := ""
  source : PartitionSource
  deriving DecidableEq, Repr

structure Level where
  name : String := ""
  ordinal : Nat := 0
  column : String := ""
  deriving DecidableEq, Repr

structure Hierarchy where
  name : String := ""
  displayFolder : Option String := none
  isHidden : Bool := false
  levels : List Level := []
  deriving DecidableEq, Repr

def Hierarchy.ofLevels (name : String) (levels : List (String × String)) : Hierarchy where
  name
  levels := levels.zipIdx.map fun ((name, column), ordinal) => { name, ordinal, column }

structure Table where
  name : String := ""
  description : Option String := none
  dataCategory : Option String := none
  isHidden : Bool := false
  columns : List Column := []
  measures : List Measure := []
  partitions : List Partition := []
  hierarchies : List Hierarchy := []
  deriving DecidableEq, Repr, Inhabited

namespace Table

def column? (t : Table) (name : String) : Option Column :=
  t.columns.find? fun c => Text.equalFold c.name name

def measure? (t : Table) (name : String) : Option Measure :=
  t.measures.find? fun m => Text.equalFold m.name name

def isTime (t : Table) : Bool :=
  t.dataCategory.any (Text.equalFold · "time")

def keyColumn? (t : Table) : Option Column := t.columns.find? Column.isKey

end Table

end SemanticLayer.Tabular
