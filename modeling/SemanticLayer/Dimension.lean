import SemanticLayer.Text.LowerCase

set_option autoImplicit false

namespace SemanticLayer

structure JoinSource where
  dataset : String
  joinColumns : List String
  deriving DecidableEq, Repr

structure JoinTarget where
  dimension : String
  level : String
  deriving DecidableEq, Repr

/-- A join. A model lists the joins from its fact datasets; a dimension lists those that nest other
dimensions in it. -/
structure Relationship where
  uniqueName : String
  source : JoinSource
  target : JoinTarget
  deriving DecidableEq, Repr

inductive DimensionType where
  | standard
  | time
  deriving DecidableEq, Repr

def DimensionType.text : DimensionType → String
  | .standard => "standard"
  | .time => "time"

inductive TimeUnit where
  | day
  | week
  | month
  | quarter
  | year
  deriving DecidableEq, Repr

namespace TimeUnit

def all : List TimeUnit := [.day, .week, .month, .quarter, .year]

theorem mem_all (u : TimeUnit) : u ∈ all := by
  cases u <;> decide

def text : TimeUnit → String
  | day => "day"
  | week => "week"
  | month => "month"
  | quarter => "quarter"
  | year => "year"

def ofName? (name : String) : Option TimeUnit :=
  all.find? fun u => u.text == Text.lowerAscii name

end TimeUnit

structure SecondaryAttribute where
  uniqueName : String
  label : String
  dataset : String
  keyColumns : List String
  nameColumn : String
  folder : Option String := none
  isHidden : Bool := false
  deriving DecidableEq, Repr

/-- A level of a hierarchy; its unique name is that of the level attribute behind it. -/
structure Level where
  uniqueName : String
  isHidden : Bool := false
  secondaryAttributes : List SecondaryAttribute := []
  deriving DecidableEq, Repr

structure LevelAttribute where
  uniqueName : String
  label : String
  dataset : String
  keyColumns : List String
  nameColumn : String
  sortColumn : Option String := none
  timeUnit : Option TimeUnit := none
  isHidden : Bool := false
  deriving DecidableEq, Repr

/-- A drill path, the coarsest level first. -/
structure Hierarchy where
  uniqueName : String
  label : String
  folder : Option String := none
  levels : List Level := []
  deriving DecidableEq, Repr

def Hierarchy.leaf? (h : Hierarchy) : Option Level := h.levels.getLast?

structure Dimension where
  uniqueName : String
  label : String
  type : DimensionType := .standard
  description : Option String := none
  hierarchies : List Hierarchy := []
  levelAttributes : List LevelAttribute := []
  relationships : List Relationship := []
  deriving DecidableEq, Repr

namespace Dimension

def hierarchy? (d : Dimension) (uniqueName : String) : Option Hierarchy :=
  d.hierarchies.find? (·.uniqueName == uniqueName)

def levelAttribute? (d : Dimension) (uniqueName : String) : Option LevelAttribute :=
  d.levelAttributes.find? (·.uniqueName == uniqueName)

end Dimension

end SemanticLayer
