import SemanticLayer.Dimension
import SemanticLayer.Text.Blank
import SemanticLayer.Text.LowerCase
import SemanticLayer.Text.Search

set_option autoImplicit false

namespace SemanticLayer

structure NamingSettings where
  maxLength : Nat := 63
  /-- The greatest number tried as a suffix. -/
  maxSuffix : Nat := 999
  deriving DecidableEq, Repr

structure DatasetSettings where
  /-- The name wished for the column of ones that every dataset gets. -/
  rowCountColumn : String := "row_count_one"
  /-- Whether queries are checked for their grammar. -/
  validateSql : Bool := true
  deriving DecidableEq, Repr

structure MeasureSettings where
  /-- Endings of the names of columns that are not to be summed. -/
  nonAdditiveSuffixes : List String := [
    "key", "id", "code", "year", "month", "quarter", "week", "day", "date", "number",
    "num", "no", "pct", "percent", "rate", "ratio", "price"]
  /-- Pieces of such names. -/
  nonAdditivePatterns : List String := ["%"]
  /-- Whether columns that can be summarized get metrics of their own. -/
  columnMeasures : Bool := true
  deriving DecidableEq, Repr

structure TimeUnitRule where
  keyword : String
  unit : String
  deriving DecidableEq, Repr

structure DimensionSettings where
  /-- Tried in order against the names of levels. -/
  timeUnits : List TimeUnitRule := [
    ⟨"day", "day"⟩, ⟨"date", "day"⟩, ⟨"week", "week"⟩, ⟨"month", "month"⟩,
    ⟨"quarter", "quarter"⟩, ⟨"year", "year"⟩]
  deriving DecidableEq, Repr

structure RelationshipSettings where
  /-- How many dimensions a chain of nested ones may have. -/
  maxDepth : Nat := 64
  deriving DecidableEq, Repr

structure CatalogSettings where
  version : String := "1.0"
  deriving DecidableEq, Repr

structure Settings where
  naming : NamingSettings := {}
  datasets : DatasetSettings := {}
  measures : MeasureSettings := {}
  dimensions : DimensionSettings := {}
  relationships : RelationshipSettings := {}
  catalog : CatalogSettings := {}
  deriving DecidableEq, Repr, Inhabited

def containsLower (text piece : String) : Bool :=
  Text.occursIn (Text.lower piece).toList (Text.lower text).toList

def MeasureSettings.isNonAdditive (s : MeasureSettings) (column : String) : Bool :=
  let name := Text.trimmed column
  s.nonAdditiveSuffixes.any (fun suffix =>
    (Text.lower suffix).toList.isSuffixOf (Text.lower name).toList) ||
  s.nonAdditivePatterns.any (containsLower name)

/-- The time unit that the name of a level stands for, by the first rule whose keyword it has. -/
def DimensionSettings.inferTimeUnit (s : DimensionSettings) (level : String) : Option TimeUnit :=
  (s.timeUnits.find? fun rule => containsLower level rule.keyword).bind fun rule =>
    TimeUnit.ofName? rule.unit

inductive InvalidSetting where
  | maxLength (given : Nat)
  | maxDepth
  | rowCountColumn
  | timeUnit (rule : TimeUnitRule)
  deriving DecidableEq, Repr

def minLength : Nat := 8

def InvalidSetting.message : InvalidSetting → String
  | .maxLength given =>
    "naming.max_length must be at least " ++ toString minLength ++ ", got " ++ toString given
  | .maxDepth => "relationships.max_depth must be positive"
  | .rowCountColumn => "datasets.row_count_column must not be empty"
  | .timeUnit rule =>
    "unknown time unit '" ++ rule.unit ++ "' for keyword '" ++ rule.keyword ++ "'"

def Settings.problem? (s : Settings) : Option InvalidSetting :=
  if s.naming.maxLength < minLength then some (.maxLength s.naming.maxLength)
  else if s.relationships.maxDepth = 0 then some .maxDepth
  else if Text.isBlankText s.datasets.rowCountColumn then some .rowCountColumn
  else
    (s.dimensions.timeUnits.find? fun rule => (TimeUnit.ofName? rule.unit).isNone).map .timeUnit

def Settings.validate (s : Settings) : Except InvalidSetting Unit :=
  match s.problem? with
  | some problem => .error problem
  | none => .ok ()

end SemanticLayer
