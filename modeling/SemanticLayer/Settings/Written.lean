import SemanticLayer.Document.Decoding
import SemanticLayer.Settings.Basic

set_option autoImplicit false

namespace SemanticLayer

open Document

/-- The fields of a section. A list gives the values of its fields in their order, as far as it
goes, and a date or a time gives none. -/
def sectionFields (names : List String) : Reader (List (String × Document))
  | .record fields => some fields
  | .list items => some (names.zip items)
  | .moment _ => some []
  | _ => none

def NamingSettings.read : Reader NamingSettings := fun value => do
  let fields ← sectionFields ["max_length", "max_suffix"] value
  let missing : NamingSettings := {}
  return {
    maxLength := ← fieldOr missing.maxLength (readNat (UInt64.size - 1)) "max_length" fields
    maxSuffix := ← fieldOr missing.maxSuffix (readNat (UInt32.size - 1)) "max_suffix" fields }

def DatasetSettings.read : Reader DatasetSettings := fun value => do
  let fields ← sectionFields ["row_count_column", "validate_sql"] value
  let missing : DatasetSettings := {}
  return {
    rowCountColumn := ← fieldOr missing.rowCountColumn readText "row_count_column" fields
    validateSql := ← fieldOr missing.validateSql readFlag "validate_sql" fields }

def MeasureSettings.read : Reader MeasureSettings := fun value => do
  let fields ←
    sectionFields ["non_additive_suffixes", "non_additive_patterns", "column_measures"] value
  let missing : MeasureSettings := {}
  return {
    nonAdditiveSuffixes :=
      ← fieldOr missing.nonAdditiveSuffixes (readList readText) "non_additive_suffixes" fields
    nonAdditivePatterns :=
      ← fieldOr missing.nonAdditivePatterns (readList readText) "non_additive_patterns" fields
    columnMeasures := ← fieldOr missing.columnMeasures readFlag "column_measures" fields }

def TimeUnitRule.read : Reader TimeUnitRule := fun value => do
  let fields ← sectionFields ["keyword", "unit"] value
  return {
    keyword := ← required readText "keyword" fields
    unit := ← required readText "unit" fields }

def DimensionSettings.read : Reader DimensionSettings := fun value => do
  let fields ← sectionFields ["time_units"] value
  let missing : DimensionSettings := {}
  return {
    timeUnits := ← fieldOr missing.timeUnits (readList TimeUnitRule.read) "time_units" fields }

def RelationshipSettings.read : Reader RelationshipSettings := fun value => do
  let fields ← sectionFields ["max_depth"] value
  let missing : RelationshipSettings := {}
  return { maxDepth := ← fieldOr missing.maxDepth (readNat (UInt64.size - 1)) "max_depth" fields }

def CatalogSettings.read : Reader CatalogSettings := fun value => do
  let fields ← sectionFields ["version"] value
  let missing : CatalogSettings := {}
  return { version := ← fieldOr missing.version readText "version" fields }

def Settings.read : Reader Settings := fun value => do
  let fields ←
    sectionFields ["naming", "datasets", "measures", "dimensions", "relationships", "catalog"] value
  return {
    naming := ← fieldOr {} NamingSettings.read "naming" fields
    datasets := ← fieldOr {} DatasetSettings.read "datasets" fields
    measures := ← fieldOr {} MeasureSettings.read "measures" fields
    dimensions := ← fieldOr {} DimensionSettings.read "dimensions" fields
    relationships := ← fieldOr {} RelationshipSettings.read "relationships" fields
    catalog := ← fieldOr {} CatalogSettings.read "catalog" fields }

def TimeUnitRule.encode (rule : TimeUnitRule) : Document := .record [
  ("keyword", .text rule.keyword),
  ("unit", .text rule.unit)]

def Settings.encode (s : Settings) : Document := .record [
  ("naming", .record [
    ("max_length", .integer s.naming.maxLength),
    ("max_suffix", .integer s.naming.maxSuffix)]),
  ("datasets", .record [
    ("row_count_column", .text s.datasets.rowCountColumn),
    ("validate_sql", .flag s.datasets.validateSql)]),
  ("measures", .record [
    ("non_additive_suffixes", ofTexts s.measures.nonAdditiveSuffixes),
    ("non_additive_patterns", ofTexts s.measures.nonAdditivePatterns),
    ("column_measures", .flag s.measures.columnMeasures)]),
  ("dimensions", .record [
    ("time_units", .list (s.dimensions.timeUnits.map TimeUnitRule.encode))]),
  ("relationships", .record [
    ("max_depth", .integer s.relationships.maxDepth)]),
  ("catalog", .record [
    ("version", .text s.catalog.version)])]

end SemanticLayer
