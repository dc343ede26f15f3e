import SemanticLayer.Document.Decoding
import SemanticLayer.Tabular.Model

set_option autoImplicit false

namespace SemanticLayer.Tabular

open Document

/-- A number that fits into 32 bits. -/
def readWord : Reader Nat := readNat (UInt32.size - 1)

def flagField (name : String) (fields : List (String × Document)) : Option Bool :=
  fieldOr false readFlag name fields

def textField (name : String) (fields : List (String × Document)) : Option String :=
  fieldOr "" readText name fields

def textField? (name : String) (fields : List (String × Document)) : Option (Option String) :=
  fieldOr none (nullable readText) name fields

def listField {α : Type} (item : Reader α) (name : String)
    (fields : List (String × Document)) : Option (List α) :=
  fieldOr [] (readList item) name fields

def Expression.read : Reader Expression
  | .text written => some ⟨written⟩
  | value => (readList readText value).map Expression.ofLines

def Column.read : Reader Column := fun value => do
  let fields ← fields? value
  return {
    name := ← textField "name" fields
    dataType := ← textField? "dataType" fields
    columnType := ← textField? "type" fields
    sourceColumn := ← textField? "sourceColumn" fields
    expression := ← fieldOr none (nullable Expression.read) "expression" fields
    summarizeBy := ← textField? "summarizeBy" fields
    isHidden := ← flagField "isHidden" fields
    isKey := ← flagField "isKey" fields
    sortByColumn := ← textField? "sortByColumn" fields
    displayFolder := ← textField? "displayFolder" fields
    formatString := ← textField? "formatString" fields
    description := ← textField? "description" fields }

def Measure.read : Reader Measure := fun value => do
  let fields ← fields? value
  return {
    name := ← textField "name" fields
    expression := ← fieldOr {} Expression.read "expression" fields
    formatString := ← textField? "formatString" fields
    displayFolder := ← textField? "displayFolder" fields
    isHidden := ← flagField "isHidden" fields
    description := ← textField? "description" fields }

def PartitionSource.read : Reader PartitionSource := fun value => do
  let fields ← fields? value
  match ← required readText "type" fields with
  | "query" =>
    return .query (← required Expression.read "query" fields) (← textField? "dataSource" fields)
  | "m" => return .powerQuery (← required Expression.read "expression" fields)
  | "calculated" => return .calculated (← required Expression.read "expression" fields)
  | _ => return .other

def Partition.read : Reader Partition := fun value => do
  let fields ← fields? value
  return {
    name := ← textField "name" fields
    source := ← required PartitionSource.read "source" fields }

def Level.read : Reader Level := fun value => do
  let fields ← fields? value
  return {
    name := ← textField "name" fields
    ordinal := ← fieldOr 0 readWord "ordinal" fields
    column := ← textField "column" fields }

def Hierarchy.read : Reader Hierarchy := fun value => do
  let fields ← fields? value
  return {
    name := ← textField "name" fields
    displayFolder := ← textField? "displayFolder" fields
    isHidden := ← flagField "isHidden" fields
    levels := ← listField Level.read "levels" fields }

def Table.read : Reader Table := fun value => do
  let fields ← fields? value
  return {
    name := ← textField "name" fields
    description := ← textField? "description" fields
    dataCategory := ← textField? "dataCategory" fields
    isHidden := ← flagField "isHidden" fields
    columns := ← listField Column.read "columns" fields
    measures := ← listField Measure.read "measures" fields
    partitions := ← listField Partition.read "partitions" fields
    hierarchies := ← listField Hierarchy.read "hierarchies" fields }

def Relationship.read : Reader Relationship := fun value => do
  let fields ← fields? value
  return {
    name := ← textField? "name" fields
    fromTable := ← required readText "fromTable" fields
    fromColumn := ← required readText "fromColumn" fields
    toTable := ← required readText "toTable" fields
    toColumn := ← required readText "toColumn" fields
    isActive := ← fieldOr true readFlag "isActive" fields
    crossFilteringBehavior := ← textField? "crossFilteringBehavior" fields }

/-- The name of an object that a perspective lists. -/
def readListedName : Reader String := fun value => do
  required readText "name" (← fields? value)

def PerspectiveTable.read : Reader PerspectiveTable := fun value => do
  let fields ← fields? value
  return {
    name := ← textField "name" fields
    columns := ← listField readListedName "columns" fields
    measures := ← listField readListedName "measures" fields
    hierarchies := ← listField readListedName "hierarchies" fields }

def Perspective.read : Reader Perspective := fun value => do
  let fields ← fields? value
  return {
    name := ← textField "name" fields
    tables := ← listField PerspectiveTable.read "tables" fields }

def DataSource.read : Reader DataSource := fun value => do
  let fields ← fields? value
  return {
    name := ← textField "name" fields
    connectionString := ← textField? "connectionString" fields
    kind := ← textField? "type" fields }

def Model.read : Reader Model := fun value => do
  let fields ← fields? value
  return {
    name := ← textField? "name" fields
    culture := ← textField? "culture" fields
    tables := ← listField Table.read "tables" fields
    relationships := ← listField Relationship.read "relationships" fields
    perspectives := ← listField Perspective.read "perspectives" fields
    dataSources := ← listField DataSource.read "dataSources" fields }

def Database.read : Reader Database := fun value => do
  let fields ← fields? value
  return {
    name := ← textField "name" fields
    compatibilityLevel := ← fieldOr none (nullable readWord) "compatibilityLevel" fields
    model := ← fieldOr {} Model.read "model" fields }

end SemanticLayer.Tabular
