import SemanticLayer.Text.LowerCase

set_option autoImplicit false

namespace SemanticLayer

inductive DataType where
  | string
  | long
  | double
  | decimal
  | boolean
  | dateTime
  deriving DecidableEq, Repr

namespace DataType

def text : DataType → String
  | string => "string"
  | long => "long"
  | double => "double"
  | decimal => "decimal"
  | boolean => "boolean"
  | dateTime => "datetime"

def ofTabular? (dataType : String) : Option DataType :=
  match Text.lowerAscii dataType with
  | "string" => some string
  | "int64" => some long
  | "double" => some double
  | "decimal" => some decimal
  | "boolean" => some boolean
  | "datetime" => some dateTime
  | _ => none

end DataType

structure DatasetColumn where
  name : String
  dataType : DataType
  /-- What is computed in place of the physical column of that name. -/
  sql : Option String := none
  deriving DecidableEq, Repr

structure Dataset where
  uniqueName : String
  label : String
  connectionId : String := ""
  table : Option String := none
  sql : Option String := none
  columns : List DatasetColumn := []
  description : Option String := none
  /-- No query is known, so the table has to be materialized by hand. -/
  needsMaterialization : Bool := false
  deriving DecidableEq, Repr

def Dataset.column? (d : Dataset) (name : String) : Option DatasetColumn :=
  d.columns.find? (·.name == name)

end SemanticLayer
