import SemanticLayer.Text.LowerCase

set_option autoImplicit false

/-!
Keys of source objects: a word for what the object is, then the lower-cased names that locate it.
Objects whose names differ in case only share a key.
-/
namespace SemanticLayer.Identifier.Key

/-- A kind and the names that locate an object, with colons between them. -/
def located (kind : String) (names : List String) : String :=
  ":".intercalate (kind :: names.map Text.lower)

def catalog (name : String) : String := located "catalog" [name]

def connection (label : String) : String := located "connection" [label]

def model (name : String) : String := located "model" [name]

def dataset (table : String) : String := located "dataset" [table]

def dimension (table : String) : String := located "dimension" [table]

def aggregate (function table column : String) : String :=
  located "aggregate" [function, table, column]

def measure (table name : String) : String := located "measure" [table, name]

def hierarchy (table name : String) : String := located "hierarchy" [table, name]

def level (table column : String) : String := located "level" [table, column]

def secondaryAttribute (table column : String) : String := located "attribute" [table, column]

def relationship (fromTable fromColumn toTable toColumn : String) : String :=
  "relationship:" ++ Text.lower fromTable ++ "." ++ Text.lower fromColumn ++ "->" ++
    Text.lower toTable ++ "." ++ Text.lower toColumn

/-- The same columns joined from dimension to dimension. -/
def embeddedRelationship (fromTable fromColumn toTable toColumn : String) : String :=
  relationship fromTable fromColumn toTable toColumn ++ ":embedded"

/-- The join from a table's dataset to its own dimension. -/
def selfRelationship (table : String) : String := located "relationship:self" [table]

def perspective (name : String) : String := located "perspective" [name]

end SemanticLayer.Identifier.Key
