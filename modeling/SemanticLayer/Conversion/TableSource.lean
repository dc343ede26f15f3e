import SemanticLayer.Classification
import SemanticLayer.Diagnostic
import SemanticLayer.PowerQuery.Rename
import SemanticLayer.PowerQuery.Source
import SemanticLayer.Sql

set_option autoImplicit false

/-!
Where the rows of a table come from: a physical table, a query, or a place that is not known.

Every partition contributes a table or a query; several of them are stacked. Renames of columns turn
a contribution into a query around it.
-/
namespace SemanticLayer.Conversion

inductive Contribution where
  | table (schema : Option String) (item : String)
  | query (sql : String)
  deriving DecidableEq, Repr

namespace Contribution

def ofSource : PowerQuery.Source → Contribution
  | .query sql => .query (Text.trimmed sql)
  | .table schema item => .table schema item

def sql : Contribution → String
  | .table (some schema) item => "SELECT * FROM " ++ Sql.quote schema ++ "." ++ Sql.quote item
  | .table none item => "SELECT * FROM " ++ Sql.quote item
  | .query sql => sql

end Contribution

def physicalNames (t : Tabular.Table) : List String :=
  ((t.columns.filter (·.kind == .data)).map (·.physicalName)).foldl insertName []

def renamedColumn (pairs : List (String × String)) (name : String) : String :=
  match pairs.find? (·.2 == name) with
  | some (former, _) => Sql.quote former ++ " AS " ++ Sql.quote name
  | none => Sql.quote name

/-- What a query around another one selects. Without plain columns it is everything and, besides,
every renamed column. -/
def renameProjections (t : Tabular.Table) (pairs : List (String × String)) : List String :=
  match physicalNames t with
  | [] => "*" :: pairs.map fun (former, name) =>
      Sql.quote former ++ " AS " ++ Sql.quote name
  | names => names.map (renamedColumn pairs)

def renameWrapper (t : Tabular.Table) (inner : String) (pairs : List (String × String)) :
    String :=
  "SELECT " ++ ", ".intercalate (renameProjections t pairs) ++ " FROM (" ++ inner ++ ") AS " ++
    Sql.quote "renamed"

def contribution? (t : Tabular.Table) (p : Tabular.Partition) : Option Contribution :=
  match p.source with
  | .query query _ => if query.isBlank then none else some (.query (Text.trimmed query.text))
  | .powerQuery expression =>
    (PowerQuery.extract expression.text).map fun source =>
      match PowerQuery.renames expression.text with
      | .pairs pairs => .query (renameWrapper t (Contribution.ofSource source).sql pairs)
      | .absent | .unreadable => Contribution.ofSource source
  | .calculated _ | .other => none

def partitionObject (t : Tabular.Table) (p : Tabular.Partition) : String :=
  if p.name.isEmpty then t.name else t.name ++ "/" ++ p.name

/-- Why a partition contributes nothing, or less than it should. -/
def partitionProblem? (p : Tabular.Partition) : Option String :=
  match p.source with
  | .query _ _ => none
  | .powerQuery expression =>
    match PowerQuery.extract expression.text, PowerQuery.renames expression.text with
    | none, _ => some "M expression has no recognizable SQL or table source"
    | some _, .unreadable =>
      some "column renames could not be read; source columns may not match"
    | some _, _ => none
  | .calculated _ => some "calculated table partitions have no SQL source"
  | .other => some "unsupported partition source type"

def partitionDiagnostics (t : Tabular.Table) : List Diagnostic :=
  t.partitions.filterMap fun p =>
    (partitionProblem? p).map fun problem => ⟨.warning, some (partitionObject t p), problem⟩

inductive TableSource where
  | table (name : String)
  | query (sql : String)
  | unknown
  deriving DecidableEq, Repr

def tableSource (t : Tabular.Table) : TableSource :=
  match t.partitions.filterMap (contribution? t) with
  | [] => .unknown
  | [.table (some schema) item] => .table (schema ++ "." ++ item)
  | [.table none item] => .table item
  | parts => .query ("\nUNION ALL\n".intercalate (parts.map Contribution.sql))

end SemanticLayer.Conversion
