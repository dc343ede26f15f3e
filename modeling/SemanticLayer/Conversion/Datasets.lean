import SemanticLayer.Conversion.State
import SemanticLayer.Conversion.TableSource
import SemanticLayer.Formula.Name
import SemanticLayer.Formula.Normal

set_option autoImplicit false

/-!
The dataset of a table. Its columns are those of the table, without row numbers, and one more that
holds ones, so that rows can be counted as a sum.
-/
namespace SemanticLayer.Conversion

open Tabular (Table Column)

/-- The column of its own table that a formula names and nothing else. -/
def copiedColumn? (t : Table) (formula : String) : Option Column :=
  let s := Formula.normalize formula.toList
  match Formula.bracketName s with
  | some (name, []) => t.column? (String.ofList name)
  | _ =>
    (Formula.columnRef s).bind fun (owner, name) =>
      if Text.equalFold (String.ofList owner) t.name then t.column? (String.ofList name)
      else none

/-- The physical name of the column that a calculated one merely copies. -/
def selfReference? (t : Table) (formula : String) : Option String :=
  ((copiedColumn? t formula).filter (·.kind != .calculated)).map (·.physicalName)

def columnFormula (c : Column) : String := (c.expression.map (·.text)).getD ""

/-- What the query computes for a column, when it is not the physical column of that name. -/
def columnSql (t : Table) (c : Column) : Option String :=
  if c.kind = .calculated then
    match selfReference? t (columnFormula c) with
    | some physical => some (Sql.quote physical)
    | none => some (Sql.withComment "NULL" (Text.trim (columnFormula c).toList))
  else if c.physicalName = c.name then none
  else some (Sql.quote c.physicalName)

def columnType? (c : Column) : Option DataType := c.dataType.bind DataType.ofTabular?

def datasetColumn (t : Table) (c : Column) : DatasetColumn where
  name := c.name
  dataType := (columnType? c).getD .string
  sql := columnSql t c

def columnDiagnostics (t : Table) (c : Column) : List Diagnostic :=
  let object := some (columnObject t.name c.name)
  (if (columnType? c).isNone then
    [⟨.warning, object, "unsupported data type '" ++ c.dataType.getD "" ++ "'; using string"⟩]
  else []) ++
  (if c.kind = .calculated ∧ selfReference? t (columnFormula c) = none then
    [⟨.warning, object, "calculated column could not be translated; emitted NULL"⟩]
  else [])

def dataColumns (t : Table) : List Column := t.columns.filter (·.kind != .rowNumber)

def onesColumn (settings : Settings) (t : Table) : DatasetColumn where
  name := rowCountColumn settings t
  dataType := .long
  sql := some "1"

def tableDataset (settings : Settings) (connectionId uniqueName : String) (t : Table) : Dataset :=
  let source := tableSource t
  { uniqueName
    label := t.name
    connectionId
    table := match source with
      | .table name => some name
      | _ => none
    sql := match source with
      | .query sql => some sql
      | _ => none
    columns := (dataColumns t).map (datasetColumn t) ++ [onesColumn settings t]
    description := t.description
    needsMaterialization := source = .unknown }

def sourceDiagnostics (source : Source) (t : Table) : List Diagnostic :=
  match tableSource t with
  | .table _ => []
  | .query sql =>
    if source.settings.datasets.validateSql then
      (Sql.error? source.parser sql).toList.map fun e =>
        ⟨.warning, some t.name, "dataset SQL could not be parsed; verify it manually: " ++ e⟩
    else []
  | .unknown =>
    [⟨.warning, some t.name,
      "no SQL source could be derived; the dataset must be materialized manually"⟩]

def tableDiagnostics (source : Source) (t : Table) : List Diagnostic :=
  (dataColumns t).flatMap (columnDiagnostics t) ++ partitionDiagnostics t ++
    sourceDiagnostics source t

/-- The identifier of the dataset of a table, which is made unless it is there already. -/
def ensureDataset (source : Source) (t : Table) : Run String := do
  let name ← datasetName t.name
  let s ← get
  if (s.output.dataset? name).isSome then return name
  log (tableDiagnostics source t)
  store (·.addDataset (tableDataset source.settings s.connectionId name t))
  return name

end SemanticLayer.Conversion
