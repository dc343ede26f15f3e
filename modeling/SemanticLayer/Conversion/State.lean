import SemanticLayer.Classification
import SemanticLayer.Conversion.Output
import SemanticLayer.Diagnostic
import SemanticLayer.Identifier.Key
import SemanticLayer.Identifier.Registry
import SemanticLayer.Sql

set_option autoImplicit false

namespace SemanticLayer.Conversion

/-- What a conversion reads and never changes. -/
structure Source where
  model : Tabular.Model
  settings : Settings := {}
  [parser : Sql.Parser]

/-- The metrics that are known by what they compute. -/
structure MeasureMemo where
  /-- The metric of each aggregation, by the key of the aggregation. -/
  aggregates : List (String × String) := []
  /-- The metric or calculated metric of each measure, by the key of the measure. -/
  resolved : List (String × String) := []
  /-- The table behind each metric, in the order in which the metrics were made. -/
  metricTables : List (String × String) := []
  /-- Hidden metrics made for the aggregations of formulas. -/
  helpers : List String := []
  deriving DecidableEq, Repr

structure State where
  names : Identifier.Registry := {}
  tables : TableLists := {}
  output : Output := {}
  diagnostics : List Diagnostic := []
  measures : MeasureMemo := {}
  connectionId : String := ""

def State.initial (settings : Settings) : State :=
  { names := { maxLength := settings.naming.maxLength, maxSuffix := settings.naming.maxSuffix } }

/-- The tables behind metrics, each once, in the order of their first metric. -/
def State.metricTables (s : State) : List String :=
  (s.measures.metricTables.map Prod.snd).foldl insertName []

/-- The end of a conversion without a result, and the state that it has come to by then. -/
structure Halt where
  error : ConversionError
  state : State

instance : Coe Halt ConversionError := ⟨Halt.error⟩

abbrev Run (α : Type) := StateT State (Except Halt) α

/-- What fails ends the conversion where it stands. -/
instance : MonadLift (Except ConversionError) Run where
  monadLift x s :=
    match x with
    | .ok a => .ok (a, s)
    | .error error => .error ⟨error, s⟩

def log (entries : List Diagnostic) : Run Unit :=
  modify fun s => { s with diagnostics := s.diagnostics ++ entries }

def info (object message : String) : Run Unit := log [⟨.info, some object, message⟩]

def warn (object message : String) : Run Unit := log [⟨.warning, some object, message⟩]

def store (change : Output → Except ConversionError Output) : Run Unit := do
  let s ← get
  let output ← change s.output
  set { s with output }

def renameDiagnostics (q : Identifier.Request) (given : Identifier.Allocation) :
    List Diagnostic :=
  match given.resolution with
  | .unchanged => []
  | .renamed => [⟨.info, some q.candidate,
      q.kind.text ++ " identifier renamed to '" ++ given.name ++
        "' to keep it unique and valid"⟩]
  | .exhausted => [⟨.warning, some q.candidate,
      "no free " ++ q.kind.text ++ " identifier found; using the unsafe name '" ++
        given.name ++ "'"⟩]

def uniqueName (q : Identifier.Request) : Run String := do
  let s ← get
  let (given, names) := s.names.allocate q
  set { s with names }
  log (renameDiagnostics q given)
  return given.name

def datasetName (table : String) : Run String :=
  uniqueName {
    candidate := table, key := Identifier.Key.dataset table, kind := .dataset, owner := table }

def dimensionName (table : String) : Run String :=
  uniqueName {
    candidate := table, key := Identifier.Key.dimension table, kind := .dimension, owner := table }

def columnObject (table column : String) : String := table ++ "[" ++ column ++ "]"

/-- The first name with a number that no column has, starting at `n`; among the next `tries`
numbers one is free when these are more than the columns. -/
def freeColumnFrom (t : Tabular.Table) (base : String) (n : Nat) : (tries : Nat) → String
  | 0 => base
  | tries + 1 =>
    let name := base ++ "_" ++ toString n
    if (t.column? name).isNone then name else freeColumnFrom t base (n + 1) tries

/-- The name of the column of ones that the dataset of a table gets. -/
def rowCountColumn (settings : Settings) (t : Tabular.Table) : String :=
  let base := settings.datasets.rowCountColumn
  if (t.column? base).isNone then base else freeColumnFrom t base 1 (t.columns.length + 1)

end SemanticLayer.Conversion
