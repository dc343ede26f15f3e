import SemanticLayer.Conversion.Joins

set_option autoImplicit false

/-!
Perspectives: the measures that they list, as metrics, and the dimensions of the dimension tables of
which they list a column or a hierarchy. Dimensions nested in these come along as a whole.
-/
namespace SemanticLayer.Conversion

open Tabular (Table PerspectiveTable)

def listedMetrics (resolved : List (String × String)) (t : Table) (listed : List String)
    (metrics : List String) : List String :=
  (listed.filterMap fun name => resolved.lookup (Identifier.Key.measure t.name name)).foldl
    insertName metrics

def measureDiagnostics (resolved : List (String × String)) (object : String) (t : Table)
    (listed : List String) : List Diagnostic :=
  (listed.filter fun name =>
      (resolved.lookup (Identifier.Key.measure t.name name)).isNone).map fun name =>
    ⟨.warning, some object, "perspective measure '" ++ name ++ "' was not converted"⟩

def listedHierarchies (names : Identifier.Registry) (t : Table) (listed : List String) :
    List String :=
  listed.filterMap fun name => names.lookup (Identifier.Key.hierarchy t.name name)

def hierarchyDiagnostics (names : Identifier.Registry) (object : String) (t : Table)
    (listed : List String) : List Diagnostic :=
  (listed.filter fun name =>
      (names.lookup (Identifier.Key.hierarchy t.name name)).isNone).map fun name =>
    ⟨.warning, some object, "perspective hierarchy '" ++ name ++ "' was not converted"⟩

def includeDimension (name : String) (hierarchies : List String) :
    List PerspectiveDimension → List PerspectiveDimension
  | [] => [⟨name, hierarchies.foldl insertName []⟩]
  | d :: rest =>
    if d.name = name then
      { d with hierarchies := hierarchies.foldl insertName d.hierarchies } :: rest
    else d :: includeDimension name hierarchies rest

structure PerspectiveContent where
  metrics : List String := []
  dimensions : List PerspectiveDimension := []

def addPerspectiveTable (source : Source) (perspective : String) (content : PerspectiveContent)
    (entry : PerspectiveTable) : Run PerspectiveContent := do
  let object := perspective ++ "/" ++ entry.name
  match source.model.table? entry.name with
  | none =>
    warn object "perspective references an unknown table"
    return content
  | some t =>
    let s ← get
    log (measureDiagnostics s.measures.resolved object t entry.measures)
    let content := { content with
      metrics := listedMetrics s.measures.resolved t entry.measures content.metrics }
    if !s.tables.dimension.contains t.name ||
        (entry.columns.isEmpty && entry.hierarchies.isEmpty) then
      return content
    let dimension ← dimensionName t.name
    let names := (← get).names
    log (hierarchyDiagnostics names object t entry.hierarchies)
    return { content with
      dimensions := includeDimension dimension (listedHierarchies names t entry.hierarchies)
        content.dimensions }

def withNestedDimensions (graph : DimensionGraph) (maxDepth : Nat)
    (dimensions : List PerspectiveDimension) :
    Except ConversionError (List PerspectiveDimension) :=
  dimensions.foldlM (fun all d =>
    (reachableFrom graph maxDepth d.name).map fun reached =>
      reached.foldl (fun all name => includeDimension name [] all) all) dimensions

def resolvePerspective (source : Source) (p : Tabular.Perspective) : Run Unit := do
  let content ← p.tables.foldlM (addPerspectiveTable source p.name) {}
  let graph := DimensionGraph.ofDimensions (← get).output.dimensions
  let dimensions ←
    withNestedDimensions graph source.settings.relationships.maxDepth content.dimensions
  let name ← uniqueName {
    candidate := p.name, key := Identifier.Key.perspective p.name, kind := .perspective }
  store (·.addPerspective {
    uniqueName := name, label := p.name, metrics := content.metrics, dimensions })

def resolvePerspectives (source : Source) : Run Unit := do
  for p in source.model.perspectives do
    resolvePerspective source p

end SemanticLayer.Conversion
