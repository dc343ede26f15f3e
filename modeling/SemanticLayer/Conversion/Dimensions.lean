import SemanticLayer.Conversion.State

set_option autoImplicit false

/-!
The dimension of a table on the single side of a relationship.

A column has one level attribute, however many hierarchies use it as a level. Every column that a
relationship joins on is a level of every hierarchy, appended and hidden if need be. The columns
that are left hang as secondary attributes off one level of the first hierarchy.
-/
namespace SemanticLayer.Conversion

open Tabular (Table Column)

/-- Takes the identifiers of the dimensions before anything else asks for the names of tables. -/
def reserveDimensionNames : Run Unit := do
  for table in (← get).tables.dimension do
    let _ ← dimensionName table

def activeJoins (source : Source) (t : Table) : List Tabular.Relationship :=
  source.model.relationships.filter fun r => r.isActive && Text.equalFold r.toTable t.name

/-- The columns of a table that active relationships join on, each once. -/
def joinColumns (source : Source) (t : Table) : List Column :=
  ((activeJoins source t).filterMap fun r => t.column? r.toColumn).foldl (fun columns c =>
    if columns.any (·.name == c.name) then columns else columns ++ [c]) []

def joinDiagnostics (source : Source) (t : Table) : List Diagnostic :=
  (activeJoins source t).filterMap fun r =>
    if (t.column? r.toColumn).isNone then
      some ⟨.warning, some t.name,
        "relationship joins on unknown column '" ++ r.toColumn ++ "'"⟩
    else none

/-- The level attributes of one dimension in the order of their first use, by the lower-case names
of their columns. -/
abbrev LevelTable := List (String × LevelAttribute)

/-- The table and the dataset that a dimension describes. -/
structure DimensionSource where
  table : Table
  dataset : String

def sortColumn? (t : Table) (c : Column) : Option Column := c.sortByColumn.bind t.column?

def sortDiagnostics (t : Table) (c : Column) : List Diagnostic :=
  match c.sortByColumn with
  | none => []
  | some sortBy =>
    if (t.column? sortBy).isSome then []
    else [⟨.warning, some (columnObject t.name c.name),
      "sort-by column '" ++ sortBy ++ "' does not exist"⟩]

def levelAttribute (d : DimensionSource) (levels : LevelTable) (c : Column) (label : String)
    (hidden : Bool) : Run (String × LevelTable) := do
  let folded := Text.lower c.name
  if let some known := levels.lookup folded then return (known.uniqueName, levels)
  let name ← uniqueName {
    candidate := label
    key := Identifier.Key.level d.table.name c.name
    kind := .levelAttribute
    owner := d.table.name }
  log (sortDiagnostics d.table c)
  let made : LevelAttribute := {
    uniqueName := name
    label
    dataset := d.dataset
    keyColumns := [c.name]
    nameColumn := c.name
    sortColumn := (sortColumn? d.table c).map (·.name)
    isHidden := hidden || c.isHidden }
  return (name, levels ++ [(folded, made)])

def insertByRank {α : Type} (rank : α → Nat) (item : α) : List α → List α
  | [] => [item]
  | other :: rest =>
    if rank item < rank other then item :: other :: rest
    else other :: insertByRank rank item rest

/-- Items in the order of their ranks; items of equal rank keep theirs. -/
def sortByRank {α : Type} (rank : α → Nat) (items : List α) : List α :=
  items.foldl (fun sorted item => insertByRank rank item sorted) []

/-- The levels of a hierarchy so far, and the columns that they use in lower case. -/
structure HierarchyState where
  attributes : LevelTable
  used : List String := []
  levels : List Level := []

/-- Adds the level of a column that the hierarchy does not use yet. -/
def addLevel (d : DimensionSource) (h : HierarchyState) (c : Column) (label : String)
    (hidden : Bool) : Run HierarchyState := do
  let (name, attributes) ← levelAttribute d h.attributes c label hidden
  return {
    attributes
    used := h.used ++ [Text.lower c.name]
    levels := h.levels ++ [{ uniqueName := name, isHidden := hidden }] }

def listedLevels (d : DimensionSource) (hierarchy : Tabular.Hierarchy) (h : HierarchyState) :
    Run HierarchyState :=
  (sortByRank (·.ordinal) hierarchy.levels).foldlM (fun h level => do
    match d.table.column? level.column with
    | none =>
      warn (d.table.name ++ "/" ++ hierarchy.name)
        ("level '" ++ level.name ++ "' uses unknown column '" ++ level.column ++ "'")
      return h
    | some c =>
      if h.used.contains (Text.lower c.name) then return h
      addLevel d h c level.name false) h

/-- Hidden levels for the join columns that the hierarchy does not use yet. -/
def appendedLevels (d : DimensionSource) (hierarchy : Tabular.Hierarchy) (joins : List Column)
    (h : HierarchyState) : Run HierarchyState :=
  joins.foldlM (fun h c => do
    if h.used.contains (Text.lower c.name) then return h
    info (d.table.name ++ "/" ++ hierarchy.name)
      ("appended hidden level '" ++ c.name ++ "' so relationships can join")
    addLevel d h c c.name true) h

/-- A hierarchy of the model, unless none of its levels can be used. -/
def explicitHierarchy (d : DimensionSource) (joins : List Column) (attributes : LevelTable)
    (hierarchy : Tabular.Hierarchy) : Run (Option Hierarchy × LevelTable) := do
  let h ← listedLevels d hierarchy { attributes }
  let h ← appendedLevels d hierarchy joins h
  if h.levels.isEmpty then
    warn (d.table.name ++ "/" ++ hierarchy.name) "hierarchy has no usable levels; skipped"
    return (none, h.attributes)
  let name ← uniqueName {
    candidate := hierarchy.name
    key := Identifier.Key.hierarchy d.table.name hierarchy.name
    kind := .hierarchy
    owner := d.table.name }
  return (some {
    uniqueName := name
    label := hierarchy.name
    folder := hierarchy.displayFolder
    levels := h.levels }, h.attributes)

def isShown (c : Column) : Bool := !c.isHidden && c.kind != .rowNumber

theorem isShown_iff {c : Column} :
    isShown c = true ↔ c.isHidden = false ∧ c.kind ≠ .rowNumber := by
  simp [isShown]

/-- The columns of a hierarchy made for a table that has none: those joined on, else the key, else
the first column that is shown. -/
def defaultColumns (t : Table) (joins : List Column) : List Column :=
  if joins.isEmpty then (t.keyColumn?.or (t.columns.find? isShown)).toList else joins

def defaultHierarchy (d : DimensionSource) (joins : List Column) (attributes : LevelTable) :
    Run (Option Hierarchy × LevelTable) := do
  let columns := defaultColumns d.table joins
  if columns.isEmpty then
    warn d.table.name "dimension has no column to build a hierarchy from"
    return (none, attributes)
  let h ← columns.foldlM (fun h c => addLevel d h c c.name false) { attributes }
  let name ← uniqueName {
    candidate := d.table.name ++ "_hierarchy"
    key := Identifier.Key.hierarchy d.table.name d.table.name
    kind := .hierarchy
    owner := d.table.name }
  return (some { uniqueName := name, label := d.table.name, levels := h.levels }, h.attributes)

def hierarchies (d : DimensionSource) (joins : List Column) :
    Run (List Hierarchy × LevelTable) := do
  let (found, attributes) ← d.table.hierarchies.foldlM (fun (found, attributes) hierarchy => do
    let (resolved, attributes) ← explicitHierarchy d joins attributes hierarchy
    return (found ++ resolved.toList, attributes)) ([], [])
  if found.isEmpty then
    let (resolved, attributes) ← defaultHierarchy d joins attributes
    return (resolved.toList, attributes)
  return (found, attributes)

def secondaryColumns (t : Table) (attributes : LevelTable) : List Column :=
  t.columns.filter fun c => isShown c && (attributes.lookup (Text.lower c.name)).isNone

def secondaryAttribute (d : DimensionSource) (c : Column) : Run SecondaryAttribute := do
  let name ← uniqueName {
    candidate := c.name
    key := Identifier.Key.secondaryAttribute d.table.name c.name
    kind := .secondaryAttribute
    owner := d.table.name }
  return {
    uniqueName := name
    label := c.name
    dataset := d.dataset
    keyColumns := [c.name]
    nameColumn := c.name
    folder := c.displayFolder }

/-- The place in a hierarchy of the level that carries the secondary attributes: the level of the
key column if it is there, else the leaf. -/
def designatedPosition (t : Table) (attributes : LevelTable) (levels : List Level) : Nat :=
  let keyLevel := (t.keyColumn?.bind fun c => attributes.lookup (Text.lower c.name)).bind
    fun keyed => levels.findIdx? (·.uniqueName == keyed.uniqueName)
  keyLevel.getD (levels.length - 1)

def attachSecondaryAttributes (d : DimensionSource) (attributes : LevelTable) :
    List Hierarchy → Run (List Hierarchy)
  | [] => return []
  | first :: others => do
    let secondary ← (secondaryColumns d.table attributes).mapM (secondaryAttribute d)
    let levels := first.levels.modify (designatedPosition d.table attributes first.levels)
      fun level => { level with secondaryAttributes := level.secondaryAttributes ++ secondary }
    return { first with levels } :: others

def labelsWithoutUnit (settings : Settings) (attributes : List LevelAttribute) : List String :=
  (attributes.filter fun a => (settings.dimensions.inferTimeUnit a.label).isNone).map (·.label)

/-- The type of a dimension, and its level attributes with time units if it is a time dimension. A
time table becomes one only when every level has a unit. -/
def timeTyped (settings : Settings) (t : Table) (attributes : List LevelAttribute) :
    DimensionType × List LevelAttribute :=
  if t.isTime && (labelsWithoutUnit settings attributes).isEmpty then
    (.time, attributes.map fun a =>
      { a with timeUnit := settings.dimensions.inferTimeUnit a.label })
  else (.standard, attributes)

def timeDiagnostics (settings : Settings) (t : Table) (attributes : List LevelAttribute) :
    List Diagnostic :=
  let unknown := labelsWithoutUnit settings attributes
  if t.isTime && !unknown.isEmpty then
    [⟨.error, some t.name, "no time unit matches level(s) " ++ ", ".intercalate unknown ++
      "; emitted as a standard dimension"⟩]
  else []

def resolveDimension (source : Source) (t : Table) : Run Unit := do
  let name ← dimensionName t.name
  log (joinDiagnostics source t)
  let joins := joinColumns source t
  let dataset ← datasetName t.name
  let d : DimensionSource := ⟨t, dataset⟩
  let (found, levels) ← hierarchies d joins
  let found ← attachSecondaryAttributes d levels found
  let attributes := levels.map Prod.snd
  let (type, levelAttributes) := timeTyped source.settings t attributes
  log (timeDiagnostics source.settings t attributes)
  store (·.addDimension {
    uniqueName := name
    label := t.name
    type
    description := t.description
    hierarchies := found
    levelAttributes })

def resolveDimensions (source : Source) : Run Unit := do
  for t in source.model.tables do
    if (← get).tables.dimension.contains t.name then
      resolveDimension source t

end SemanticLayer.Conversion
