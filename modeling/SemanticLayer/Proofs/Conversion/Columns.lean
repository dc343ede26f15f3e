import SemanticLayer.Proofs.Conversion.Closed
import SemanticLayer.Proofs.Conversion.RowCount

set_option autoImplicit false

/-!
Columns in datasets. A dataset has the columns of its table that carry data and a column of ones,
but metrics, levels and joins are made over any column; a row number that one of them uses is
missing from the dataset, and nothing else is.
-/
namespace SemanticLayer.Conversion

open Identifier
open Tabular (Database Table)

/-- All columns that metrics, attributes and joins use, each with its dataset. -/
def columnReferences (c : Conversion) : List (String × String) :=
  (c.metrics.map fun m => (m.dataset, m.column)) ++
  (c.dimensions.flatMap fun d => d.levelAttributes.flatMap fun a =>
    (a.keyColumns ++ a.nameColumn :: a.sortColumn.toList).map fun column => (a.dataset, column)) ++
  (c.dimensions.flatMap fun d => d.secondaryAttributes.flatMap fun a =>
    (a.keyColumns ++ [a.nameColumn]).map fun column => (a.dataset, column)) ++
  c.joins.flatMap fun r => r.source.joinColumns.map fun column => (r.source.dataset, column)

def IsRowNumber (t : Table) (column : String) : Prop :=
  ∃ k ∈ t.columns, k.name = column ∧ k.kind = .rowNumber

theorem mem_datasetColumns {settings : Settings} {connection name column : String} {t : Table}
    (apart : t.ColumnsApart)
    (known : column ∈ t.columns.map (·.name) ∨ column = rowCountColumn settings t) :
    column ∈ (tableDataset settings connection name t).columns.map (·.name) ↔
      ¬IsRowNumber t column := by
  have names : (tableDataset settings connection name t).columns.map (·.name) =
      (dataColumns t).map (·.name) ++ [rowCountColumn settings t] := by
    simp [tableDataset, datasetColumn, onesColumn, Function.comp_def]
  rw [names, List.mem_append, List.mem_singleton]
  constructor
  · rintro (data | rfl) ⟨k, hk, same, isRow⟩
    · obtain ⟨c, hc, rfl⟩ := List.mem_map.1 data
      obtain rfl := apart.eq_of_lower hk (List.mem_of_mem_filter hc) (congrArg Text.lower same)
      have carries := (List.mem_filter.1 hc).2
      rw [isRow] at carries
      exact absurd carries (by decide)
    · exact rowCountColumn_notMem settings t (List.mem_map.2 ⟨k, hk, same⟩)
  · intro carries
    refine known.imp_left fun listed => ?_
    obtain ⟨c, hc, rfl⟩ := List.mem_map.1 listed
    refine List.mem_map_of_mem (List.mem_filter.2 ⟨hc, ?_⟩)
    exact bne_iff_ne.2 fun isRow => carries ⟨c, hc, rfl, isRow⟩

variable {source : Source} {s : State}

theorem Sound.dataset_columns (sound : Sound source s) (fresh : s.names.exhausted = [])
    (apart : source.model.TablesApart) {t : Table} (ht : t ∈ source.model.tables)
    (columns : t.ColumnsApart) (placed : HasDataset s t.name) {dataset column : String}
    (key : s.names.lookup (Key.dataset t.name) = some dataset)
    (known : TargetColumn source t column) :
    ∃ d ∈ s.output.datasets, d.uniqueName = dataset ∧ d.label = t.name ∧
      (column ∈ d.columns.map (·.name) ↔ ¬IsRowNumber t column) := by
  obtain ⟨d, hd, name⟩ := List.mem_map.1 (placed.mem key)
  obtain ⟨t', ht', key', connection, shape⟩ := sound.datasets d hd
  have table := Registry.key_eq_of_lookup sound.registry fresh key key'
    (congrArg Text.lower name.symm)
  obtain rfl := apart.eq_of_lower ht ht' (Key.dataset_inj table)
  refine ⟨d, hd, name, by rw [shape]; rfl, ?_⟩
  rw [shape]
  exact mem_datasetColumns columns known

theorem Outcome.columnReferences {settings : Settings} {database : Database} {catalog : Catalog}
    {m : Model} (outcome : Outcome source settings database catalog m s)
    (fresh : s.names.exhausted = []) (apart : source.model.TablesApart) {dataset column : String}
    (h : (dataset, column) ∈ (ofOutput catalog m s).columnReferences) :
    ∃ t ∈ source.model.tables, HasDataset s t.name ∧
      s.names.lookup (Key.dataset t.name) = some dataset ∧ TargetColumn source t column := by
  have sound := outcome.sound fresh
  simp only [Conversion.columnReferences, List.mem_append, List.mem_map, List.mem_flatMap] at h
  rcases h with ((⟨e, he, same⟩ | ⟨d, hd, a, ha, name, hn, same⟩) |
    ⟨d, hd, a, ha, name, hn, same⟩) | ⟨r, hr, name, hn, same⟩
  · cases same
    obtain ⟨t, ht, key, column, backing⟩ := sound.metrics e he
    exact ⟨t, ht, outcome.backed t.name backing t (apart.table?_self ht), key, column⟩
  · cases same
    obtain ⟨t, made⟩ := sound.dimensions d hd
    have level := made.levels a ha
    refine ⟨t, made.mem, made.dataset, level.dataset, Or.inl ?_⟩
    rw [level.keyColumns, List.mem_singleton, List.mem_cons, Option.mem_toList] at hn
    rcases hn with rfl | rfl | sorted
    · exact level.column
    · exact level.column
    · exact level.sortColumn _ sorted
  · cases same
    obtain ⟨t, made⟩ := sound.dimensions d hd
    have secondary := made.secondary a ha
    refine ⟨t, made.mem, made.dataset, secondary.dataset, Or.inl ?_⟩
    rw [secondary.keyColumns, List.mem_singleton, or_self] at hn
    exact hn ▸ secondary.column
  · cases same
    have join := sound.joins r (outcome.model.joins_ofOutput catalog ▸ hr)
    obtain ⟨t, ht, key, columns⟩ := join.columns
    exact ⟨t, ht, ⟨_, key, join.dataset⟩, key, Or.inl (columns column hn)⟩

/-- Every column that metrics, attributes and joins use is in its dataset, row numbers of its table
aside, and these are never there. -/
theorem convertWith_columns [Sql.Parser] {settings : Settings} {database : Database}
    {connection : String} {c : Conversion} (apart : database.model.TablesApart)
    (columns : ∀ t ∈ database.model.tables, t.ColumnsApart)
    (fresh : settings.NeverExhausted database connection)
    (h : convertWith settings database connection = .ok c) :
    ∀ reference ∈ c.columnReferences, ∃ d ∈ c.datasets, d.uniqueName = reference.1 ∧
      ∃ t ∈ database.model.tables, d.label = t.name ∧
        (reference.2 ∈ d.columns.map (·.name) ↔ ¬IsRowNumber t reference.2) := by
  obtain ⟨catalog, m, s, ran, rfl⟩ := convertWith_ok h
  have free := fresh _ s ran
  have outcome := run_ok ⟨database.model, settings⟩ apart ran
  rintro ⟨dataset, column⟩ used
  obtain ⟨t, ht, placed, key, known⟩ := outcome.columnReferences free apart used
  obtain ⟨d, hd, name, label, inside⟩ :=
    (outcome.sound free).dataset_columns free apart ht (columns t ht) placed key known
  exact ⟨d, hd, name, t, ht, label, inside⟩

attribute [local instance] Sql.Parser.lenient

/-- A metric over row numbers reads a column that no dataset has. -/
theorem convertWith_columns_rowNumber : ∃ c, convertWith {} shop "warehouse" = .ok c ∧
    (∀ reference ∈ c.columnReferences, ∃ d ∈ c.datasets, d.uniqueName = reference.1 ∧
      ∃ t ∈ shop.model.tables, d.label = t.name ∧
        (reference.2 ∈ d.columns.map (·.name) ↔ ¬IsRowNumber t reference.2)) ∧
    ("Sales", "RowNumber") ∈ c.columnReferences ∧
    ∀ d ∈ c.datasets, "RowNumber" ∉ d.columns.map (·.name) := by
  obtain ⟨catalog, m, s, ran, -, ⟨e, he, dataset, column⟩, missing⟩ := run_shop
  have h := convertWith_of_run (by decide) ran
  have used : ("Sales", "RowNumber") ∈ (ofOutput catalog m s).columnReferences := by
    simp only [columnReferences, List.mem_append, List.mem_map]
    exact .inl (.inl (.inl ⟨e, he, Prod.ext dataset column⟩))
  exact ⟨_, h, convertWith_columns shop_tablesApart (by decide +kernel) shop_neverExhausted h,
    used, missing⟩

end SemanticLayer.Conversion
