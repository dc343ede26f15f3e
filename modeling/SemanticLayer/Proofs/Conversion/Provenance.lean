import SemanticLayer.Conversion.CalculatedMeasures
import SemanticLayer.Conversion.ColumnMetrics
import SemanticLayer.Conversion.Dimensions
import SemanticLayer.Proofs.Conversion.Aggregations
import SemanticLayer.Proofs.Conversion.Output
import SemanticLayer.Proofs.Conversion.Run
import SemanticLayer.Proofs.Tabular.Naming

set_option autoImplicit false

/-!
Where the objects of a result come from: every one was made for a source object, under an
identifier that the registry still answers for that object.

`Grows` and `Extends` say how a conversion goes on, and `Sound` what is true of all that it has
made.
-/
namespace SemanticLayer

open Text (lower)

def Dimension.SameShape (d d' : Dimension) : Prop :=
  d'.uniqueName = d.uniqueName ∧ d'.label = d.label ∧ d'.hierarchies = d.hierarchies ∧
    d'.levelAttributes = d.levelAttributes

theorem Dimension.SameShape.refl (d : Dimension) : d.SameShape d := ⟨rfl, rfl, rfl, rfl⟩

theorem Dimension.SameShape.trans {d d' d'' : Dimension} (h : d.SameShape d')
    (h' : d'.SameShape d'') : d.SameShape d'' :=
  ⟨h'.1.trans h.1, h'.2.1.trans h.2.1, h'.2.2.1.trans h.2.2.1, h'.2.2.2.trans h.2.2.2⟩

def Metric.SameShape (m m' : Metric) : Prop :=
  ∃ unrelatedDimensions, m' = { m with unrelatedDimensions }

theorem Metric.SameShape.refl (m : Metric) : m.SameShape m := ⟨m.unrelatedDimensions, rfl⟩

theorem Metric.SameShape.trans {m m' m'' : Metric} (h : m.SameShape m') (h' : m'.SameShape m'') :
    m.SameShape m'' := by
  obtain ⟨_, rfl⟩ := h
  obtain ⟨last, rfl⟩ := h'
  exact ⟨last, rfl⟩

def Dimension.secondaryAttributes (d : Dimension) : List SecondaryAttribute :=
  d.hierarchies.flatMap fun h => h.levels.flatMap (·.secondaryAttributes)

namespace Conversion

open Identifier (Key.word Registry Request)
open Identifier

/-- How a conversion grows: nothing that was made or answered is lost. -/
structure Grows (s s' : State) : Prop where
  names : s.names.Reaches s'.names
  datasets : s.output.datasets ⊆ s'.output.datasets
  dimensions : ∀ d ∈ s.output.dimensions, ∃ d' ∈ s'.output.dimensions, d.SameShape d'
  metrics : ∀ m ∈ s.output.metrics, ∃ m' ∈ s'.output.metrics, m.SameShape m'
  measureNames : s.output.measureNames ⊆ s'.output.measureNames
  metricTables : s.measures.metricTables ⊆ s'.measures.metricTables
  helpers : s.measures.helpers ⊆ s'.measures.helpers
  aggregates : ∀ key name, s.measures.aggregates.lookup key = some name →
    s'.measures.aggregates.lookup key = some name
  resolved : ∀ key, s.measures.resolved.lookup key ≠ none →
    s'.measures.resolved.lookup key ≠ none

theorem Grows.refl (s : State) : Grows s s where
  names := .refl
  datasets := fun _ h => h
  dimensions d h := ⟨d, h, .refl d⟩
  metrics m h := ⟨m, h, .refl m⟩
  measureNames := fun _ h => h
  metricTables := fun _ h => h
  helpers := fun _ h => h
  aggregates _ _ h := h
  resolved _ h := h

theorem Grows.trans {s s' s'' : State} (h : Grows s s') (h' : Grows s' s'') : Grows s s'' where
  names := h.names.trans h'.names
  datasets := List.Subset.trans h.datasets h'.datasets
  dimensions d hd := by
    obtain ⟨d', hd', first⟩ := h.dimensions d hd
    obtain ⟨d'', hd'', second⟩ := h'.dimensions d' hd'
    exact ⟨d'', hd'', first.trans second⟩
  metrics m hm := by
    obtain ⟨m', hm', first⟩ := h.metrics m hm
    obtain ⟨m'', hm'', second⟩ := h'.metrics m' hm'
    exact ⟨m'', hm'', first.trans second⟩
  measureNames := List.Subset.trans h.measureNames h'.measureNames
  metricTables := List.Subset.trans h.metricTables h'.metricTables
  helpers := List.Subset.trans h.helpers h'.helpers
  aggregates key name known := h'.aggregates key name (h.aggregates key name known)
  resolved key known := h'.resolved key (h.resolved key known)

/-- The phases of a conversion: measures that are one aggregation, the other measures and the
datasets, and all that comes after the tables are classified anew. -/
inductive Phase where
  | aggregations
  | formulas
  | joins

def Phase.word : Phase → String
  | .aggregations => "measure"
  | .formulas | .joins => "aggregate"

def HasDataset (s : State) (table : String) : Prop :=
  ∃ name, s.names.lookup (Key.dataset table) = some name ∧
    name ∈ s.output.datasets.map (·.uniqueName)

theorem HasDataset.mono {s s' : State} {table : String} (h : HasDataset s table)
    (grows : Grows s s') : HasDataset s' table := by
  obtain ⟨name, key, made⟩ := h
  exact ⟨name, grows.names.lookup key, List.map_subset _ grows.datasets made⟩

/-- Growth in a phase. Calculated metrics belong to the second one, and their measures were not
resolved before. In the last one metrics are over datasets that are there already. -/
structure Extends (phase : Phase) (s s' : State) : Prop extends Grows s s' where
  tables : s'.tables = s.tables
  newMetrics : ∀ name ∈ s'.output.metrics.map (·.uniqueName),
    name ∈ s.output.metrics.map (·.uniqueName) ∨
      ∃ key, Key.word key = phase.word ∧ s'.names.lookup key = some name
  newCalcs : ∀ name ∈ s'.output.metricCalcs.map (·.uniqueName),
    name ∈ s.output.metricCalcs.map (·.uniqueName) ∨ phase = .formulas ∧
      ∃ key, Key.word key = "measure" ∧ s'.names.lookup key = some name ∧
        s.measures.resolved.lookup key = none
  newTables : phase = .joins → ∀ e ∈ s'.measures.metricTables,
    e ∈ s.measures.metricTables ∨ HasDataset s' e.2

theorem Extends.refl (phase : Phase) (s : State) : Extends phase s s where
  toGrows := .refl s
  tables := rfl
  newMetrics _ h := Or.inl h
  newCalcs _ h := Or.inl h
  newTables _ _ h := Or.inl h

theorem Extends.trans {phase : Phase} {s s' s'' : State} (h : Extends phase s s')
    (h' : Extends phase s' s'') : Extends phase s s'' where
  toGrows := h.toGrows.trans h'.toGrows
  tables := h'.tables.trans h.tables
  newMetrics name found := by
    rcases h'.newMetrics name found with old | new
    · rcases h.newMetrics name old with older | ⟨key, kind, known⟩
      · exact Or.inl older
      · exact Or.inr ⟨key, kind, h'.names.lookup known⟩
    · exact Or.inr new
  newCalcs name found := by
    rcases h'.newCalcs name found with old | ⟨late, key, kind, known, new⟩
    · rcases h.newCalcs name old with older | ⟨late, key, kind, known, new⟩
      · exact Or.inl older
      · exact Or.inr ⟨late, key, kind, h'.names.lookup known, new⟩
    · exact Or.inr ⟨late, key, kind, known, by_contra fun earlier => h.resolved key earlier new⟩
  newTables late e found := by
    rcases h'.newTables late e found with old | new
    · exact (h.newTables late e old).imp_right fun made => made.mono h'.toGrows
    · exact Or.inr new

/-- Nothing but the registry and the log has changed. -/
structure OnlyNames (s s' : State) : Prop where
  names : s.names.Reaches s'.names
  tables : s'.tables = s.tables
  output : s'.output = s.output
  measures : s'.measures = s.measures

theorem OnlyNames.refl (s : State) : OnlyNames s s := ⟨.refl, rfl, rfl, rfl⟩

theorem OnlyNames.trans {s s' s'' : State} (h : OnlyNames s s') (h' : OnlyNames s' s'') :
    OnlyNames s s'' :=
  ⟨h.names.trans h'.names, h'.tables.trans h.tables, h'.output.trans h.output,
    h'.measures.trans h.measures⟩

theorem OnlyNames.extends {s s' : State} (h : OnlyNames s s') (phase : Phase) :
    Extends phase s s' where
  names := h.names
  tables := h.tables
  datasets := h.output ▸ List.Subset.refl _
  dimensions d hd := ⟨d, h.output ▸ hd, .refl d⟩
  metrics m hm := ⟨m, h.output ▸ hm, .refl m⟩
  measureNames := h.output ▸ List.Subset.refl _
  metricTables := h.measures ▸ List.Subset.refl _
  helpers := h.measures ▸ List.Subset.refl _
  aggregates key name known := by rwa [h.measures]
  resolved key known := by rwa [h.measures]
  newMetrics name found := Or.inl (h.output ▸ found)
  newCalcs name found := Or.inl (h.output ▸ found)
  newTables _ e found := Or.inl (h.measures ▸ found)

section Provenance

variable (source : Source)

def DatasetOf (names : Registry) (d : Dataset) : Prop :=
  ∃ t ∈ source.model.tables, names.lookup (Key.dataset t.name) = some d.uniqueName ∧
    ∃ connectionId, d = tableDataset source.settings connectionId d.uniqueName t

/-- A metric over a column of a table that is known to back metrics. -/
def MetricOf (s : State) (m : Metric) : Prop :=
  ∃ t ∈ source.model.tables, s.names.lookup (Key.dataset t.name) = some m.dataset ∧
    (m.column ∈ t.columns.map (·.name) ∨ m.column = rowCountColumn source.settings t) ∧
      t.name ∈ s.measures.metricTables.map Prod.snd

/-- Identifier and label of an object that was made for a measure. -/
structure MeasureImage (names : Registry) (t : Tabular.Table) (m : Tabular.Measure)
    (uniqueName label : String) : Prop where
  table : t ∈ source.model.tables
  measure : m ∈ t.measures
  key : names.lookup (Key.measure t.name m.name) = some uniqueName
  label : label = m.name

/-- A hidden metric for an aggregation in a formula. -/
structure HelperOf (names : Registry) (helpers : List String) (e : Metric) : Prop where
  listed : e.uniqueName ∈ helpers
  hidden : e.isHidden = true
  key : ∃ key, Key.word key = "aggregate" ∧ names.lookup key = some e.uniqueName

/-- A metric that a shown column implies. -/
structure ImpliedBy (names : Registry) (t : Tabular.Table) (c : Tabular.Column) (e : Metric) :
    Prop where
  table : t ∈ source.model.tables
  column : c ∈ t.columns
  shown : isShown c = true
  key : ∃ f, impliedFunction? c = some f ∧ e.calculationMethod = f.calculationMethod ∧
    names.lookup (Key.aggregate f.keyword t.name c.name) = some e.uniqueName
  label : e.label = c.name
  target : e.column = c.name
  visible : e.isHidden = false

inductive MetricOrigin (names : Registry) (helpers : List String) (e : Metric) : Prop where
  | measure (t : Tabular.Table) (m : Tabular.Measure)
    (h : MeasureImage source names t m e.uniqueName e.label)
  | helper (h : HelperOf names helpers e)
  | column (t : Tabular.Table) (c : Tabular.Column) (h : ImpliedBy source names t c e)

/-- The metric that the memo knows for an aggregation, under the key of the aggregation. -/
structure AggregateOf (s : State) (a : Aggregation) (m : Metric) : Prop where
  mem : a.Of source.model
  computed : a.ComputedBy source s.names m
  key : s.names.lookup a.key = some m.uniqueName
  recalled : s.measures.aggregates.lookup a.key = some m.uniqueName

/-- An entry of the memo: an aggregation, and a metric that computes it. -/
def Recalled (s : State) (entry : String × String) : Prop :=
  ∃ a : Aggregation, a.Of source.model ∧ a.key = entry.1 ∧ ∃ m ∈ s.output.metrics,
    m.uniqueName = entry.2 ∧ a.ComputedBy source s.names m

structure LevelOf (names : Registry) (t : Tabular.Table) (a : LevelAttribute) : Prop where
  key : names.lookup (Key.level t.name a.nameColumn) = some a.uniqueName
  dataset : names.lookup (Key.dataset t.name) = some a.dataset
  column : a.nameColumn ∈ t.columns.map (·.name)
  keyColumns : a.keyColumns = [a.nameColumn]
  sortColumn : ∀ c ∈ a.sortColumn, c ∈ t.columns.map (·.name)

structure SecondaryOf (names : Registry) (t : Tabular.Table) (a : SecondaryAttribute) :
    Prop where
  key : names.lookup (Key.secondaryAttribute t.name a.nameColumn) = some a.uniqueName
  dataset : names.lookup (Key.dataset t.name) = some a.dataset
  column : a.nameColumn ∈ t.columns.map (·.name)
  keyColumns : a.keyColumns = [a.nameColumn]

structure HierarchyOf (names : Registry) (t : Tabular.Table) (levels : List LevelAttribute)
    (h : Hierarchy) : Prop where
  key : names.lookup (Key.hierarchy t.name h.label) = some h.uniqueName
  levels : ∀ l ∈ h.levels, l.uniqueName ∈ levels.map (·.uniqueName)

structure DimensionFor (s : State) (t : Tabular.Table) (d : Dimension) : Prop where
  mem : t ∈ source.model.tables
  label : d.label = t.name
  key : s.names.lookup (Key.dimension t.name) = some d.uniqueName
  dataset : HasDataset s t.name
  levels : ∀ a ∈ d.levelAttributes, LevelOf s.names t a
  levelsApart : (d.levelAttributes.map fun a => lower a.nameColumn).Nodup
  hierarchies : ∀ h ∈ d.hierarchies, HierarchyOf s.names t d.levelAttributes h
  hierarchiesApart : t.HierarchiesApart → (d.hierarchies.map fun h => lower h.label).Nodup
  secondary : ∀ a ∈ d.secondaryAttributes, SecondaryOf s.names t a
  secondaryApart : t.ColumnsApart →
    (d.secondaryAttributes.map fun a => lower a.nameColumn).Nodup

/-- The two sides of a join: a dataset in the result, with columns of its table, and a level of a
dimension in the result. -/
structure Joins (s : State) (join : JoinSource) (target : JoinTarget) : Prop where
  columns : ∃ t ∈ source.model.tables, s.names.lookup (Key.dataset t.name) = some join.dataset ∧
    ∀ c ∈ join.joinColumns, c ∈ t.columns.map (·.name)
  dataset : join.dataset ∈ s.output.datasets.map (·.uniqueName)
  target : ∃ d ∈ s.output.dimensions, d.uniqueName = target.dimension ∧
    target.level ∈ d.levelAttributes.map (·.uniqueName)

structure JoinOf (s : State) (r : Relationship) : Prop
    extends Joins source s r.source r.target where
  key : ∃ key, Key.word key = "relationship" ∧ s.names.lookup key = some r.uniqueName

/-- Levels and hierarchies are found in the dimension of their table. -/
structure Indexed (s : State) : Prop where
  levels : ∀ t ∈ source.model.tables, ∀ column name,
    s.names.lookup (Key.level t.name column) = some name →
      ∃ d ∈ s.output.dimensions, s.names.lookup (Key.dimension t.name) = some d.uniqueName ∧
        name ∈ d.levelAttributes.map (·.uniqueName)
  hierarchies : ∀ t ∈ source.model.tables, ∀ label name,
    s.names.lookup (Key.hierarchy t.name label) = some name →
      ∃ d ∈ s.output.dimensions, s.names.lookup (Key.dimension t.name) = some d.uniqueName ∧
        name ∈ d.hierarchies.map (·.uniqueName)

end Provenance

def Lists (dimensions : List Dimension) (p : PerspectiveDimension) : Prop :=
  ∃ d ∈ dimensions, d.uniqueName = p.name ∧
    ∀ h ∈ p.hierarchies, h ∈ d.hierarchies.map (·.uniqueName)

/-- A perspective on measures and dimensions in the result. -/
structure PerspectiveOf (s : State) (p : Perspective) : Prop where
  key : ∃ key, Key.word key = "perspective" ∧ s.names.lookup key = some p.uniqueName
  metrics : ∀ m ∈ p.metrics, m ∈ s.output.measureNames
  dimensions : ∀ d ∈ p.dimensions, Lists s.output.dimensions d

/-- What is true of a result and its registry throughout. -/
structure Sound (source : Source) (s : State) : Prop where
  registry : s.names.Apart
  indexed : Indexed source s
  connections : ∀ c ∈ s.output.connections,
    ∃ key, Key.word key = "connection" ∧ s.names.lookup key = some c.uniqueName
  datasets : ∀ d ∈ s.output.datasets, DatasetOf source s.names d
  metrics : ∀ m ∈ s.output.metrics, MetricOf source s m
  origins : ∀ m ∈ s.output.metrics, MetricOrigin source s.names s.measures.helpers m
  metricCalcs : ∀ e ∈ s.output.metricCalcs,
    ∃ t m, MeasureImage source s.names t m e.uniqueName e.label
  dimensions : ∀ d ∈ s.output.dimensions, ∃ t, DimensionFor source s t d
  joins : ∀ r ∈ s.output.allJoins, JoinOf source s r
  perspectives : ∀ p ∈ s.output.perspectives, PerspectiveOf s p
  aggregates : ∀ e ∈ s.measures.aggregates, Recalled source s e
  /-- A metric that belongs to no measure can be found by what it computes. -/
  shared : ∀ m ∈ s.output.metrics, (∃ t e, MeasureImage source s.names t e m.uniqueName m.label) ∨
    ∃ a, AggregateOf source s a m
  resolved : ∀ e ∈ s.measures.resolved,
    e.2 ∈ s.output.measureNames ∧ s.names.lookup e.1 = some e.2
  backing : ∀ e ∈ s.measures.metricTables, ∃ t ∈ source.model.tables, t.name = e.2
  distinct : s.output.Distinct

section Mono

variable {source : Source} {s s' : State}

theorem DatasetOf.mono {d : Dataset} (h : DatasetOf source s.names d) (grows : Grows s s') :
    DatasetOf source s'.names d := by
  obtain ⟨t, ht, key, shape⟩ := h
  exact ⟨t, ht, grows.names.lookup key, shape⟩

theorem MetricOf.mono {m : Metric} (h : MetricOf source s m) (grows : Grows s s') :
    MetricOf source s' m := by
  obtain ⟨t, ht, key, column, backing⟩ := h
  exact ⟨t, ht, grows.names.lookup key, column, List.map_subset _ grows.metricTables backing⟩

theorem MeasureImage.mono {names names' : Registry} {t : Tabular.Table} {m : Tabular.Measure}
    {uniqueName label : String} (h : MeasureImage source names t m uniqueName label)
    (reaches : names.Reaches names') : MeasureImage source names' t m uniqueName label :=
  { h with key := reaches.lookup h.key }

theorem MetricOrigin.mono {names names' : Registry} {helpers helpers' : List String} {e : Metric}
    (h : MetricOrigin source names helpers e) (reaches : names.Reaches names')
    (more : helpers ⊆ helpers') : MetricOrigin source names' helpers' e := by
  cases h with
  | measure t m h => exact .measure t m (h.mono reaches)
  | helper h =>
    obtain ⟨key, kind, known⟩ := h.key
    exact .helper { h with listed := more h.listed, key := ⟨key, kind, reaches.lookup known⟩ }
  | column t c h =>
    obtain ⟨f, implied, method, known⟩ := h.key
    exact .column t c { h with key := ⟨f, implied, method, reaches.lookup known⟩ }

theorem MetricOrigin.with_unrelatedDimensions {names : Registry} {helpers : List String}
    {e : Metric} (h : MetricOrigin source names helpers e)
    (unrelatedDimensions : Option UnrelatedDimensions) :
    MetricOrigin source names helpers { e with unrelatedDimensions } := by
  cases h with
  | measure t m h => exact .measure t m h
  | helper h => exact .helper { h with }
  | column t c h => exact .column t c { h with }

theorem Aggregation.ComputedBy.mono {names names' : Registry} {m m' : Metric} {a : Aggregation}
    (h : a.ComputedBy source names m) (reaches : names.Reaches names') (same : m.SameShape m') :
    a.ComputedBy source names' m' := by
  obtain ⟨_, rfl⟩ := same
  exact { h with dataset := reaches.lookup h.dataset }

theorem AggregateOf.mono {a : Aggregation} {m m' : Metric} (h : AggregateOf source s a m)
    (grows : Grows s s') (same : m.SameShape m') : AggregateOf source s' a m' where
  mem := h.mem
  computed := h.computed.mono grows.names same
  key := by
    obtain ⟨_, rfl⟩ := same
    exact grows.names.lookup h.key
  recalled := by
    obtain ⟨_, rfl⟩ := same
    exact grows.aggregates _ _ h.recalled

theorem Recalled.mono {entry : String × String} (h : Recalled source s entry)
    (grows : Grows s s') : Recalled source s' entry := by
  obtain ⟨a, mem, key, m, hm, name, computed⟩ := h
  obtain ⟨m', hm', same⟩ := grows.metrics m hm
  refine ⟨a, mem, key, m', hm', ?_, computed.mono grows.names same⟩
  obtain ⟨_, rfl⟩ := same
  exact name

theorem LevelOf.mono {names names' : Registry} {t : Tabular.Table} {a : LevelAttribute}
    (h : LevelOf names t a) (reaches : names.Reaches names') : LevelOf names' t a :=
  { h with key := reaches.lookup h.key, dataset := reaches.lookup h.dataset }

theorem SecondaryOf.mono {names names' : Registry} {t : Tabular.Table} {a : SecondaryAttribute}
    (h : SecondaryOf names t a) (reaches : names.Reaches names') : SecondaryOf names' t a :=
  { h with key := reaches.lookup h.key, dataset := reaches.lookup h.dataset }

theorem HierarchyOf.mono {names names' : Registry} {t : Tabular.Table}
    {levels : List LevelAttribute} {h : Hierarchy} (made : HierarchyOf names t levels h)
    (reaches : names.Reaches names') : HierarchyOf names' t levels h :=
  { made with key := reaches.lookup made.key }

theorem DimensionFor.mono {t : Tabular.Table} {d d' : Dimension}
    (h : DimensionFor source s t d) (grows : Grows s s') (same : d.SameShape d') :
    DimensionFor source s' t d' := by
  obtain ⟨name, label, hierarchies, levels⟩ := same
  have secondary : d'.secondaryAttributes = d.secondaryAttributes := by
    rw [Dimension.secondaryAttributes, hierarchies]
    rfl
  exact {
    mem := h.mem
    label := label.trans h.label
    key := name ▸ grows.names.lookup h.key
    dataset := h.dataset.mono grows
    levels := fun a ha => (h.levels a (levels ▸ ha)).mono grows.names
    levelsApart := levels ▸ h.levelsApart
    hierarchies := fun k hk => levels ▸ (h.hierarchies k (hierarchies ▸ hk)).mono grows.names
    hierarchiesApart := fun apart => hierarchies ▸ h.hierarchiesApart apart
    secondary := fun a ha => (h.secondary a (secondary ▸ ha)).mono grows.names
    secondaryApart := fun apart => secondary ▸ h.secondaryApart apart }

theorem Joins.mono {join : JoinSource} {target : JoinTarget} (h : Joins source s join target)
    (grows : Grows s s') : Joins source s' join target := by
  obtain ⟨t, ht, table, columns⟩ := h.columns
  obtain ⟨d, hd, name, level⟩ := h.target
  obtain ⟨d', hd', same⟩ := grows.dimensions d hd
  exact {
    columns := ⟨t, ht, grows.names.lookup table, columns⟩
    dataset := List.map_subset _ grows.datasets h.dataset
    target := ⟨d', hd', same.1.trans name, same.2.2.2 ▸ level⟩ }

theorem JoinOf.mono {r : Relationship} (h : JoinOf source s r) (grows : Grows s s') :
    JoinOf source s' r := by
  obtain ⟨key, kind, known⟩ := h.key
  exact ⟨h.toJoins.mono grows, key, kind, grows.names.lookup known⟩

theorem Lists.mono {p : PerspectiveDimension} (h : Lists s.output.dimensions p)
    (grows : Grows s s') : Lists s'.output.dimensions p := by
  obtain ⟨d, hd, name, hierarchies⟩ := h
  obtain ⟨d', hd', same⟩ := grows.dimensions d hd
  exact ⟨d', hd', same.1.trans name, fun k hk => same.2.2.1 ▸ hierarchies k hk⟩

theorem PerspectiveOf.mono {p : Perspective} (h : PerspectiveOf s p) (grows : Grows s s') :
    PerspectiveOf s' p := by
  obtain ⟨key, kind, known⟩ := h.key
  exact {
    key := ⟨key, kind, grows.names.lookup known⟩
    metrics := fun m hm => grows.measureNames (h.metrics m hm)
    dimensions := fun d hd => (h.dimensions d hd).mono grows }

end Mono

end Conversion

end SemanticLayer
