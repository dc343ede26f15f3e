import SemanticLayer.Proofs.Conversion.OwnJoins

set_option autoImplicit false

/-!
Metrics that repeat across dimensions that they cannot reach. Metrics are made without, and at the
end those of the tables that only describe others are changed. They are found by the datasets that
they read; identifiers tell the datasets of tables apart, so no metric of another table is among
them. A table that has such metrics is a fact and a dimension, so it has been joined to itself.
-/
namespace SemanticLayer

open Tabular (Column Database Table)

/-- Active relationships of a model lead to a table, and none leads from it. -/
structure Tabular.Model.OnlyDescribes (m : Tabular.Model) (t : Table) : Prop where
  target : ∃ r ∈ m.relationships, r.isActive = true ∧ ∃ first, m.Leads r first t
  sourceless : ∀ r ∈ m.relationships, r.isActive = true → ∀ second, ¬m.Leads r t second

theorem TableLists.onlyDescribes_iff {model : Tabular.Model} (distinct : model.TablesDistinct)
    {t : Table} (ht : t ∈ model.tables) (backing : List String) :
    t.name ∉ (classify model backing).left ∧ t.name ∈ (classify model backing).right ↔
      model.OnlyDescribes t := by
  have only {t' : Table} (ht' : t' ∈ model.tables) (same : t'.name = t.name) : t' = t :=
    List.inj_on_of_nodup_map distinct.names_nodup ht' ht same
  rw [(after_classify model backing).left, (after_classify model backing).right, mem_left_iff,
    mem_right_iff]
  constructor
  · rintro ⟨left, r, hr, active, first, second, leads, same⟩
    obtain rfl := only (Tabular.Model.mem_of_table? leads.toTable) same
    exact ⟨⟨r, hr, active, first, leads⟩, fun r' hr' active' second' leads' =>
      left ⟨r', hr', active', second, second', leads', rfl⟩⟩
  · rintro ⟨⟨r, hr, active, first, leads⟩, sourceless⟩
    refine ⟨?_, r, hr, active, first, t, leads, rfl⟩
    rintro ⟨r', hr', active', first', second', leads', same⟩
    obtain rfl := only (Tabular.Model.mem_of_table? leads'.fromTable) same
    exact sourceless r' hr' active' second' leads'

namespace Conversion

open Identifier

variable {source : Source} {s s' : State} {u : Unit}

/-- Nothing of a result changes but what its metrics show across unrelated dimensions, and that
there may be more joins of the model. -/
structure OnlyRepeats (s s' : State) : Prop where
  metrics : List.Forall₂ Metric.SameShape s.output.metrics s'.output.metrics
  relationships : s.output.relationships <+: s'.output.relationships
  others : { s'.output with
    metricMap := s.output.metricMap
    relationshipMap := s.output.relationshipMap } = s.output

theorem OnlyRepeats.of_eq (same : s'.output = s.output) : OnlyRepeats s s' where
  metrics := by
    rw [same]
    exact List.forall₂_same.2 fun m _ => .refl m
  relationships := same ▸ List.prefix_rfl
  others := by rw [same]

instance : Frame OnlyRepeats where
  trans _ _ _ h h' := {
    metrics := forall₂_trans h.metrics (fun _ _ _ => Metric.SameShape.trans) h'.metrics
    relationships := h.relationships.trans h'.relationships
    others := by
      rw [← h.others, ← h'.others] }
  same _ _ _ output _ := .of_eq output
  name _ _ := .of_eq rfl

theorem OnlyRepeats.backfillRelationships (source : Source) :
    Keeps OnlyRepeats (backfillRelationships source) := by
  have joined (r : Relationship) : Admits OnlyRepeats (·.addJoin r) := fun s o added => by
    obtain ⟨rfl, -⟩ := Output.addJoin_ok added
    exact ⟨List.forall₂_same.2 fun m _ => .refl m, List.prefix_append _ _, rfl⟩
  refine .backfillRelationships source (.addSelfJoin source joined) fun s dataset => ?_
  refine ⟨?_, List.prefix_rfl, rfl⟩
  exact List.forall₂_map_right_iff.2
    (List.forall₂_same.2 fun m _ => repeatMetric_sameShape dataset m)

def readsAmong (names : Registry) (tables : List String) (m : Metric) : Bool :=
  tables.any fun table => names.lookup (Key.dataset table) == some m.dataset

/-- The metrics of some tables repeat, and no others show anything across unrelated dimensions. -/
structure Repeats (tables : List String) (s : State) : Prop where
  /-- No dataset that is answered later is one of theirs. -/
  known : ∀ table ∈ tables, s.names.lookup (Key.dataset table) ≠ none
  metrics : ∀ m ∈ s.output.metrics, m.unrelatedDimensions =
    if readsAmong s.names tables m then some .repeated else none

theorem readsAmong_of_lookup {names names' : Registry} {tables : List String}
    (known : ∀ table ∈ tables, names.lookup (Key.dataset table) ≠ none)
    (later : ∀ key name, names.lookup key = some name → names'.lookup key = some name) :
    readsAmong names' tables = readsAmong names tables := by
  have same (table : String) (h : table ∈ tables) :
      names'.lookup (Key.dataset table) = names.lookup (Key.dataset table) := by
    obtain ⟨name, answered⟩ := Option.ne_none_iff_exists'.1 (known table h)
    rw [answered, later _ _ answered]
  funext m
  rw [Bool.eq_iff_iff, readsAmong, readsAmong, List.any_eq_true, List.any_eq_true]
  exact exists_congr fun table => and_congr_right fun h => by rw [same table h]

theorem Repeats.mono {tables : List String} (h : Repeats tables s)
    (later : ∀ key name, s.names.lookup key = some name → s'.names.lookup key = some name)
    (same : s'.output.metrics = s.output.metrics) : Repeats tables s' where
  known table listed := by
    obtain ⟨name, answered⟩ := Option.ne_none_iff_exists'.1 (h.known table listed)
    exact later _ _ answered ▸ Option.some_ne_none name
  metrics := by
    rw [readsAmong_of_lookup h.known later]
    exact same ▸ h.metrics

/-- Tables go on to be those whose metrics repeat. -/
def KeepsRepeats (tables : List String) (s s' : State) : Prop :=
  Repeats tables s → Repeats tables s'

instance (tables : List String) : Frame (KeepsRepeats tables) where
  trans _ _ _ h h' := h' ∘ h
  same _ _ names output _ h := h.mono (fun _ _ => names ▸ id) (congrArg Output.metrics output)
  name _ _ h := h.mono (fun _ _ => Registry.lookup_allocate_of_lookup) rfl

namespace KeepsRepeats

variable {tables : List String}

theorem admits {change : Output → Except ConversionError Output}
    (h : Admits (Spares (·.metrics)) change) : Admits (KeepsRepeats tables) change :=
  fun s o made before => before.mono (fun _ _ => id) (h s o made)

theorem addMetric (m : Metric) (plain : m.unrelatedDimensions = none) :
    Admits (KeepsRepeats []) (·.addMetric m) := fun s o added before => by
  obtain ⟨rfl, -⟩ := Output.addMetric_ok added
  exact ⟨before.known,
    List.forall_mem_append.2 ⟨before.metrics, List.forall_mem_singleton.2 plain⟩⟩

theorem prepare (source : Source) (database : Database) (label : String) :
    Keeps (KeepsRepeats []) (Conversion.prepare source database label) :=
  .prepare (fun _ => admits (.addConnection rfl)) addMetric (fun _ => admits (.addMetricCalc rfl))
    source (fun _ _ _ _ => admits (.addDataset rfl)) database label

theorem resolveDimensions (source : Source) :
    Keeps (KeepsRepeats tables) (Conversion.resolveDimensions source) :=
  .resolveDimensions source fun d plain => admits (.addDimension rfl d plain)

theorem addSelfJoin (source : Source) (table : String) :
    Keeps (KeepsRepeats tables) (Conversion.addSelfJoin source table) :=
  .addSelfJoin source (fun _ => admits (.addJoin rfl)) table

theorem resolveRelationships (source : Source) :
    Keeps (KeepsRepeats tables) (Conversion.resolveRelationships source) :=
  .resolveRelationships source (addSelfJoin source) (.resolveRelationship source
    (fun _ => admits (.addJoin rfl)) fun owner r => admits (.addNestedJoin rfl owner r))

theorem resolvePerspectives (source : Source) :
    Keeps (KeepsRepeats tables) (Conversion.resolvePerspectives source) :=
  .resolvePerspectives source fun _ => admits (.addPerspective rfl)

end KeepsRepeats

theorem Repeats.repeatMetrics {tables : List String} (h : Repeats tables s)
    {table dataset : String} (answered : s.names.lookup (Key.dataset table) = some dataset) :
    Repeats (tables ++ [table]) { s with output := repeatMetrics dataset s.output } where
  known := List.forall_mem_append.2 ⟨h.known, List.forall_mem_singleton.2
    (answered ▸ Option.some_ne_none dataset)⟩
  metrics m' hm' := by
    obtain ⟨m, hm, rfl⟩ := List.mem_map.1 hm'
    have before := h.metrics m hm
    have new (m : Metric) : readsAmong s.names (tables ++ [table]) m =
        (readsAmong s.names tables m || m.dataset == dataset) := by
      rw [readsAmong, List.any_append, List.any_cons, List.any_nil, Bool.or_false, answered]
      rw [Option.some_beq_some, BEq.comm]
      rfl
    rw [new, repeatMetric]
    split
    · rename_i reads
      rw [reads, Bool.or_true, if_pos rfl]
    · rename_i others
      rw [Bool.eq_false_iff.2 others, Bool.or_false]
      exact before

theorem backfillTable_repeats {tables : List String} {table : String} (before : Repeats tables s)
    (h : (backfillTable source table).run s = .ok (u, s')) : Repeats (tables ++ [table]) s' := by
  obtain ⟨dataset, dimension, s₁, s₂, s₃, _, s₄, entries, placed, named, joined, changed, noted⟩ :=
    backfillTable_ok h
  have placing : KeepsRepeats tables s s₁ := Keeps.datasetName _ _ _ _ placed
  have naming : KeepsRepeats tables s₁ s₂ := Keeps.dimensionName _ _ _ _ named
  have reaching : KeepsNames s₁ s₂ := Keeps.dimensionName _ _ _ _ named
  obtain ⟨joining, reaching'⟩ : KeepsRepeats tables s₂ s₃ ∧ KeepsNames s₂ s₃ := by
    rcases joined with rfl | added
    · exact ⟨Std.Refl.refl s₂, Std.Refl.refl s₂⟩
    · exact ⟨KeepsRepeats.addSelfJoin source table _ _ _ added,
        Keeps.addSelfJoin source (fun _ _ _ _ => .of_output rfl) table _ _ _ added⟩
  have answered : s₃.names.lookup (Key.dataset table) = some dataset :=
    reaching'.lookup _ _ (reaching.lookup _ _ (datasetName_answered placed).known)
  obtain rfl := modify_ok changed
  have noting : KeepsRepeats (tables ++ [table]) _ s' := Keeps.log _ _ _ _ noted
  exact noting ((joining (naming (placing before))).repeatMetrics answered)

theorem backfillRelationships_repeats (before : Repeats [] s)
    (h : (backfillRelationships source).run s = .ok (u, s')) :
    Repeats (dimensionOnlyTables s) s' := by
  obtain ⟨_, _, got, h⟩ := bind_ok h
  obtain ⟨rfl, rfl⟩ := get_ok got
  obtain ⟨_, s₁, loop, h⟩ := bind_ok h
  obtain ⟨-, rfl⟩ := pure_ok h
  refine forIn_steps (P := Repeats) before (fun table _ done s₂ s₃ r turn before => ?_) loop
  obtain ⟨_, s₄, filled, turn⟩ := bind_ok turn
  obtain ⟨rfl, rfl⟩ := pure_ok turn
  exact ⟨rfl, backfillTable_repeats before filled⟩

/-- The tables that back metrics are facts. -/
def BacksFacts (s : State) : Prop := ∀ e ∈ s.measures.metricTables, e.2 ∈ s.tables.fact

theorem BacksFacts.steady (h : BacksFacts s) (same : Steady s s') : BacksFacts s' := by
  rw [BacksFacts, same.measures, same.tables]
  exact h

theorem Reclassified.backsFacts {settings : Settings} {database : Database} {catalog : Catalog}
    (h : Reclassified source settings database catalog s) (fresh : s.names.exhausted = []) :
    BacksFacts s := by
  intro e he
  obtain ⟨t, ht, same⟩ := (h.sound fresh).backing e he
  have backs : t.name ∈ s.metricTables := mem_metricTables.2 (same ▸ List.mem_map_of_mem he)
  rw [h.classified, ← same]
  exact ((TableLists.after_classify _ _).fact _).2
    ⟨t, ht, rfl, TableLists.isFact_of_backing (Or.inl backs)⟩

structure AddsMetricsOf (table : String) (s s' : State) : Prop where
  tables : s'.tables = s.tables
  metricTables : ∀ e ∈ s'.measures.metricTables, e ∈ s.measures.metricTables ∨ e.2 = table

instance (table : String) : StepFrame (AddsMetricsOf table) where
  trans _ _ _ h h' :=
    ⟨h'.tables.trans h.tables, fun e he => (h'.metricTables e he).elim (h.metricTables e) Or.inr⟩
  logged _ _ _ tables _ measures _ := ⟨tables, fun _ he => Or.inl (measures ▸ he)⟩
  name _ _ := ⟨rfl, fun _ => Or.inl⟩

theorem AddsMetricsOf.registerMetric (m : Metric) (table key : String) :
    Keeps (AddsMetricsOf table) (registerMetric m table key) := fun s _ s' h => by
  obtain ⟨-, rfl⟩ := registerMetric_ok h
  refine ⟨rfl, fun e he => ?_⟩
  exact (List.mem_append.1 he).imp_right fun new => by rw [List.mem_singleton.1 new]

theorem AddsMetricsOf.columnMetric (source : Source) (t : Table) (c : Column)
    (f : Formula.AggregateFunction) : Keeps (AddsMetricsOf t.name) (columnMetric source t c f) :=
  .columnMetric source (fun m _ => registerMetric m t.name) c f

theorem resolveColumnMeasures_backsFacts (before : BacksFacts s)
    (h : (resolveColumnMeasures source).run s = .ok (u, s')) : BacksFacts s' := by
  unfold resolveColumnMeasures at h
  split at h
  · obtain ⟨-, rfl⟩ := pure_ok h
    exact before
  obtain ⟨_, s₁, loop, h⟩ := bind_ok h
  obtain ⟨-, rfl⟩ := pure_ok h
  refine forIn_ok (P := BacksFacts) before (fun t _ s₂ s₃ r turn before => ?_) loop
  obtain ⟨_, _, got, turn⟩ := bind_ok turn
  obtain ⟨rfl, rfl⟩ := get_ok got
  split at turn
  swap
  · obtain ⟨-, rfl⟩ := pure_ok turn
    exact before
  rename_i fact
  obtain ⟨_, _, got, turn⟩ := bind_ok turn
  obtain ⟨rfl, rfl⟩ := get_ok got
  obtain ⟨_, s₄, inner, turn⟩ := bind_ok turn
  obtain ⟨-, rfl⟩ := pure_ok turn
  have adds : AddsMetricsOf t.name s₂ s₄ := by
    refine Keeps.forIn (fun c _ => .bind (.log _) fun _ => ?_) _ _ _ inner
    split
    · exact .bind (AddsMetricsOf.columnMetric source t c _) fun _ => .pure _
    · exact .pure _
  intro e he
  rw [adds.tables]
  rcases adds.metricTables e he with old | same
  · exact before e old
  · exact same ▸ List.contains_iff_mem.1 fact

theorem Steady.admits (change : Output → Except ConversionError Output) : Admits Steady change :=
  fun _ _ _ => ⟨rfl, rfl⟩

/-- What is known of the metrics at the end of a run. -/
structure Backfilled (source : Source) (s : State) : Prop where
  classified : ∃ backing, s.tables = classify source.model backing
  facts : s.names.exhausted = [] → BacksFacts s
  repeats : Repeats (dimensionOnlyTables s) s

theorem run_backfilled {settings : Settings} {database : Database} {catalog : Catalog} {m : Model}
    {connection : String} (apart : source.model.TablesApart)
    (h : (run source database connection).run (.initial settings) = .ok ((catalog, m), s)) :
    Backfilled source s := by
  obtain ⟨made, s₀, s₁, prepared, -, before, only, finishing⟩ := reclassified_ok apart.distinct h
  obtain ⟨-, late, -⟩ := finish_ok apart before finishing
  obtain ⟨_, s₂, described, finishing⟩ := bind_ok finishing
  obtain ⟨_, s₃, related, finishing⟩ := bind_ok finishing
  obtain ⟨_, s₄, summed, finishing⟩ := bind_ok finishing
  obtain ⟨_, s₅, filled, finishing⟩ := bind_ok finishing
  obtain ⟨_, s₆, viewed, finishing⟩ := bind_ok finishing
  obtain ⟨_, s₇, assembled, finishing⟩ := bind_ok finishing
  obtain ⟨-, rfl⟩ := pure_ok finishing
  have own (table : String) : Keeps Steady (addSelfJoin source table) :=
    .addSelfJoin source (fun _ => .admits _) table
  have first : Steady s₁ s₂ := Keeps.resolveDimensions source (fun _ _ => .admits _) _ _ _ described
  have second : Steady s₂ s₃ := Keeps.resolveRelationships source own
    (.resolveRelationship source (fun _ => .admits _) fun _ _ => .admits _) _ _ _ related
  have third : Steady s₄ s₅ :=
    Keeps.backfillRelationships source own (fun _ _ => ⟨rfl, rfl⟩) _ _ _ filled
  have fourth : Steady s₅ s₆ := Keeps.resolvePerspectives source (fun _ => .admits _) _ _ _ viewed
  have fifth : Steady s₆ s₇ := Keeps.assembleModel source _ _ _ _ assembled
  have rest : Steady s₄ s₇ := Trans.trans third (Trans.trans fourth fifth)
  have undecided : Repeats [] s₄ := by
    have start : Repeats [] (.initial settings) := ⟨fun _ h => (nomatch h), fun _ h => nomatch h⟩
    have preparing : KeepsRepeats [] (.initial settings) s₀ :=
      KeepsRepeats.prepare source database connection _ _ _ prepared
    have describing : KeepsRepeats [] s₁ s₂ :=
      KeepsRepeats.resolveDimensions source _ _ _ described
    have relating : KeepsRepeats [] s₂ s₃ :=
      KeepsRepeats.resolveRelationships source _ _ _ related
    have summing : KeepsRepeats [] s₃ s₄ :=
      Keeps.resolveColumnMeasures source KeepsRepeats.addMetric _ _ _ summed
    have again : Repeats [] s₁ := (preparing start).mono (fun _ _ => only.names.lookup)
      (congrArg Output.metrics only.output)
    exact summing (relating (describing again))
  refine {
    classified := ⟨s₁.metricTables, late.extension.tables.trans before.classified⟩
    facts := fun free => ?_
    repeats := ?_ }
  · have facts := before.backsFacts (late.extension.names.exhausted free)
    exact (resolveColumnMeasures_backsFacts ((facts.steady first).steady second) summed).steady rest
  · have tables : dimensionOnlyTables s₇ = dimensionOnlyTables s₄ := by
      rw [dimensionOnlyTables, dimensionOnlyTables, State.metricTables, State.metricTables,
        rest.tables, rest.measures]
    have viewing : KeepsRepeats (dimensionOnlyTables s₄) s₅ s₆ :=
      KeepsRepeats.resolvePerspectives source _ _ _ viewed
    have assembling : KeepsRepeats (dimensionOnlyTables s₄) s₆ s₇ :=
      Keeps.assembleModel source _ _ _ _ assembled
    rw [tables]
    exact assembling (viewing (backfillRelationships_repeats undecided filled))

def ReadsFrom (c : Conversion) (m : Metric) (t : Table) : Prop :=
  ∃ d ∈ c.datasets, d.label = t.name ∧ d.uniqueName = m.dataset

/-- The metrics of tables that only describe others repeat, and no others are special. -/
structure RepeatsDescribing (model : Tabular.Model) (c : Conversion) : Prop where
  source : ∀ m ∈ c.metrics, ∃ t ∈ model.tables, ReadsFrom c m t
  repeats : ∀ m ∈ c.metrics, ∀ t ∈ model.tables, ReadsFrom c m t →
    (m.unrelatedDimensions = some .repeated ↔ model.OnlyDescribes t) ∧
      (m.unrelatedDimensions = none ↔ ¬model.OnlyDescribes t)
  /-- A metric that repeats can be sliced by the dimension of its own table. -/
  joined : ∀ m ∈ c.metrics, m.unrelatedDimensions = some .repeated →
    ∀ t ∈ model.tables, ReadsFrom c m t → ∀ d ∈ c.dimensions, d.label = t.name →
      d.hierarchies ≠ [] → ∃ made ∈ c.models, ∃ r ∈ made.relationships,
        r.source.dataset = m.dataset ∧ r.target.dimension = d.uniqueName

section Metrics

variable {m : Metric} {t : Table} (sound : Sound source s) (free : s.names.exhausted = [])
  (apart : source.model.TablesApart) (hm : m ∈ s.output.metrics) (ht : t ∈ source.model.tables)
  (reads : s.names.lookup (Key.dataset t.name) = some m.dataset)
include sound free apart hm ht reads

theorem mem_metricTables_of_reads : t.name ∈ s.metricTables := by
  obtain ⟨t', ht', reads', -, backs⟩ := sound.metrics m hm
  have same : t.name = t'.name := (Registry.name_eq_iff Key.dataset_inj sound.registry free apart
    ht' ht reads' reads).1 rfl
  exact mem_metricTables.2 (same ▸ backs)

theorem readsAmong_iff (backfilled : Backfilled source s) :
    readsAmong s.names (dimensionOnlyTables s) m = true ↔ source.model.OnlyDescribes t := by
  obtain ⟨backing, classified⟩ := backfilled.classified
  have backs := mem_metricTables_of_reads sound free apart hm ht reads
  calc readsAmong s.names (dimensionOnlyTables s) m = true
      ↔ t.name ∈ dimensionOnlyTables s := by
        rw [readsAmong, List.any_eq_true]
        constructor
        · rintro ⟨table, listed, same⟩
          obtain ⟨e, he, rfl⟩ :=
            List.mem_map.1 (mem_metricTables.1 (List.mem_of_mem_filter listed))
          obtain ⟨t', ht', table⟩ := sound.backing e he
          rw [← table] at listed same
          rwa [← (Registry.name_eq_iff Key.dataset_inj sound.registry free apart ht ht' reads
            (beq_iff_eq.1 same)).1 rfl]
        · exact fun listed => ⟨t.name, listed, beq_iff_eq.2 reads⟩
    _ ↔ t.name ∉ s.tables.left ∧ t.name ∈ s.tables.right := by
        simp [dimensionOnlyTables, backs]
    _ ↔ source.model.OnlyDescribes t := by
        rw [classified]
        exact TableLists.onlyDescribes_iff apart.distinct ht backing

theorem unrelatedDimensions_iff (backfilled : Backfilled source s) :
    (m.unrelatedDimensions = some .repeated ↔ source.model.OnlyDescribes t) ∧
      (m.unrelatedDimensions = none ↔ ¬source.model.OnlyDescribes t) := by
  rw [backfilled.repeats.metrics m hm, ← readsAmong_iff sound free apart hm ht reads backfilled]
  split
  · rename_i among
    simp [among]
  · rename_i others
    simp [others]

theorem hasOwnJoin_of_onlyDescribes {joins own : List Relationship} {d : Dimension}
    (backfilled : Backfilled source s) (separates : Separates source s joins own)
    (only : source.model.OnlyDescribes t) (hd : d ∈ s.output.dimensions) (label : d.label = t.name)
    (some : d.hierarchies ≠ []) : HasOwnJoin s t := by
  obtain ⟨backing, classified⟩ := backfilled.classified
  have backs := mem_metricTables_of_reads sound free apart hm ht reads
  obtain ⟨e, he, table⟩ := List.mem_map.1 (mem_metricTables.1 backs)
  have fact : t.name ∈ s.tables.fact := table ▸ backfilled.facts free e he
  have right := ((TableLists.onlyDescribes_iff apart.distinct ht backing).2 only).2
  have isDimension : t.name ∈ s.tables.dimension :=
    classified ▸ TableLists.right_subset_dimension _ _ right
  exact separates.complete t ht fact isDimension d hd label some

end Metrics

/-- Exactly the metrics of tables that only describe others repeat across dimensions that they
cannot reach, which changes nothing else of them, and they can be sliced by their own dimensions. -/
theorem convertWith_repeats [Sql.Parser] {settings : Settings} {database : Database}
    {connection : String} {c : Conversion} (apart : database.model.TablesApart)
    (fresh : settings.NeverExhausted database connection)
    (h : convertWith settings database connection = .ok c) :
    RepeatsDescribing database.model c ∧
      Keeps OnlyRepeats (backfillRelationships ⟨database.model, settings⟩) := by
  refine ⟨?_, OnlyRepeats.backfillRelationships _⟩
  obtain ⟨catalog, model, s, ran, rfl⟩ := convertWith_ok h
  let source : Source := ⟨database.model, settings⟩
  have free := fresh _ s ran
  have outcome := run_ok source apart ran
  have sound := outcome.sound free
  have backfilled : Backfilled source s := run_backfilled apart ran
  have known {m : Metric} {t : Table} (reads : ReadsFrom (ofOutput catalog model s) m t) :
      s.names.lookup (Key.dataset t.name) = some m.dataset := by
    obtain ⟨d, hd, label, same⟩ := reads
    rw [← label, ← same]
    exact sound.dataset_key hd
  refine ⟨fun m hm => ?_,
    fun m hm t ht reads => unrelatedDimensions_iff sound free apart hm ht (known reads) backfilled,
    fun m hm marked t ht reads d hd label some => ?_⟩
  · obtain ⟨t, ht, key, -, backing⟩ := sound.metrics m hm
    obtain ⟨d, hd, same⟩ := List.mem_map.1
      ((outcome.backed t.name backing t (apart.table?_self ht)).mem key)
    exact ⟨t, ht, d, hd, sound.dataset_label free apart.distinct ht hd (same ▸ key), same⟩
  · obtain ⟨joins, own, separates⟩ : ∃ joins own, Separates source s joins own :=
      run_separates apart ran free
    have only :=
      (unrelatedDimensions_iff sound free apart hm ht (known reads) backfilled).1.1 marked
    obtain ⟨r, hr, d', hd', label', join⟩ := hasOwnJoin_of_onlyDescribes sound free apart hm ht
      (known reads) backfilled separates only hd label some
    obtain rfl := List.inj_on_of_nodup_map (sound.labels_nodup free apart) hd hd'
      (label.trans label'.symm)
    refine ⟨model, List.mem_singleton_self model, r, outcome.model.relationships ▸ hr, ?_,
      join.dimension⟩
    exact Option.some.inj (join.dataset.symm.trans (known reads))

/-- Sales of products, whose prices are averaged. -/
def pricedSales : Database where
  name := "Priced sales"
  model := {
    tables := [
      { name := "Sales"
        columns := [.data "Amount" "decimal", .data "Product" "int64"]
        measures := [{ name := "Total", expression := ⟨"SUM(Sales[Amount])"⟩ }] },
      { name := "Product"
        columns := [{ Column.data "Id" "int64" with isKey := true }, .data "Name" "string",
          .data "Price" "decimal"]
        hierarchies := [.ofLevels "Products" [("Name", "Name")]]
        measures := [{ name := "Price level", expression := ⟨"AVERAGE(Product[Price])"⟩ }] }]
    relationships := [
      { fromTable := "Sales", fromColumn := "Product"
        toTable := "Product", toColumn := "Id" }] }

attribute [local instance] Sql.Parser.lenient

theorem run_pricedSales : ∃ catalog m s,
    (run ⟨pricedSales.model, {}⟩ pricedSales "warehouse").run (.initial {}) =
      .ok ((catalog, m), s) ∧ s.names.exhausted = [] ∧
      s.output.metrics.map (fun m => (m.label, m.unrelatedDimensions)) =
        [("Total", none), ("Price level", some .repeated)] :=
  exists_run (by decide +kernel)

theorem convertWith_repeats_pricedSales : ∃ c, convertWith {} pricedSales "warehouse" = .ok c ∧
    RepeatsDescribing pricedSales.model c ∧
    Keeps OnlyRepeats (backfillRelationships ⟨pricedSales.model, {}⟩) ∧
    c.metrics.map (fun m => (m.label, m.unrelatedDimensions)) =
      [("Total", none), ("Price level", some .repeated)] := by
  obtain ⟨catalog, m, s, ran, free, shown⟩ := run_pricedSales
  have h := convertWith_of_run (by decide) ran
  obtain ⟨right, only⟩ := convertWith_repeats (by decide +kernel) (neverExhausted_of_run ran free) h
  exact ⟨_, h, right, only, shown⟩

end Conversion

end SemanticLayer
