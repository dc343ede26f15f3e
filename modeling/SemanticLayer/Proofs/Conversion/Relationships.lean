import SemanticLayer.Proofs.Conversion.Emission
import SemanticLayer.Proofs.Conversion.MeasureObjects

set_option autoImplicit false

namespace SemanticLayer.Conversion

open Identifier
open Tabular (Database Table Column)

variable {source : Source} {s s' : State} {u : Unit}

/-- A join of the dataset of a table to the dimension of the same table, which no relationship asks
for. -/
structure OwnJoin (source : Source) (names : Registry) (r : Relationship) : Prop where
  sides : ∃ t ∈ source.model.tables,
    names.lookup (Key.selfRelationship t.name) = some r.uniqueName ∧
      names.lookup (Key.dataset t.name) = some r.source.dataset ∧
        names.lookup (Key.dimension t.name) = some r.target.dimension

theorem OwnJoin.key {names : Registry} {r : Relationship} (h : OwnJoin source names r) :
    ∃ table, names.lookup (Key.selfRelationship table) = some r.uniqueName := by
  obtain ⟨t, -, key, -⟩ := h.sides
  exact ⟨t.name, key⟩

/-- Joins of tables to their own dimensions are all that is new among the joins. -/
structure OnlyOwnJoins (source : Source) (s s' : State) : Prop where
  lookup : ∀ key name, s.names.lookup key = some name → s'.names.lookup key = some name
  fresh : s'.names.exhausted = [] → s.names.exhausted = []
  dimensions : s'.output.dimensions = s.output.dimensions
  relationships : ∃ own, s'.output.relationships = s.output.relationships ++ own ∧
    ∀ r ∈ own, OwnJoin source s'.names r
  diagnostics : s.diagnostics ⊆ s'.diagnostics

namespace OnlyOwnJoins

theorem trans {s'' : State} (h : OnlyOwnJoins source s s') (h' : OnlyOwnJoins source s' s'') :
    OnlyOwnJoins source s s'' where
  lookup key name known := h'.lookup key name (h.lookup key name known)
  fresh := h.fresh ∘ h'.fresh
  dimensions := h'.dimensions.trans h.dimensions
  relationships := by
    obtain ⟨own, same, made⟩ := h.relationships
    obtain ⟨own', same', made'⟩ := h'.relationships
    refine ⟨own ++ own', by rw [same', same, List.append_assoc], fun r hr => ?_⟩
    rcases List.mem_append.1 hr with old | new
    · obtain ⟨t, ht, key, dataset, dimension⟩ := (made r old).sides
      exact ⟨t, ht, h'.lookup _ _ key, h'.lookup _ _ dataset, h'.lookup _ _ dimension⟩
    · exact made' r new
  diagnostics := List.Subset.trans h.diagnostics h'.diagnostics

instance (source : Source) : Frame (OnlyOwnJoins source) where
  trans _ _ _ := .trans
  same s s' names output more := {
    lookup := fun _ _ known => by rwa [names]
    fresh := fun fresh => by rwa [names] at fresh
    dimensions := by rw [output]
    relationships := ⟨[], by rw [output, List.append_nil], fun _ h => nomatch h⟩
    diagnostics := more }
  name s q := {
    lookup := fun _ _ => Registry.lookup_allocate_of_lookup
    fresh := Registry.exhausted_of_allocate
    dimensions := rfl
    relationships := ⟨[], (List.append_nil _).symm, fun _ h => nomatch h⟩
    diagnostics := List.Subset.refl _ }

theorem of_output {o : Output} (dimensions : o.dimensions = s.output.dimensions)
    (relationships : o.relationships = s.output.relationships) :
    OnlyOwnJoins source s { s with output := o } where
  lookup _ _ known := known
  fresh := id
  dimensions := dimensions
  relationships := ⟨[], by rw [List.append_nil, ← relationships], fun _ h => nomatch h⟩
  diagnostics := List.Subset.refl _

theorem addSelfJoin (source : Source) (table : String) :
    Keeps (OnlyOwnJoins source) (addSelfJoin source table) := fun s _ s' h => by
  obtain ⟨_, _, got, h⟩ := bind_ok h
  obtain ⟨rfl, rfl⟩ := get_ok got
  split at h
  · exact Keeps.pure _ _ _ _ h
  split at h
  swap
  · exact Keeps.pure _ _ _ _ h
  rename_i t found
  obtain ⟨dimension, s₁, named, h⟩ := bind_ok h
  obtain ⟨_, _, got, h⟩ := bind_ok h
  obtain ⟨rfl, rfl⟩ := get_ok got
  have asked : OnlyOwnJoins source _ _ := Keeps.dimensionName _ _ _ _ named
  split at h
  swap
  · exact asked.trans (Keeps.pure _ _ _ _ h)
  split at h
  · exact asked.trans (Keeps.log _ _ _ _ h)
  rename_i column level target
  obtain ⟨dataset, s₂, placed, h⟩ := bind_ok h
  obtain ⟨name, s₃, joined, h⟩ := bind_ok h
  obtain ⟨_, s₄, stored, h⟩ := bind_ok h
  have place : OnlyOwnJoins source _ _ := Keeps.datasetName _ _ _ _ placed
  have answer : OnlyOwnJoins source _ _ := Keeps.uniqueName _ _ _ _ joined
  refine ((asked.trans place).trans answer).trans (.trans ?_ (Keeps.log _ _ _ _ h))
  obtain ⟨o, added, rfl⟩ := store_ok stored
  obtain ⟨rfl, -⟩ := Output.addJoin_ok added
  refine ⟨fun _ _ known => known, id, rfl, ⟨[_], rfl, fun r hr => ?_⟩, List.Subset.refl _⟩
  rw [List.mem_singleton.1 hr]
  have key := (uniqueName_answered joined fun _ h => nomatch h).known
  have same : Key.selfRelationship table = Key.selfRelationship t.name :=
    Key.located_congr "relationship:self"
      (congrArg (fun name => [name]) (Tabular.Model.lower_of_table? found).symm)
  exact ⟨t, Tabular.Model.mem_of_table? found, same ▸ key,
    answer.lookup _ _ (datasetName_answered placed).known,
    answer.lookup _ _ (place.lookup _ _ (dimensionName_answered named).known)⟩

theorem afterRelationships (source : Source) : Keeps (OnlyOwnJoins source) (do
    for table in (← get).tables.factDimensions do Conversion.addSelfJoin source table
    warnAmbiguousPaths source) := by
  exact .bind .get fun _ => .bind (.forIn fun table _ =>
    .bind (addSelfJoin source table) fun _ => .pure _) fun _ =>
      .warnAmbiguousPaths source

theorem rest (source : Source) (catalog : Catalog) (label : String) :
    Keeps (OnlyOwnJoins source) (do
      resolveColumnMeasures source
      backfillRelationships source
      resolvePerspectives source
      let model ← assembleModel source label
      return (catalog, model)) := by
  refine .afterRelationships (fun m _ s o h => ?_) (fun p s o h => ?_) (fun s dataset => ?_) source
    catalog label (addSelfJoin source)
  · obtain ⟨rfl, -⟩ := Output.addMetric_ok h
    exact .of_output rfl rfl
  · obtain ⟨rfl, -⟩ := Output.addPerspective_ok h
    exact .of_output rfl rfl
  · exact .of_output rfl rfl

end OnlyOwnJoins

/-- A join in a result between two ends: from the column of the first table's dataset to the one
level over the column of the second table, in that table's dimension. -/
structure IsJoin (c : Conversion) (ends : JoinEnds) (r : Relationship) : Prop where
  source : ∃ d ∈ c.datasets, d.label = ends.fromTable.name ∧
    r.source = ⟨d.uniqueName, [ends.fromColumn.name]⟩
  target : ∃ d ∈ c.dimensions, d.label = ends.toTable.name ∧ ∃ a ∈ d.levelAttributes,
    (∀ a' ∈ d.levelAttributes, a'.keyColumns = [ends.toColumn.name] ↔ a' = a) ∧
      r.target = ⟨d.uniqueName, a.uniqueName⟩

/-- Every relationship of a source is a join in each of its forms, once, or else reported. -/
structure KeepsRelationships (model : Tabular.Model) (s : State) (c : Conversion) : Prop where
  classified : ∃ backing, s.tables = classify model backing
  direct : ∃ joins own, c.models.flatMap (·.relationships) = joins ++ own ∧
    List.Forall₂ (IsJoin c)
      (directEnds s.tables (model.relationships.filterMap (ends? model))) joins ∧
    ∀ r ∈ own, (∃ table, s.names.lookup (Key.selfRelationship table) = some r.uniqueName) ∧
      ∃ d ∈ c.datasets, ∃ d' ∈ c.dimensions, d.label = d'.label ∧
        r.source.dataset = d.uniqueName ∧ r.target.dimension = d'.uniqueName
  nested : ∀ d ∈ c.dimensions, List.Forall₂ (IsJoin c)
    (nestedEnds s.tables (model.relationships.filterMap (ends? model)) d.label) d.relationships
  /-- No table has two dimensions. -/
  labels : (c.dimensions.map (·.label)).Nodup
  placed : ∀ r ∈ model.relationships, ∀ ends, ends? model r = some ends →
    ends.fromTable.name ∈ s.tables.fact ∨ ends.fromTable.name ∈ s.tables.dimension
  owned : ∀ r ∈ model.relationships, ∀ ends, ends? model r = some ends →
    ends.fromTable.name ∈ s.tables.dimension → ∃ d ∈ c.dimensions, d.label = ends.fromTable.name
  reported : ∀ r ∈ model.relationships, ends? model r = none →
    ∃ e ∈ c.diagnostics, e.object = some (relationshipObject r)

section Sound

variable (sound : Sound source s) (fresh : s.names.exhausted = [])
  (apart : source.model.TablesApart)
include sound fresh apart

theorem Sound.keyColumns_iff {t : Table} {c : Column} {d : Dimension} {a : LevelAttribute}
    (columns : t.ColumnsApart) (ht : t ∈ source.model.tables) (hc : c ∈ t.columns)
    (hd : d ∈ s.output.dimensions) (ha : a ∈ d.levelAttributes)
    (known : s.names.lookup (Key.level t.name c.name) = some a.uniqueName) :
    d.label = t.name ∧ ∀ a' ∈ d.levelAttributes, a'.keyColumns = [c.name] ↔ a' = a := by
  obtain ⟨t', made⟩ := sound.dimensions d hd
  have level := made.levels a ha
  have same := Registry.key_eq_of_lookup sound.registry fresh level.key known rfl
  obtain ⟨table, column⟩ := Key.level_inj (apart.plain t' made.mem) (apart.plain t ht) same
  obtain rfl := apart.eq_of_lower made.mem ht table
  obtain ⟨c', hc', name⟩ := List.mem_map.1 level.column
  rw [← name] at column
  have here : a.nameColumn = c.name := by rw [← name, columns.eq_of_lower hc' hc column]
  refine ⟨made.label, fun a' ha' => ⟨fun keyed => ?_, fun same => ?_⟩⟩
  · rw [(made.levels a' ha').keyColumns, ← here] at keyed
    exact List.inj_on_of_nodup_map made.levelsApart ha' ha
      (congrArg Text.lower (List.cons.inj keyed).1)
  · rw [same, level.keyColumns, here]

theorem Sound.labels_nodup : (s.output.dimensions.map (·.label)).Nodup := by
  refine List.Nodup.map_on (fun d hd d' hd' same => ?_) sound.distinct.dimensions.of_map
  obtain ⟨t, made⟩ := sound.dimensions d hd
  obtain ⟨t', made'⟩ := sound.dimensions d' hd'
  have name := (sound.label_iff fresh apart made'.mem hd made'.key).2 (same.trans made'.label)
  exact List.inj_on_of_nodup_map sound.distinct.dimensions hd hd' name

theorem forall₂_isJoin {catalog : Catalog} {m : Model} {ends : List JoinEnds}
    {joins : List Relationship} (columns : ∀ t ∈ source.model.tables, t.ColumnsApart)
    (known : ∀ e ∈ ends, ∃ q, EndsOf source.model q e)
    (inside : ∀ r ∈ joins, r ∈ s.output.allJoins)
    (h : List.Forall₂ (JoinFor s.names) ends joins) :
    List.Forall₂ (IsJoin (ofOutput catalog m s)) ends joins := by
  induction h with
  | nil => exact .nil
  | cons made _ ih =>
    refine .cons ?_ (ih (fun e he => known e (List.mem_cons_of_mem _ he))
      fun r hr => inside r (List.mem_cons_of_mem _ hr))
    obtain ⟨q, here⟩ := known _ List.mem_cons_self
    have sides := (sound.joins _ (inside _ List.mem_cons_self)).toJoins
    obtain ⟨d, hd, dataset⟩ := List.mem_map.1 sides.dataset
    obtain ⟨d', hd', dimension, level⟩ := sides.target
    obtain ⟨a, ha, named⟩ := List.mem_map.1 level
    have member := Tabular.Model.mem_of_table? here.toTable
    obtain ⟨label, only⟩ := sound.keyColumns_iff fresh apart (columns _ member) member
      (Tabular.Table.mem_of_column? here.toColumn) hd' ha (named ▸ made.level)
    exact {
      source := ⟨d, hd, sound.dataset_label fresh apart.distinct
        (Tabular.Model.mem_of_table? here.fromTable) hd (dataset ▸ made.dataset),
          by rw [dataset, ← made.columns]⟩
      target := ⟨d', hd', label, a, ha, only, by rw [dimension, named]⟩ }

theorem OwnJoin.labels {r : Relationship} (h : OwnJoin source s.names r)
    (inside : r ∈ s.output.allJoins) : ∃ d ∈ s.output.datasets, ∃ d' ∈ s.output.dimensions,
      d.label = d'.label ∧ r.source.dataset = d.uniqueName ∧
        r.target.dimension = d'.uniqueName := by
  obtain ⟨t, ht, -, first, second⟩ := h.sides
  have sides := (sound.joins r inside).toJoins
  obtain ⟨d, hd, dataset⟩ := List.mem_map.1 sides.dataset
  obtain ⟨d', hd', dimension, -⟩ := sides.target
  refine ⟨d, hd, d', hd', ?_, dataset.symm, dimension.symm⟩
  rw [sound.dataset_label fresh apart.distinct ht hd (dataset ▸ first),
    (sound.label_iff fresh apart ht hd' second).1 dimension]

end Sound

theorem resolveDimensions_ready {settings : Settings} {database : Database} {catalog : Catalog}
    (apart : source.model.TablesApart)
    (before : Reclassified source settings database catalog s)
    (h : (resolveDimensions source).run s = .ok (u, s')) :
    Moves source .joins s s' ∧
      (∀ r ∈ source.model.relationships, ∀ ends, ends? source.model r = some ends →
        Ready s' ends) ∧
      ∀ t ∈ source.model.tables, t.name ∈ s.tables.dimension → HasDimension s' t.name := by
  obtain ⟨moves, complete⟩ := resolveDimensions_ok apart
    (fun t ht isDimension => before.covered t ht (Or.inr isDimension)) h
  refine ⟨moves, fun r hr ends found => ?_, fun t ht isDimension => (complete t ht isDimension).1⟩
  have known := ends?_eq_some found
  obtain ⟨isDimension, used⟩ := TableLists.classify_ends hr known.active known.fromTable
    known.toTable s.metricTables
  rw [← before.classified] at isDimension used
  obtain ⟨dimension, levels⟩ := complete _ (Tabular.Model.mem_of_table? known.toTable) isDimension
  refine ⟨?_, dimension, (before.covered _ (Tabular.Model.mem_of_table? known.fromTable) used).mono
    moves.extension.toGrows⟩
  exact levels _ (mem_joinColumns_iff.2
    ⟨r, hr, known.active, Tabular.Model.equalFold_of_table? known.toTable, known.toColumn⟩)

structure Related (source : Source) (s : State) : Prop where
  classified : ∃ backing, s.tables = classify source.model backing
  direct : ∃ joins own, s.output.relationships = joins ++ own ∧
    List.Forall₂ (JoinFor s.names)
      (directEnds s.tables (source.model.relationships.filterMap (ends? source.model))) joins ∧
    ∀ r ∈ own, OwnJoin source s.names r
  nested : ∀ d ∈ s.output.dimensions, List.Forall₂ (JoinFor s.names)
    (nestedEnds s.tables (source.model.relationships.filterMap (ends? source.model)) d.label)
    d.relationships
  owned : ∀ t ∈ source.model.tables, t.name ∈ s.tables.dimension → HasDimension s t.name
  reported : ∀ r ∈ source.model.relationships, ends? source.model r = none → Reported s r

theorem run_related {settings : Settings} {database : Database} {catalog : Catalog} {m : Model}
    {connection : String} (apart : source.model.TablesApart)
    (h : (run source database connection).run (.initial settings) = .ok ((catalog, m), s))
    (free : s.names.exhausted = []) :
    Sound source s ∧ Related source s ∧ m.relationships = s.output.relationships := by
  obtain ⟨made, -, s₁, -, -, before, -, finishing⟩ := reclassified_ok apart.distinct h
  obtain ⟨rfl, late, model, -⟩ := finish_ok apart before finishing
  obtain ⟨_, s₂, described, finishing⟩ := bind_ok finishing
  obtain ⟨_, s₃, related, finishing⟩ := bind_ok finishing
  obtain ⟨_, s₄, emitted, related⟩ := bind_ok related
  have joinless : s₂.output.allJoins = [] := Keeps.resolveDimensions source
    StaysJoinless.addDimension _ _ _ described before.joinless
  obtain ⟨none, plain⟩ := List.append_eq_nil_iff.1 joinless
  obtain ⟨describing, ready, dimensions⟩ := resolveDimensions_ready apart before described
  obtain ⟨moves, emits, reported⟩ := emits_all apart (fun fresh => describing.sound fresh
    (before.sound (describing.extension.names.exhausted fresh))) ready emitted
  -- Between the last relationship and the end nothing but joins of tables to themselves is made.
  have kept : OnlyOwnJoins source s₄ s :=
    (OnlyOwnJoins.afterRelationships source _ _ _ related).trans
      (OnlyOwnJoins.rest source _ _ _ _ _ finishing)
  have all := emits (kept.fresh free)
  have tables : s.tables = s₂.tables :=
    late.extension.tables.trans describing.extension.tables.symm
  rw [← tables] at all
  have later {ends : List JoinEnds} {new : List Relationship}
      (h : List.Forall₂ (JoinFor s₄.names) ends new) : List.Forall₂ (JoinFor s.names) ends new :=
    h.imp fun _ _ made => made.mono kept.lookup
  refine ⟨late.sound free (before.sound (late.extension.names.exhausted free)), {
    classified := ⟨s₁.metricTables, late.extension.tables.trans before.classified⟩
    direct := ?_
    nested := fun d hd => ?_
    owned := fun t ht isDimension => ?_
    reported := fun r hr missing => ?_ }, model.relationships⟩
  · obtain ⟨joins, same, linked⟩ := all.relationships
    obtain ⟨own, same', ownMade⟩ := kept.relationships
    exact ⟨joins, own, by rw [same', same, none, List.nil_append], later linked, ownMade⟩
  · obtain ⟨d₂, hd₂, -, new, same, linked⟩ := all.dimensions d (kept.dimensions ▸ hd)
    rw [List.flatMap_eq_nil_iff.1 plain d₂ hd₂, List.nil_append] at same
    rw [same]
    exact later linked
  · rw [late.extension.tables] at isDimension
    obtain ⟨d, hd, key⟩ := (dimensions t ht isDimension).mono moves.extension.toGrows
    exact ⟨d, kept.dimensions ▸ hd, kept.lookup _ _ key⟩
  · obtain ⟨e, he, names⟩ := reported r hr missing
    exact ⟨e, kept.diagnostics he, names⟩

/-- No relationship is lost. -/
theorem convertWith_relationships [Sql.Parser] {settings : Settings} {database : Database}
    {connection : String} {c : Conversion} (apart : database.model.TablesApart)
    (columns : ∀ t ∈ database.model.tables, t.ColumnsApart)
    (fresh : settings.NeverExhausted database connection)
    (h : convertWith settings database connection = .ok c) :
    ∃ s, EndsIn settings database connection c s ∧ KeepsRelationships database.model s c := by
  obtain ⟨catalog, m, s, ran, rfl⟩ := convertWith_ok h
  refine ⟨s, ⟨catalog, m, ran, rfl⟩, ?_⟩
  let source : Source := ⟨database.model, settings⟩
  have free := fresh _ s ran
  obtain ⟨sound, related, model⟩ : Sound source s ∧ Related source s ∧ _ :=
    run_related apart ran free
  obtain ⟨joins, own, shape, linked, ownMade⟩ := related.direct
  obtain ⟨backing, classified⟩ := related.classified
  have listed (r : Relationship) (hr : r ∈ joins ++ own) : r ∈ s.output.allJoins :=
    List.mem_append_left _ (shape ▸ hr)
  have known (e : JoinEnds)
      (he : e ∈ database.model.relationships.filterMap (ends? database.model)) :
      ∃ q, EndsOf database.model q e := by
    obtain ⟨q, -, found⟩ := List.mem_filterMap.1 he
    exact ⟨q, ends?_eq_some found⟩
  exact {
    classified := ⟨backing, classified⟩
    direct := by
      refine ⟨joins, own, ?_, forall₂_isJoin sound free apart columns
        (fun e he => known e (List.mem_of_mem_filter he))
        (fun r hr => listed r (List.mem_append_left _ hr)) linked, fun r hr => ?_⟩
      · change [m].flatMap (·.relationships) = joins ++ own
        rw [List.flatMap_singleton, model, shape]
      · exact ⟨(ownMade r hr).key,
          (ownMade r hr).labels sound free apart (listed r (List.mem_append_right _ hr))⟩
    nested := fun d hd => forall₂_isJoin sound free apart columns
      (fun e he => known e (List.mem_of_mem_filter he))
      (fun r hr => List.mem_append_right _ (List.mem_flatMap.2 ⟨d, hd, hr⟩))
      (related.nested d hd)
    labels := sound.labels_nodup free apart
    placed := fun r hr ends found => by
      have ends := ends?_eq_some found
      rw [classified]
      exact (TableLists.classify_ends hr ends.active ends.fromTable ends.toTable _).2
    owned := fun r hr ends found isDimension => by
      have member := Tabular.Model.mem_of_table? (ends?_eq_some found).fromTable
      obtain ⟨d, hd, key⟩ := related.owned _ member isDimension
      exact ⟨d, hd, (sound.label_iff free apart member hd key).1 rfl⟩
    reported := related.reported }

attribute [local instance] Sql.Parser.lenient

theorem convertWith_relationships_shop : ∃ c, convertWith {} shop "warehouse" = .ok c ∧
    ∃ s, EndsIn {} shop "warehouse" c s ∧ KeepsRelationships shop.model s c :=
  exists_convertWith_shop.imp fun _ h => ⟨h, convertWith_relationships shop_tablesApart
    (by decide +kernel) shop_neverExhausted h⟩

end SemanticLayer.Conversion
