import SemanticLayer.Proofs.Conversion.Closed

set_option autoImplicit false

/-!
Datasets and dimensions match the classes of the tables. Datasets are made while only the first
classification is known, and dimensions while the second one is; either list holds just the tables
that the second one puts into its class.
-/
namespace SemanticLayer.Conversion

open Identifier
open Tabular (Database Table)

variable {source : Source} {s s' : State} {u : Unit}

/-- The dimension of a table before it is put into the result. -/
def describeDimension (source : Source) (t : Table) : Run Dimension := do
  let name ← dimensionName t.name
  log (joinDiagnostics source t)
  let dataset ← datasetName t.name
  let (found, levels) ← hierarchies ⟨t, dataset⟩ (joinColumns source t)
  let found ← attachSecondaryAttributes ⟨t, dataset⟩ levels found
  let attributes := levels.map Prod.snd
  log (timeDiagnostics source.settings t attributes)
  return {
    uniqueName := name
    label := t.name
    type := (timeTyped source.settings t attributes).1
    description := t.description
    hierarchies := found
    levelAttributes := (timeTyped source.settings t attributes).2 }

theorem resolveDimension_eq (source : Source) (t : Table) :
    resolveDimension source t =
      describeDimension source t >>= fun d => store (·.addDimension d) := by
  simp only [resolveDimension, describeDimension, bind_assoc, pure_bind]

theorem Light.describeDimension (source : Source) (t : Table) :
    Light (describeDimension source t) :=
  .bind (.dimensionName _) fun _ => .bind (.log _) fun _ => .bind (.datasetName _) fun _ =>
    .bind (.hierarchies _ _) fun _ => .bind (.attachSecondaryAttributes _ _ _) fun _ =>
      .bind (.log _) fun _ => .pure _

inductive Description (source : Source) (t : Table) (s s' : State) : Dimension → Prop
  | steps {name dataset : String} {found attached : List Hierarchy} {levels : LevelTable}
    {s₁ s₂ s₃ s₄ s₅ : State} (named : (dimensionName t.name).run s = .ok (name, s₁))
    (noted : (log (joinDiagnostics source t)).run s₁ = .ok (⟨⟩, s₂))
    (placed : (datasetName t.name).run s₂ = .ok (dataset, s₃))
    (drafted : (hierarchies ⟨t, dataset⟩ (joinColumns source t)).run s₃ = .ok ((found, levels), s₄))
    (hung : (attachSecondaryAttributes ⟨t, dataset⟩ levels found).run s₄ = .ok (attached, s₅))
    (timed : (log (timeDiagnostics source.settings t (levels.map Prod.snd))).run s₅ =
      .ok (⟨⟩, s')) : Description source t s s' {
        uniqueName := name
        label := t.name
        type := (timeTyped source.settings t (levels.map Prod.snd)).1
        description := t.description
        hierarchies := attached
        levelAttributes := (timeTyped source.settings t (levels.map Prod.snd)).2 }

theorem description_of_ok {t : Table} {d : Dimension}
    (h : (describeDimension source t).run s = .ok (d, s')) : Description source t s s' d := by
  obtain ⟨name, s₁, named, h⟩ := bind_ok h
  obtain ⟨_, s₂, noted, h⟩ := bind_ok h
  obtain ⟨dataset, s₃, placed, h⟩ := bind_ok h
  obtain ⟨⟨found, levels⟩, s₄, drafted, h⟩ := bind_ok h
  obtain ⟨attached, s₅, hung, h⟩ := bind_ok h
  obtain ⟨_, s₆, timed, h⟩ := bind_ok h
  obtain ⟨rfl, rfl⟩ := pure_ok h
  exact .steps named noted placed drafted hung timed

theorem describeDimension_ok {t : Table} {d : Dimension}
    (h : (describeDimension source t).run s = .ok (d, s')) :
    d.label = t.name ∧ d.relationships = [] := by
  cases description_of_ok h
  exact ⟨rfl, rfl⟩

/-- What holds of the tables that got their dimensions, one after the other, holds in the end of all
that are dimensions. -/
theorem resolveDimensions_steps {P : List Table → State → Prop} (start : P [] s)
    (step : ∀ t ∈ source.model.tables, ∀ done s₁ s₂ d, s₁.tables = s.tables →
      s.tables.dimension.contains t.name = true → P done s₁ →
      (describeDimension source t).run s₁ = .ok (d, s₂) →
      d.uniqueName ∉ s₁.output.dimensions.map (·.uniqueName) →
      P (done ++ [t])
        { s₂ with output := { s₁.output with dimensionMap := s₁.output.dimensionMap.insert d } })
    (h : (resolveDimensions source).run s = .ok (u, s')) :
    P (source.model.tables.filter fun t => s.tables.dimension.contains t.name) s' := by
  obtain ⟨_, s₁, loop, h⟩ := bind_ok h
  obtain ⟨-, rfl⟩ := pure_ok h
  let Q (done : List Table) (s' : State) : Prop := s'.tables = s.tables ∧
    P (done.filter fun t => s.tables.dimension.contains t.name) s'
  have first : Q [] s := ⟨rfl, start⟩
  refine (forIn_steps (P := Q) first (fun t ht done s₂ s₃ r turn before => ?_) loop).2
  obtain ⟨tables, before⟩ := before
  obtain ⟨_, _, got, turn⟩ := bind_ok turn
  obtain ⟨rfl, rfl⟩ := get_ok got
  rw [tables] at turn
  split at turn
  · rename_i isDimension
    obtain ⟨_, s₄, made, turn⟩ := bind_ok turn
    obtain ⟨rfl, rfl⟩ := pure_ok turn
    rw [resolveDimension_eq] at made
    obtain ⟨d, s₅, described, stored⟩ := bind_ok made
    have steady : Steady s₂ s₅ := (Light.describeDimension source t).keeps _ _ _ described
    have output : s₅.output = s₂.output :=
      (Light.describeDimension source t).keeps (R := Spares id) _ _ _ described
    obtain ⟨o, added, rfl⟩ := store_ok stored
    obtain ⟨new, rfl⟩ := Output.Shelf.insert_ok added
    refine ⟨rfl, steady.tables.trans tables, ?_⟩
    rw [output] at new ⊢
    rw [List.filter_append, List.filter_singleton, isDimension, cond_true]
    exact step t ht _ _ _ _ tables isDimension before described new
  · rename_i other
    obtain ⟨rfl, rfl⟩ := pure_ok turn
    refine ⟨rfl, tables, ?_⟩
    rwa [List.filter_append, List.filter_singleton, Bool.eq_false_iff.2 other, cond_false,
      List.append_nil]

theorem resolveDimensions_labels (h : (resolveDimensions source).run s = .ok (u, s')) :
    s'.output.dimensions.map (·.label) = s.output.dimensions.map (·.label) ++
      (source.model.tables.filter fun t => s.tables.dimension.contains t.name).map (·.name) := by
  let P (done : List Table) (s' : State) : Prop :=
    s'.output.dimensions.map (·.label) = s.output.dimensions.map (·.label) ++ done.map (·.name)
  have start : P [] s := (List.append_nil _).symm
  refine resolveDimensions_steps (P := P) start
    (fun t _ done s₁ s₂ d _ _ before described _ => ?_) h
  change (s₁.output.dimensions ++ [d]).map (·.label) = _
  rw [List.map_append, before, List.map_singleton, (describeDimension_ok described).1,
    List.map_append, List.append_assoc, List.map_singleton]

def labels (o : Output) : List String × List String :=
  (o.datasets.map (·.label), o.dimensions.map (·.label))

theorem Admits.addNestedJoin_labels (owner : String) (r : Relationship) :
    Admits (Spares labels) (·.addNestedJoin owner r) := fun s o added => by
  obtain ⟨rfl, -⟩ := Output.addNestedJoin_ok added
  refine Prod.ext rfl ?_
  change (s.output.dimensions.map (Output.withJoin owner r)).map (·.label) = _
  rw [List.map_map]
  exact List.map_congr_left fun d _ => (Output.withJoin_shape owner r d).2.1

/-- After the second classification no dataset is made, and a dimension for every table that is one.
-/
theorem finish_labels {catalog made : Catalog} {m : Model} {label : String}
    (h : (finish source made label).run s = .ok ((catalog, m), s')) :
    (s'.names.exhausted = [] → s.names.exhausted = []) ∧
      s'.output.datasets.map (·.label) = s.output.datasets.map (·.label) ∧
      s'.output.dimensions.map (·.label) = s.output.dimensions.map (·.label) ++
        (source.model.tables.filter fun t => s.tables.dimension.contains t.name).map (·.name) := by
  obtain ⟨_, s₁, described, h⟩ := bind_ok h
  have fresh : KeepsExhausted s s₁ :=
    Keeps.resolveDimensions source (fun _ _ _ _ _ => id) _ _ _ described
  have fresh' : KeepsExhausted s₁ s' :=
    Keeps.afterDimensions (fun _ _ _ _ _ => id) (fun _ _ _ _ => id) (fun _ _ => id)
      (fun _ _ _ _ => id) (fun _ _ _ _ _ => id) source made label _ _ _ h
  have datasets : s₁.output.datasets = s.output.datasets :=
    Keeps.resolveDimensions (R := Spares (·.datasets)) source (.addDimension rfl) _ _ _ described
  have rest : labels s'.output = labels s₁.output :=
    Keeps.afterDimensions (R := Spares labels) (fun _ _ => .addMetric rfl)
      (fun _ => .addPerspective rfl) (fun _ _ => rfl) (fun _ => .addJoin rfl)
      Admits.addNestedJoin_labels source made label _ _ _ h
  obtain ⟨first, second⟩ := Prod.mk.inj rest
  refine ⟨fresh ∘ fresh', ?_, second.trans (resolveDimensions_labels described)⟩
  rw [first, datasets]

/-- The datasets of a conversion are those of facts and dimensions, and its dimensions those of the
tables that active relationships lead to, where `backing` names the tables that back metrics. -/
structure MatchesClasses (model : Tabular.Model) (backing : List String) (c : Conversion) :
    Prop where
  datasetsOnce : (c.datasets.map (·.label)).Nodup
  datasets : ∀ name, name ∈ c.datasets.map (·.label) ↔
    name ∈ (classify model backing).fact ∨ name ∈ (classify model backing).dimension
  dimensionsOnce : (c.dimensions.map (·.label)).Nodup
  dimensions : c.dimensions.map (·.label) = model.dimensionTables.map (·.name)

theorem Reclassified.dimensionTables {settings : Settings} {database : Database}
    {catalog : Catalog} (h : Reclassified source settings database catalog s) :
    (source.model.tables.filter fun t => s.tables.dimension.contains t.name) =
      source.model.dimensionTables := by
  rw [Tabular.Model.dimensionTables]
  refine List.filter_congr fun t ht => Bool.eq_iff_iff.2 ?_
  rw [List.contains_iff_mem, h.classified, TableLists.mem_dimension_iff ht]

section Prepared

variable {settings : Settings} {database : Database} {catalog : Catalog}
  (before : Prepared source settings database catalog s) (fresh : s.names.exhausted = [])
include before fresh

theorem Prepared.datasets_nodup : (s.output.datasets.map (·.label)).Nodup := by
  have sound := before.sound fresh
  refine List.Nodup.map_on (fun d hd d' hd' same => ?_) sound.distinct.datasets.of_map
  have first := sound.dataset_key hd
  rw [same] at first
  exact List.inj_on_of_nodup_map sound.distinct.datasets hd hd'
    (Option.some.inj (first.symm.trans (sound.dataset_key hd')))

theorem Prepared.classified_of_needed (distinct : source.model.TablesDistinct) {t : Table}
    (ht : t ∈ source.model.tables) (h : Needed source (classify source.model []) s t) :
    t.name ∈ (classify source.model s.metricTables).fact ∨
      t.name ∈ (classify source.model s.metricTables).dimension := by
  refine TableLists.classify_of_used ht (h.imp_right fun ⟨name, backing, found⟩ => ?_)
  obtain ⟨e, he, rfl⟩ := List.mem_map.1 (mem_metricTables.1 backing)
  obtain ⟨t', ht', same⟩ := (before.sound fresh).backing e he
  rw [← same, distinct.table?_self ht'] at found
  rwa [← Option.some.inj found, same]

end Prepared

theorem convertWith_classes [Sql.Parser] {settings : Settings} {database : Database}
    {connection : String} {c : Conversion} (distinct : database.model.TablesDistinct)
    (fresh : settings.NeverExhausted database connection)
    (h : convertWith settings database connection = .ok c) :
    ∃ catalog s, (prepare ⟨database.model, settings⟩ database connection).run (.initial settings) =
      .ok (catalog, s) ∧ MatchesClasses database.model s.metricTables c := by
  obtain ⟨catalog, m, s', ran, rfl⟩ := convertWith_ok h
  obtain ⟨made, s₀, s, prepared, before, after, only, finishing⟩ := reclassified_ok distinct ran
  obtain ⟨earlier, datasets, dimensions⟩ := finish_labels finishing
  have free := earlier (fresh _ s' ran)
  have free₀ := only.names.exhausted free
  have sound := after.sound free
  have classes : s.tables = classify database.model s₀.metricTables := by
    rw [after.classified, State.metricTables, only.measures, State.metricTables]
  rw [only.output] at datasets dimensions
  rw [before.dimensionless, List.map_nil, List.nil_append] at dimensions
  rw [after.dimensionTables] at dimensions
  refine ⟨made, s₀, prepared, {
    datasetsOnce := datasets ▸ before.datasets_nodup free₀
    datasets := fun name => ?_
    dimensionsOnce := ?_
    dimensions }⟩
  · change name ∈ s'.output.datasets.map (·.label) ↔ _
    rw [datasets]
    constructor
    · intro made
      obtain ⟨d, hd, rfl⟩ := List.mem_map.1 made
      obtain ⟨t, ht, label, needed⟩ := before.needed d hd
      rw [label]
      exact before.classified_of_needed free₀ distinct ht needed
    · intro used
      rw [← classes] at used
      obtain ⟨t, ht, rfl⟩ := after.tables used
      obtain ⟨dataset, key, made⟩ := after.covered t ht used
      obtain ⟨d, hd, rfl⟩ := List.mem_map.1 made
      rw [← only.output]
      exact List.mem_map.2 ⟨d, hd, sound.dataset_label free distinct ht hd key⟩
  · change (s'.output.dimensions.map (·.label)).Nodup
    rw [dimensions]
    exact distinct.names_nodup.sublist (List.filter_sublist.map Table.name)

attribute [local instance] Sql.Parser.lenient

theorem convertWith_classes_shop : ∃ c, convertWith {} shop "warehouse" = .ok c ∧
    ∃ catalog s, (prepare ⟨shop.model, {}⟩ shop "warehouse").run (.initial {}) = .ok (catalog, s) ∧
      MatchesClasses shop.model s.metricTables c :=
  exists_convertWith_shop.imp fun _ h =>
    ⟨h, convertWith_classes (by decide +kernel) shop_neverExhausted h⟩

end SemanticLayer.Conversion
