import SemanticLayer.Proofs.Conversion.FreshJoins
import SemanticLayer.Proofs.Conversion.Subsets

set_option autoImplicit false

/-!
The dimensions of the dimension tables. Each of these tables gets its own dimension, which goes by
its key and carries its name, and later steps keep both. So when perspectives are made, the key of a
dimension table is answered already, and with a dimension that belongs to no other table.
-/
namespace SemanticLayer.Conversion

open Identifier
open Tabular (Database Table)

variable {source : Source} {s s' : State} {u : Unit} {tables : List Table}

/-- A dimension that was made of a table. -/
structure IsDimensionOf (s : State) (t : Table) (d : Dimension) : Prop where
  mem : d ∈ s.output.dimensions
  key : s.names.lookup (Key.dimension t.name) = some d.uniqueName
  label : d.label = t.name

def dimensionTitles (o : Output) : List (String × String) :=
  o.dimensions.map fun d => (d.uniqueName, d.label)

def tableTitles (s : State) (tables : List Table) : List (Option String × String) :=
  (tables.filter fun t => s.tables.dimension.contains t.name).map fun t =>
    (s.names.lookup (Key.dimension t.name), t.name)

/-- The dimensions are those of the dimension tables among these tables, each once. -/
structure Described (s : State) (tables : List Table) : Prop where
  titles : tableTitles s tables = (dimensionTitles s.output).map (Prod.map some id)
  once : ((dimensionTitles s.output).map Prod.fst).Nodup

namespace Described

theorem exists_dimension (h : Described s tables) {t : Table} (ht : t ∈ tables)
    (isDimension : t.name ∈ s.tables.dimension) : ∃ d, IsDimensionOf s t d := by
  have own : (s.names.lookup (Key.dimension t.name), t.name) ∈ tableTitles s tables :=
    List.mem_map.2 ⟨t, List.mem_filter.2 ⟨ht, List.contains_iff_mem.2 isDimension⟩, rfl⟩
  rw [h.titles, dimensionTitles, List.map_map] at own
  obtain ⟨d, hd, same⟩ := List.mem_map.1 own
  obtain ⟨key, label⟩ := Prod.mk.inj same
  exact ⟨d, hd, key.symm, label⟩

theorem table_eq (h : Described s tables) {t t' : Table} {d d' : Dimension} (ht : t ∈ tables)
    (isDimension : t.name ∈ s.tables.dimension) (ht' : t' ∈ tables)
    (isDimension' : t'.name ∈ s.tables.dimension) (made : IsDimensionOf s t d)
    (made' : IsDimensionOf s t' d') (same : d.uniqueName = d'.uniqueName) : t = t' := by
  have answers : ((tables.filter fun t => s.tables.dimension.contains t.name).map fun t =>
      s.names.lookup (Key.dimension t.name)).Nodup := by
    have titles := congrArg (List.map Prod.fst) h.titles
    have once := h.once.map (Option.some_injective String)
    rw [tableTitles, List.map_map, List.map_map] at titles
    rw [List.map_map] at once
    exact titles ▸ once
  have known {t : Table} (ht : t ∈ tables) (isDimension : t.name ∈ s.tables.dimension) :
      t ∈ tables.filter fun t => s.tables.dimension.contains t.name :=
    List.mem_filter.2 ⟨ht, List.contains_iff_mem.2 isDimension⟩
  exact List.inj_on_of_nodup_map answers (known ht isDimension) (known ht' isDimension')
    (made.key.trans (same ▸ made'.key.symm))

end Described

structure Retains (s s' : State) : Prop where
  tables : s'.tables = s.tables
  lookup : ∀ key name, s.names.lookup key = some name → s'.names.lookup key = some name
  titles : dimensionTitles s'.output = dimensionTitles s.output

instance : StepFrame Retains where
  trans _ _ _ h h' := {
    tables := h'.tables.trans h.tables
    lookup := fun key name known => h'.lookup key name (h.lookup key name known)
    titles := h'.titles.trans h.titles }
  logged _ _ names tables output _ _ :=
    ⟨tables, fun _ _ known => by rwa [names], congrArg dimensionTitles output⟩
  name _ _ := ⟨rfl, fun _ _ => Registry.lookup_allocate_of_lookup, rfl⟩

namespace Retains

theorem of_output {o : Output} (titles : dimensionTitles o = dimensionTitles s.output) :
    Retains s { s with output := o } :=
  ⟨rfl, fun _ _ known => known, titles⟩

theorem addJoin (r : Relationship) : Admits Retains (·.addJoin r) := fun s o added => by
  obtain ⟨rfl, -⟩ := Output.addJoin_ok added
  exact .of_output rfl

theorem addNestedJoin (owner : String) (r : Relationship) :
    Admits Retains (·.addNestedJoin owner r) := fun s o added => by
  obtain ⟨rfl, -⟩ := Output.addNestedJoin_ok added
  refine .of_output ?_
  rw [dimensionTitles, List.map_map]
  refine List.map_congr_left fun d _ => ?_
  obtain ⟨name, label, -⟩ := Output.withJoin_shape owner r d
  exact Prod.ext name label

theorem addPerspective (p : Perspective) : Admits Retains (·.addPerspective p) :=
  fun s o added => by
    obtain ⟨rfl, -⟩ := Output.addPerspective_ok added
    exact .of_output rfl

theorem registerMetric (m : Metric) (table key : String) :
    Keeps Retains (Conversion.registerMetric m table key) := fun s u s' h => by
  obtain ⟨_, s₁, stored, h⟩ := bind_ok h
  obtain rfl := modify_ok h
  obtain ⟨o, added, rfl⟩ := store_ok stored
  obtain ⟨rfl, -⟩ := Output.addMetric_ok added
  exact ⟨rfl, fun _ _ known => known, rfl⟩

end Retains

theorem Described.mono (h : Described s tables) (retains : Retains s s') :
    Described s' tables := by
  refine ⟨?_, retains.titles ▸ h.once⟩
  rw [retains.titles, ← h.titles, tableTitles, tableTitles, retains.tables]
  refine List.map_congr_left fun t ht => ?_
  obtain ⟨known, isDimension⟩ := List.mem_filter.1 ht
  obtain ⟨d, made⟩ := h.exists_dimension known (List.contains_iff_mem.1 isDimension)
  rw [made.key, retains.lookup _ _ made.key]

theorem Described.concat {t : Table} {d : Dimension} (before : Described s tables)
    (isDimension : s.tables.dimension.contains t.name = true)
    (h : (describeDimension source t).run s = .ok (d, s'))
    (new : d.uniqueName ∉ s.output.dimensions.map (·.uniqueName)) :
    Described { s' with output := { s.output with dimensionMap := s.output.dimensionMap.insert d } }
      (tables ++ [t]) := by
  have retains : Retains s s' := (Light.describeDimension source t).keeps _ _ _ h
  have known := describeDimension_key h
  obtain ⟨label, -⟩ := describeDimension_ok h
  rw [← retains.tables] at isDimension
  constructor
  · have titles := (before.mono retains).titles
    rw [retains.titles] at titles
    simp only [tableTitles, dimensionTitles] at titles ⊢
    rw [List.filter_append, List.map_append, List.map_append, List.map_append, titles,
      List.filter_singleton, isDimension]
    simp [known, label]
  · have once := before.once
    rw [dimensionTitles, List.map_map] at once ⊢
    exact NamedMap.nodup_insert once new

theorem resolveDimensions_described (none : s.output.dimensions = [])
    (h : (resolveDimensions source).run s = .ok (u, s')) : Described s' source.model.tables := by
  let P (done : List Table) (s' : State) : Prop := s'.tables = s.tables ∧ Described s' done
  have start : P [] s := by
    refine ⟨rfl, ?_, ?_⟩
    · rw [dimensionTitles, none]
      rfl
    · rw [dimensionTitles, none]
      exact List.nodup_nil
  obtain ⟨tables, described⟩ := resolveDimensions_steps (P := P) start
    (fun t _ done s₁ s₂ d tables isDimension before described new => by
      have steady : Steady s₁ s₂ := (Light.describeDimension source t).keeps _ _ _ described
      rw [← tables] at isDimension
      exact ⟨steady.tables.trans tables, before.2.concat isDimension described new⟩) h
  have titles := described.titles
  refine ⟨?_, described.once⟩
  simpa only [tableTitles, tables, List.filter_filter, Bool.and_self] using titles

theorem relate_described (none : s.output.dimensions = [])
    (h : (relate source).run s = .ok (u, s')) : Described s' source.model.tables := by
  obtain ⟨_, s₁, described, h⟩ := bind_ok h
  obtain ⟨_, s₂, joined, h⟩ := bind_ok h
  obtain ⟨_, s₃, summed, h⟩ := bind_ok h
  have own := Keeps.addSelfJoin source Retains.addJoin
  have joining : Retains s₁ s₂ :=
    Keeps.resolveRelationships source own
      (.resolveRelationship source Retains.addJoin Retains.addNestedJoin) _ _ _ joined
  have summing : Retains s₂ s₃ :=
    Keeps.columnMeasures source (fun m _ => Retains.registerMetric m) _ _ _ summed
  have filling : Retains s₃ s' :=
    Keeps.backfillRelationships source own (fun _ _ => .of_output rfl) _ _ _ h
  have first := resolveDimensions_described none described
  exact ((first.mono joining).mono summing).mono filling

/-- The steps up to the perspectives, and some of the perspectives. -/
def approach (source : Source) (database : Database) (connection : String)
    (earlier : List Tabular.Perspective) : Run Catalog := do
  let catalog ← prepare source database connection
  reportUnreferencedHelpers
  reclassify source
  relate source
  for p in earlier do
    resolvePerspective source p
  return catalog

theorem run_eq_approach (source : Source) (database : Database) (connection : String) :
    run source database connection = (do
      let catalog ← approach source database connection source.model.perspectives
      let model ← assembleModel source (database.model.name.getD database.name)
      return (catalog, model)) := by
  simp only [run_eq, finish_eq, approach, resolvePerspectives, bind_assoc, pure_bind]

theorem approach_described {settings : Settings} {database : Database} {connection : String}
    {earlier : List Tabular.Perspective} {made : Catalog}
    (h : (approach source database connection earlier).run (.initial settings) = .ok (made, s)) :
    Described s source.model.tables := by
  obtain ⟨_, s₀, prepared, h⟩ := bind_ok h
  obtain ⟨_, s₁, reported, h⟩ := bind_ok h
  obtain ⟨_, s₂, classified, h⟩ := bind_ok h
  obtain ⟨_, s₃, related, h⟩ := bind_ok h
  obtain ⟨_, s₄, viewed, h⟩ := bind_ok h
  obtain ⟨-, rfl⟩ := pure_ok h
  have reporting : Spares (·.dimensions) s₀ s₁ :=
    Light.keeps .reportUnreferencedHelpers _ _ _ reported
  have none : s₂.output.dimensions = [] := by
    rw [reclassify_ok classified]
    exact reporting.trans (prepare_ok prepared).dimensionless
  have viewing : Retains s₃ s₄ :=
    Keeps.forIn (fun p _ => .bind (.resolvePerspective source Retains.addPerspective p)
      fun _ => .pure _) _ _ _ viewed
  exact (relate_described none related).mono viewing

end SemanticLayer.Conversion
