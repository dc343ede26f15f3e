import SemanticLayer.Proofs.Conversion.FreshJoins

set_option autoImplicit false

namespace SemanticLayer

open Text (lower)
open Tabular (Database Table)

namespace Conversion

def lastState {A : Type} : Except Halt (A × State) → State
  | .ok (_, s) => s
  | .error halt => halt.state

end Conversion

/-- However a conversion with these settings ends, it has given out safe identifiers only. -/
def Settings.NeverRunsOut [Sql.Parser] (settings : Settings) (database : Database)
    (connection : String) : Prop :=
  (Conversion.lastState ((Conversion.run ⟨database.model, settings⟩ database connection).run
    (.initial settings))).names.exhausted = []

instance [Sql.Parser] (settings : Settings) (database : Database) (connection : String) :
    Decidable (settings.NeverRunsOut database connection) :=
  inferInstanceAs (Decidable (_ = []))

namespace Conversion

variable {source : Source} {settings : Settings} {database : Database} {catalog : Catalog}
  {connection label : String} {deep : Prop} {s s' : State} {u : Unit}

theorem Safe.resolveConnection (none : s.output.connections = []) :
    Safe deep (resolveConnection label) s := by
  refine (Safe.uniqueName _ s).bind fun name s₁ named => ?_
  have answer := uniqueName_answered named fun _ h => nomatch h
  refine (Safe.modify _).bind fun _ s₂ set => ?_
  obtain rfl := modify_ok set
  refine .store fun _ => Output.Shelf.connections.exists_insert ?_
  change name ∉ s₁.output.connections.map _
  rw [answer.output, none]
  exact List.not_mem_nil

theorem Safe.opening : Safe deep (opening source database connection) (.initial settings) := by
  have light := Light.resolveCatalog source database.name
  refine (light.safe _).bind fun made s₁ cataloged => ?_
  have asks : Asks (.initial settings) s₁ := light.keeps _ _ _ cataloged
  refine (Safe.resolveConnection (congrArg Output.connections asks.output)).bind fun _ s₂ _ => ?_
  refine ((Safe.modify _).bind fun _ s₃ _ => (Light.log _).safe s₃).bind fun _ s₄ _ => ?_
  exact (Light.reserveDimensionNames.safe s₄).bind fun _ s₅ _ => (Light.pure _).safe s₅

theorem Safe.prepare (apart : source.model.TablesApart)
    (measures : ∀ t ∈ source.model.tables, t.MeasuresApart) :
    Safe deep (prepare source database connection) (.initial settings) := by
  rw [prepare_eq]
  refine Safe.opening.bind fun made s₁ opened => ?_
  have before := opening_ok opened
  have nothing : s₁.output.metricNames = [] := by
    rw [Output.metricNames, before.unmeasured.metrics]
    rfl
  refine (Adds.resolveSimpleMeasures (nodup_measureKeys apart measures) fun key =>
    .of_nil nothing (before.names.apart .nil)).safe.bind fun _ s₂ simplified => ?_
  obtain ⟨simplifying, -, -⟩ := resolveSimpleMeasures_ok simplified
  refine (Guarded.resolveDatasets.safe s₂ {
    reliable := simplifying.reliable before.sound
    linked := resolveSimpleMeasures_linked simplified before.unmeasured.linked }).bind
      fun _ s₃ _ => (Light.pure _).safe s₃

section Reclassified

variable (apart : source.model.TablesApart)
  (before : Reclassified source settings database catalog s)
  (dimensionless : s.output.dimensions = [])
include apart before dimensionless

theorem Reclassified.dimensioned (joinless : s.output.joinNames = [])
    (h : (resolveDimensions source).run s = .ok (u, s')) :
    Dimensioned source s.tables s' ∧ s'.output.joinNames = [] := by
  obtain ⟨moves, -, dimensions⟩ := resolveDimensions_ready apart before h
  have spared : Spares (·.joinNames) s s' :=
    Keeps.resolveDimensions source (.addDimension rfl) _ _ _ h
  have none : s'.output.joinNames = [] := spared.trans joinless
  refine ⟨{
    tables := moves.extension.tables
    reliable := moves.reliable before.sound
    registry := (before.names.trans moves.extension.names).apart .nil
    dimension := dimensions
    count := ?_
    dataset := fun name used => ?_
    joins := fun name found => by
      rw [none] at found
      cases found }, none⟩
  · have labels := resolveDimensions_labels h
    rw [dimensionless, before.dimensionTables] at labels
    simpa using congrArg List.length labels
  · obtain ⟨t, ht, rfl⟩ := before.tables used
    exact (before.covered t ht used).mono moves.extension.toGrows

theorem Reclassified.safe_finish
    (perspectives : (source.model.perspectives.map fun p => lower p.name).Nodup)
    (joins : (joinKeys source.model).Nodup) (joinless : s.output.joinNames = [])
    (unseen : s.output.perspectives = []) :
    Safe source.Deep (finish source catalog label) s := by
  refine (Safe.resolveDimensions apart.distinct dimensionless (before.names.apart .nil)).bind
    fun _ s₁ described => ?_
  obtain ⟨first, joinless⟩ := before.dimensioned apart dimensionless joinless described
  obtain ⟨relating, settle⟩ := Safe.resolveRelationships apart joins first joinless
  refine relating.bind fun _ s₂ related => ?_
  refine Guarded.resolveColumnMetrics.bind_safe (settle _ s₂ related) fun _ s₃ summed third => ?_
  have targets : s.tables.right ⊆ s.tables.dimension :=
    before.classified ▸ TableLists.right_subset_dimension source.model s.metricTables
  refine (Guarded.backfillRelationships apart targets).bind_safe third
    fun _ s₄ filled fourth => ?_
  let views (o : Output) : List Perspective := o.perspectives
  have spared : Spares views s s₄ := calc
    Spares views s s₁ := Keeps.resolveDimensions source (.addDimension rfl) _ _ _ described
    Spares views _ s₂ := Keeps.resolveRelationships source
      (.addSelfJoin source fun _ => .addJoin rfl)
      (.resolveRelationship source (fun _ => .addJoin rfl) (.addNestedJoin rfl)) _ _ _ related
    Spares views _ s₃ :=
      Keeps.resolveColumnMeasures source (fun _ _ => .addMetric rfl) _ _ _ summed
    Spares views _ s₄ := Keeps.backfillRelationships (R := Spares views) source
      (.addSelfJoin source fun _ => .addJoin rfl) (fun _ _ => rfl) _ _ _ filled
  obtain ⟨viewing, keep⟩ := Safe.resolvePerspectives perspectives fourth (spared.trans unseen)
  refine viewing.bind fun _ s₅ viewed => ?_
  exact (Safe.assembleModel (keep _ s₅ viewed)).bind fun _ s₆ _ => (Light.pure _).safe s₆

end Reclassified

theorem run_safe (apart : source.model.TablesApart)
    (measures : ∀ t ∈ source.model.tables, t.MeasuresApart)
    (perspectives : (source.model.perspectives.map fun p => lower p.name).Nodup)
    (joins : (joinKeys source.model).Nodup) :
    Safe source.Deep (run source database connection) (.initial settings) := by
  rw [run_eq]
  refine (Safe.prepare apart measures).bind fun made s₀ prepared => ?_
  have before : Prepared source settings database made s₀ := prepare_ok prepared
  refine (Light.reportUnreferencedHelpers.safe s₀).bind fun _ s₁ reported => ?_
  refine ((Light.get.safe s₁).bind fun _ s₂ _ => .modify _).bind fun _ s₂ classified => ?_
  obtain ⟨after, only⟩ := before.reclassified apart.distinct reported classified
  have unjoined : Spares (·.joinNames) (.initial settings) s₀ :=
    Spares.prepare rfl rfl rfl rfl source database connection _ _ _ prepared
  have unseen : Spares (·.perspectives) (.initial settings) s₀ :=
    Spares.prepare rfl rfl rfl rfl source database connection _ _ _ prepared
  refine after.safe_finish apart ?_ perspectives joins ?_ ?_
  · exact (congrArg Output.dimensions only.output).trans before.dimensionless
  · exact (congrArg Output.joinNames only.output).trans unjoined
  · exact (congrArg Output.perspectives only.output).trans unseen

/-- No identifier is given to two objects and no owner is missed: what can keep a conversion from
its result is a path of dimensions that is too long, where more tables are dimensions than it may
hold. Columns and hierarchies may share names. -/
theorem convertWith_total [Sql.Parser] (valid : settings.validate = .ok ())
    (apart : database.model.TablesApart) (measures : ∀ t ∈ database.model.tables, t.MeasuresApart)
    (perspectives : (database.model.perspectives.map fun p => lower p.name).Nodup)
    (joins : (joinKeys database.model).Nodup)
    (fresh : settings.NeverRunsOut database connection) :
    (∀ e, convertWith settings database connection = .error e →
      ∃ path, e = .depthExceeded path) ∧
    (database.model.dimensionTables.length ≤ settings.relationships.maxDepth →
      ∃ c, convertWith settings database connection = .ok c) := by
  let source : Source := ⟨database.model, settings⟩
  have safe : Safe source.Deep (run source database connection) (.initial settings) :=
    run_safe apart measures perspectives joins
  rw [convertWith_eq valid]
  rw [Settings.NeverRunsOut] at fresh
  cases ran : (run ⟨database.model, settings⟩ database connection).run (.initial settings) with
  | error halt =>
    rw [ran] at fresh
    obtain ⟨deep, path⟩ := safe halt ran fresh
    refine ⟨fun e failed => ?_, fun few => absurd deep (Nat.not_lt.2 few)⟩
    cases failed
    exact path
  | ok result => exact ⟨fun e failed => (nomatch failed), fun _ => ⟨_, rfl⟩⟩

attribute [local instance] Sql.Parser.lenient

theorem shop_neverRunsOut : Settings.NeverRunsOut {} shop "warehouse" := by
  obtain ⟨_, _, _, ran, free, -⟩ := run_shop
  rw [Settings.NeverRunsOut, ran]
  exact free

theorem convertWith_total_shop : ∃ c, convertWith {} shop "warehouse" = .ok c :=
  (convertWith_total (by decide) shop_tablesApart (by decide +kernel) (by decide +kernel)
    (by decide +kernel) shop_neverRunsOut).2 (by decide +kernel)

example : (convertWith { relationships := { maxDepth := 1 } } shop "warehouse").isOk = false := by
  decide +kernel

end Conversion

end SemanticLayer
