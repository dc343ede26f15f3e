import SemanticLayer.Proofs.Conversion.Whole

set_option autoImplicit false

namespace SemanticLayer

open Tabular (Database Table)
open Identifier

/-- The run of a conversion with these settings gives out safe identifiers only. -/
def Settings.NeverExhausted [Sql.Parser] (settings : Settings) (database : Database)
    (connection : String) : Prop :=
  ∀ result s, (Conversion.run ⟨database.model, settings⟩ database connection).run
    (.initial settings) = .ok (result, s) → s.names.exhausted = []

instance [Sql.Parser] (settings : Settings) (database : Database) (connection : String) :
    Decidable (settings.NeverExhausted database connection) :=
  match ran : (Conversion.run ⟨database.model, settings⟩ database connection).run
      (.initial settings) with
  | .error _ => isTrue fun _ _ h => nomatch ran.symm.trans h
  | .ok (_, s) => decidable_of_iff (s.names.exhausted = []) ⟨fun fresh _ _ h => by
      cases ran.symm.trans h
      exact fresh, fun fresh => fresh _ _ ran⟩

namespace Conversion

def joins (c : Conversion) : List Relationship :=
  c.models.flatMap (·.relationships) ++ c.dimensions.flatMap (·.relationships)

def datasetNames (c : Conversion) : List String := c.datasets.map (·.uniqueName)

def dimensionNames (c : Conversion) : List String := c.dimensions.map (·.uniqueName)

def measureNames (c : Conversion) : List String :=
  c.metrics.map (·.uniqueName) ++ c.metricCalcs.map (·.uniqueName)

def Owns (d : Dimension) (level : String) : Prop :=
  level ∈ d.levelAttributes.map (·.uniqueName)

structure Closed (c : Conversion) : Prop where
  metrics : ∀ m ∈ c.metrics, m.dataset ∈ c.datasetNames
  levelAttributes : ∀ d ∈ c.dimensions, ∀ a ∈ d.levelAttributes, a.dataset ∈ c.datasetNames
  secondaryAttributes : ∀ d ∈ c.dimensions, ∀ a ∈ d.secondaryAttributes,
    a.dataset ∈ c.datasetNames
  sources : ∀ r ∈ c.joins, r.source.dataset ∈ c.datasetNames
  levels : ∀ d ∈ c.dimensions, ∀ h ∈ d.hierarchies, ∀ l ∈ h.levels, Owns d l.uniqueName
  /-- The level belongs to the dimension and to no other one. -/
  targets : ∀ r ∈ c.joins, ∃ d ∈ c.dimensions, d.uniqueName = r.target.dimension ∧
    Owns d r.target.level ∧ ∀ d' ∈ c.dimensions, Owns d' r.target.level → d' = d
  modelMetrics : ∀ m ∈ c.models, ∀ name ∈ m.metrics, name ∈ c.measureNames
  modelDimensions : ∀ m ∈ c.models, ∀ name ∈ m.dimensions, name ∈ c.dimensionNames
  perspectiveMetrics : ∀ m ∈ c.models, ∀ p ∈ m.perspectives, ∀ name ∈ p.metrics,
    name ∈ c.measureNames
  perspectiveDimensions : ∀ m ∈ c.models, ∀ p ∈ m.perspectives, ∀ q ∈ p.dimensions,
    ∃ d ∈ c.dimensions, d.uniqueName = q.name ∧
      ∀ name ∈ q.hierarchies, name ∈ d.hierarchies.map (·.uniqueName)

def ofOutput (catalog : Catalog) (m : Model) (s : State) : Conversion where
  catalog
  models := [m]
  datasets := s.output.datasets
  metrics := s.output.metrics
  metricCalcs := s.output.metricCalcs
  dimensions := s.output.dimensions
  connections := s.output.connections
  diagnostics := s.diagnostics

section Run

variable [Sql.Parser] {settings : Settings} {database : Database} {connection : String}

theorem convertWith_ok {c : Conversion} (h : convertWith settings database connection = .ok c) :
    ∃ catalog m s, (run ⟨database.model, settings⟩ database connection).run (.initial settings) =
      .ok ((catalog, m), s) ∧ ofOutput catalog m s = c := by
  unfold convertWith at h
  split at h
  · cases h
  dsimp only at h
  cases ran : (run ⟨database.model, settings⟩ database connection).run (.initial settings) with
  | error e =>
    rw [ran] at h
    cases h
  | ok result =>
    rw [ran] at h
    cases h
    exact ⟨_, _, _, rfl, rfl⟩

theorem convertWith_eq (valid : settings.validate = .ok ()) :
    convertWith settings database connection =
      match (run ⟨database.model, settings⟩ database connection).run (.initial settings) with
      | .error halt => .error halt.error
      | .ok ((catalog, m), s) => .ok (ofOutput catalog m s) := by
  have fine : settings.problem? = none := by
    rw [Settings.validate] at valid
    split at valid
    · cases valid
    · assumption
  rw [convertWith, fine]
  dsimp only
  cases (run ⟨database.model, settings⟩ database connection).run (.initial settings) <;> rfl

theorem convertWith_of_run {catalog : Catalog} {m : Model} {s : State}
    (valid : settings.validate = .ok ())
    (ran : (run ⟨database.model, settings⟩ database connection).run (.initial settings) =
      .ok ((catalog, m), s)) :
    convertWith settings database connection = .ok (ofOutput catalog m s) := by
  rw [convertWith_eq valid, ran]

theorem neverExhausted_of_run {result : Catalog × Model} {s : State}
    (ran : (run ⟨database.model, settings⟩ database connection).run (.initial settings) =
      .ok (result, s)) (free : s.names.exhausted = []) :
    settings.NeverExhausted database connection := by
  intro result' s' ran'
  cases ran.symm.trans ran'
  exact free

theorem exists_run {p : Catalog → Model → State → Prop} [∀ catalog m s, Decidable (p catalog m s)]
    (h : ((run ⟨database.model, settings⟩ database connection).run
      (.initial settings)).toOption.any fun r => p r.1.1 r.1.2 r.2) :
    ∃ catalog m s, (run ⟨database.model, settings⟩ database connection).run (.initial settings) =
      .ok ((catalog, m), s) ∧ p catalog m s := by
  obtain ⟨⟨⟨catalog, m⟩, s⟩, ran, holds⟩ := exists_except_ok h
  exact ⟨catalog, m, s, ran, holds⟩

theorem exists_convertWith {p : Conversion → Prop} [DecidablePred p]
    (h : (convertWith settings database connection).toOption.any (p ·)) :
    ∃ c, convertWith settings database connection = .ok c ∧ p c :=
  exists_except_ok h

end Run

variable {source : Source} {s : State}

theorem ModelOf.joins_ofOutput {m : Model} (h : ModelOf s m) (catalog : Catalog) :
    (ofOutput catalog m s).joins = s.output.allJoins := by
  simp [Conversion.joins, ofOutput, Output.allJoins, h.relationships]

theorem Sound.eq_of_owns (sound : Sound source s) (fresh : s.names.exhausted = [])
    (apart : source.model.TablesApart) {d d' : Dimension} {level : String}
    (hd : d ∈ s.output.dimensions) (hd' : d' ∈ s.output.dimensions) (owns : Owns d level)
    (owns' : Owns d' level) : d' = d := by
  obtain ⟨t, made⟩ := sound.dimensions d hd
  obtain ⟨t', made'⟩ := sound.dimensions d' hd'
  obtain ⟨a, ha, rfl⟩ := List.mem_map.1 owns
  obtain ⟨a', ha', same⟩ := List.mem_map.1 owns'
  -- Levels are named by keys that begin with the table, and a table has one dimension.
  have key := Registry.key_eq_of_lookup sound.registry fresh (made'.levels a' ha').key
    (made.levels a ha).key (congrArg Text.lower same)
  have table := (Key.level_inj (apart.plain t' made'.mem) (apart.plain t made.mem) key).1
  obtain rfl := apart.eq_of_lower made'.mem made.mem table
  have names : d'.uniqueName = d.uniqueName := Option.some.inj (made'.key.symm.trans made.key)
  exact List.inj_on_of_nodup_map sound.distinct.dimensions hd' hd names

theorem Sound.dataset_label (sound : Sound source s) (fresh : s.names.exhausted = [])
    (distinct : source.model.TablesDistinct) {t : Table} {d : Dataset}
    (ht : t ∈ source.model.tables) (hd : d ∈ s.output.datasets)
    (known : s.names.lookup (Key.dataset t.name) = some d.uniqueName) : d.label = t.name := by
  obtain ⟨t', ht', key, connection, shape⟩ := sound.datasets d hd
  have same := Registry.key_eq_of_lookup sound.registry fresh key known rfl
  obtain rfl := distinct.eq_of_lower ht' ht (Key.dataset_inj same)
  rw [shape]
  rfl

theorem Sound.dataset_key (sound : Sound source s) {d : Dataset} (hd : d ∈ s.output.datasets) :
    s.names.lookup (Key.dataset d.label) = some d.uniqueName := by
  obtain ⟨t, -, key, connection, shape⟩ := sound.datasets d hd
  rw [shape]
  exact key

theorem HasDataset.mem {table dataset : String} (h : HasDataset s table)
    (key : s.names.lookup (Key.dataset table) = some dataset) :
    dataset ∈ s.output.datasets.map (·.uniqueName) := by
  obtain ⟨name, known, made⟩ := h
  rwa [Option.some.inj (known.symm.trans key)] at made

/-- Every reference in a conversion is to an object in it. Only tables have to be told apart by
their names; columns, measures and hierarchies of a table may share theirs. -/
theorem convertWith_closed [Sql.Parser] {settings : Settings} {database : Database}
    {connection : String} {c : Conversion} (apart : database.model.TablesApart)
    (fresh : settings.NeverExhausted database connection)
    (h : convertWith settings database connection = .ok c) : c.Closed := by
  obtain ⟨catalog, m, s, ran, rfl⟩ := convertWith_ok h
  have free := fresh _ s ran
  have outcome := run_ok ⟨database.model, settings⟩ apart ran
  have sound := outcome.sound free
  have joins := outcome.model.joins_ofOutput catalog
  have perspective (m' : Model) (hm' : m' ∈ [m]) (p : Perspective) (hp : p ∈ m'.perspectives) :
      PerspectiveOf s p := by
    rw [List.mem_singleton.1 hm', outcome.model.perspectives] at hp
    exact sound.perspectives p hp
  exact {
    metrics := fun e he => by
      obtain ⟨t, ht, key, -, backing⟩ := sound.metrics e he
      exact (outcome.backed t.name backing t (apart.table?_self ht)).mem key
    levelAttributes := fun d hd a ha => by
      obtain ⟨t, made⟩ := sound.dimensions d hd
      exact made.dataset.mem (made.levels a ha).dataset
    secondaryAttributes := fun d hd a ha => by
      obtain ⟨t, made⟩ := sound.dimensions d hd
      exact made.dataset.mem (made.secondary a ha).dataset
    sources := fun r hr => (sound.joins r (joins ▸ hr)).dataset
    levels := fun d hd k hk l hl => by
      obtain ⟨t, made⟩ := sound.dimensions d hd
      exact (made.hierarchies k hk).levels l hl
    targets := fun r hr => by
      obtain ⟨d, hd, name, level⟩ := (sound.joins r (joins ▸ hr)).target
      exact ⟨d, hd, name, level, fun d' hd' owns =>
        sound.eq_of_owns free apart hd hd' level owns⟩
    modelMetrics := fun m' hm' name hn => by
      rw [List.mem_singleton.1 hm', outcome.model.metrics] at hn
      exact hn
    modelDimensions := fun m' hm' name hn => by
      rw [List.mem_singleton.1 hm'] at hn
      exact outcome.dimensions free name hn
    perspectiveMetrics := fun m' hm' p hp => (perspective m' hm' p hp).metrics
    perspectiveDimensions := fun m' hm' p hp => (perspective m' hm' p hp).dimensions }

/-- Sales of products and their makers. One measure counts row numbers, one refers to itself, and
one relationship is inactive. -/
def shop : Database where
  name := "Shop"
  model := {
    tables := [
      { name := "Sales"
        columns := [{ name := "RowNumber", columnType := some "rowNumber" },
          .data "Amount" "decimal", .data "Product" "int64"]
        measures := [
          { name := "Total", expression := ⟨"SUM(Sales[Amount])"⟩ },
          { name := "Share", expression := ⟨"[Total] / 100"⟩ },
          { name := "Rows", expression := ⟨"COUNT(Sales[RowNumber])"⟩ },
          { name := "Loop", expression := ⟨"[Share] + [Loop]"⟩ }] },
      { name := "Product"
        columns := [.data "Product" "int64", .data "Group" "string", .data "Color" "string",
          .data "Maker" "int64"]
        hierarchies := [.ofLevels "Products" [("Group", "Group")]] },
      { name := "Maker", columns := [.data "Maker" "int64", .data "Country" "string"] }]
    relationships := [
      { fromTable := "Sales", fromColumn := "Product"
        toTable := "Product", toColumn := "Product" },
      { fromTable := "Product", fromColumn := "Maker", toTable := "Maker", toColumn := "Maker" },
      { fromTable := "Sales", fromColumn := "Amount", toTable := "Maker", toColumn := "Maker"
        isActive := false }]
    perspectives := [{
      name := "All"
      tables := [
        { name := "Sales", measures := ["Total"] },
        { name := "Product", hierarchies := ["Products"] }] }] }

theorem shop_tablesApart : shop.model.TablesApart := by decide +kernel

attribute [local instance] Sql.Parser.lenient

theorem run_shop : ∃ catalog m s,
    (run ⟨shop.model, {}⟩ shop "warehouse").run (.initial {}) = .ok ((catalog, m), s) ∧
      s.names.exhausted = [] ∧
      (∃ e ∈ s.output.metrics, e.dataset = "Sales" ∧ e.column = "RowNumber") ∧
      ∀ d ∈ s.output.datasets, "RowNumber" ∉ d.columns.map (·.name) :=
  exists_run (by decide +kernel)

theorem shop_neverExhausted : Settings.NeverExhausted {} shop "warehouse" := by
  obtain ⟨_, _, s, ran, free, -⟩ := run_shop
  exact neverExhausted_of_run ran free

theorem exists_convertWith_shop : ∃ c, convertWith {} shop "warehouse" = .ok c := by
  obtain ⟨_, _, _, ran, -⟩ := run_shop
  exact ⟨_, convertWith_of_run (by decide) ran⟩

theorem convertWith_closed_shop : ∃ c, convertWith {} shop "warehouse" = .ok c ∧ c.Closed :=
  exists_convertWith_shop.imp fun _ h =>
    ⟨h, convertWith_closed shop_tablesApart shop_neverExhausted h⟩

end Conversion

end SemanticLayer
