import SemanticLayer.Conversion.Basic
import SemanticLayer.Proofs.Conversion.Frame
import SemanticLayer.Proofs.Conversion.Perspectives
import SemanticLayer.Proofs.Conversion.Resolution

set_option autoImplicit false

/-!
A whole conversion. The steps before and after the second classification are put together; in
between only the classes of tables change. A table that is a fact or a dimension in the end has a
dataset by then, which is what joins and metrics of columns rest on.
-/
namespace SemanticLayer.Conversion

open Identifier
open Tabular (Table)

variable {source : Source} {phase : Phase} {s s' : State} {u : Unit}

theorem grows_tables (s : State) (tables : TableLists) : Grows s { s with tables } where
  names := .refl
  datasets := List.Subset.refl _
  dimensions d hd := ⟨d, hd, .refl d⟩
  metrics m hm := ⟨m, hm, .refl m⟩
  measureNames := List.Subset.refl _
  metricTables := List.Subset.refl _
  helpers := List.Subset.refl _
  aggregates _ _ known := known
  resolved _ known := known

theorem Sound.setTables (sound : Sound source s) (tables : TableLists) :
    Sound source { s with tables } :=
  sound.extend (grows_tables s tables) {} (sound.indexed.mono (grows_tables s tables) (.of_eq rfl))

theorem sound_initial (source : Source) (settings : Settings) :
    Sound source (.initial settings) where
  registry := .nil
  indexed := ⟨(fun _ _ _ _ h => nomatch h), fun _ _ _ _ h => nomatch h⟩
  connections _ h := nomatch h
  datasets _ h := nomatch h
  metrics _ h := nomatch h
  origins _ h := nomatch h
  metricCalcs _ h := nomatch h
  dimensions _ h := nomatch h
  joins _ h := nomatch h
  perspectives _ h := nomatch h
  aggregates _ h := nomatch h
  shared _ h := nomatch h
  resolved _ h := nomatch h
  backing _ h := nomatch h
  distinct := ⟨.nil, .nil, .nil, .nil, .nil, .nil, .nil, fun _ h => nomatch h⟩

/-- Nothing has been made of measures yet. -/
structure Unmeasured (s : State) : Prop where
  metrics : s.output.metrics = []
  metricCalcs : s.output.metricCalcs = []
  aggregates : s.measures.aggregates = []
  resolved : s.measures.resolved = []

theorem Unmeasured.mono (h : Unmeasured s) (only : OnlyNames s s') : Unmeasured s' where
  metrics := by rw [only.output, h.metrics]
  metricCalcs := by rw [only.output, h.metricCalcs]
  aggregates := by rw [only.measures, h.aggregates]
  resolved := by rw [only.measures, h.resolved]

theorem Unmeasured.simple (h : Unmeasured s) : Simple s where
  metrics name found := by
    rw [h.metrics] at found
    cases found
  aggregates e he := by
    rw [h.aggregates] at he
    cases he
  metricCalcs := h.metricCalcs

theorem Unmeasured.linked (h : Unmeasured s) : Linked source s where
  aggregates e he := by
    rw [h.aggregates] at he
    cases he
  resolved e he := by
    rw [h.resolved] at he
    cases he
  listed := by
    rw [h.metricCalcs]
    exact List.nil_subset _
  calcs := h.metricCalcs ▸ .nil _
  answers e he := by
    rw [h.metricCalcs] at he
    cases he
  order := by
    rw [h.resolved]
    exact .nil _

theorem resolveCatalog_ok {label : String} {catalog : Catalog}
    (h : (resolveCatalog source label).run s = .ok (catalog, s')) :
    Answered (Key.catalog label) catalog.uniqueName s s' := by
  obtain ⟨name, s₁, named, h⟩ := bind_ok h
  obtain ⟨rfl, rfl⟩ := pure_ok h
  exact uniqueName_answered named fun _ h => nomatch h

theorem resolveConnection_ok (source : Source) (phase : Phase) {label : String}
    (h : (resolveConnection label).run s = .ok (u, s')) :
    Moves source phase s s' ∧ (Unmeasured s → Unmeasured s') := by
  obtain ⟨name, s₁, named, h⟩ := bind_ok h
  obtain ⟨_, s₂, noted, h⟩ := bind_ok h
  obtain rfl := modify_ok noted
  have kind := Key.word_connection label
  have answer : Answered (Key.connection label) name s s₁ :=
    uniqueName_answered named fun _ h => nomatch h
  have asked : Moves source phase s s₁ :=
    answer.moves (by rw [kind]; decide) (by rw [kind]; decide)
  have only : OnlyNames s₁ { s₁ with connectionId := name } := ⟨.refl, rfl, rfl, rfl⟩
  have set : Moves source phase s₁ { s₁ with connectionId := name } :=
    .of_additions (only.extends phase) only.additions (.of_eq rfl)
  refine ⟨(asked.trans set).trans (addConnection_moves h ⟨_, kind, answer.known⟩), fun none => ?_⟩
  obtain ⟨o, added, rfl⟩ := store_ok h
  obtain ⟨rfl, -⟩ := Output.addConnection_ok added
  exact { none.mono answer.toOnlyNames with }

theorem reserveDimensionNames_ok (source : Source) (phase : Phase)
    (h : reserveDimensionNames.run s = .ok (u, s')) :
    Moves source phase s s' ∧ OnlyNames s s' := by
  obtain ⟨_, _, got, h⟩ := bind_ok h
  obtain ⟨rfl, rfl⟩ := get_ok got
  obtain ⟨_, s₁, loop, h⟩ := bind_ok h
  obtain ⟨-, rfl⟩ := pure_ok h
  refine forIn_ok (P := fun s' => Moves source phase s s' ∧ OnlyNames s s')
    ⟨.refl _ _ _, .refl s⟩ (fun t _ s₂ s₃ r turn before => ?_) loop
  obtain ⟨_, s₄, named, turn⟩ := bind_ok turn
  obtain ⟨rfl, rfl⟩ := pure_ok turn
  exact ⟨before.1.trans (dimensionName_moves named),
    before.2.trans (dimensionName_answered named).toOnlyNames⟩

/-- The keys of metrics and those of calculated metrics differ: which measures were resolved first
tells them apart. -/
def KeysApart (s : State) : Prop :=
  ∃ early : String → Prop,
    (∀ name ∈ s.output.metrics.map (·.uniqueName), ∃ key, s.names.lookup key = some name ∧
      (Key.word key = "aggregate" ∨ Key.word key = "measure" ∧ early key)) ∧
    ∀ name ∈ s.output.metricCalcs.map (·.uniqueName), ∃ key, s.names.lookup key = some name ∧
      Key.word key = "measure" ∧ ¬early key

theorem keysApart_of_phases {s₁ s₂ s₃ : State} {tables : TableLists} (simple : Simple s₁)
    (formulas : Extends .formulas s₁ s₂) (joins : Extends .joins { s₂ with tables } s₃) :
    KeysApart s₃ := by
  have later : s₁.names.Reaches s₃.names := formulas.names.trans joins.names
  refine ⟨fun key => s₁.measures.resolved.lookup key ≠ none, fun name hn => ?_, fun name hn => ?_⟩
  · rcases joins.newMetrics name hn with old | ⟨key, kind, known⟩
    · rcases formulas.newMetrics name old with older | ⟨key, kind, known⟩
      · obtain ⟨key, kind, known, resolved⟩ := simple.metrics name older
        exact ⟨key, later.lookup known, Or.inr ⟨kind, resolved⟩⟩
      · exact ⟨key, joins.names.lookup known, Or.inl kind⟩
    · exact ⟨key, known, Or.inl kind⟩
  · rcases joins.newCalcs name hn with old | ⟨wrong, -⟩
    · rcases formulas.newCalcs name old with older | ⟨-, key, kind, known, unresolved⟩
      · rw [simple.metricCalcs] at older
        cases older
      · exact ⟨key, joins.names.lookup known, kind, not_not.2 unresolved⟩
    · cases wrong

theorem hasDataset_of_classify {tables : TableLists} (distinct : source.model.TablesDistinct)
    (first : tables = classify source.model []) (backed : Backed source s)
    (placed : ∀ t ∈ source.model.tables, Placed tables t s) :
    ∀ t ∈ source.model.tables, t.name ∈ (classify source.model s.metricTables).fact ∨
      t.name ∈ (classify source.model s.metricTables).dimension → HasDataset s t.name := by
  intro t ht used
  by_cases backing : t.name ∈ s.metricTables
  · exact backed t.name (mem_metricTables.1 backing) t (distinct.table?_self ht)
  · obtain ⟨inUse, more⟩ := TableLists.used_of_classify distinct ht used backing
    exact (placed t ht).dataset (first ▸ inUse) (first ▸ more)

/-- The model ties together what was made. -/
structure ModelOf (s : State) (m : Model) : Prop where
  key : ∃ label, s.names.lookup (Key.model label) = some m.uniqueName
  relationships : m.relationships = s.output.relationships
  metrics : m.metrics = s.output.measureNames
  perspectives : m.perspectives = s.output.perspectives

theorem assembleModel_steps {label : String} {m : Model}
    (h : (assembleModel source label).run s = .ok (m, s')) : ∃ name s₁ exposed,
      (uniqueName { candidate := label, key := Key.model label, kind := .model }).run s =
        .ok (name, s₁) ∧
      modelDimensions source s₁ = .ok exposed ∧
      (log (orphanDiagnostics s₁.output exposed)).run s₁ = .ok ((), s') ∧
      m = {
        uniqueName := name
        label
        relationships := s₁.output.relationships
        metrics := s₁.output.measureNames
        dimensions := exposed
        perspectives := s₁.output.perspectives } := by
  obtain ⟨name, s₁, named, h⟩ := bind_ok h
  obtain ⟨_, _, got, h⟩ := bind_ok h
  obtain ⟨rfl, rfl⟩ := get_ok got
  obtain ⟨exposed, _, lifted, h⟩ := bind_ok h
  obtain ⟨found, rfl⟩ := lift_ok lifted
  obtain ⟨_, s₂, noted, h⟩ := bind_ok h
  obtain ⟨made, rfl⟩ := pure_ok h
  exact ⟨name, s₁, exposed, named, found, noted, made.symm⟩

theorem assembleModel_ok (phase : Phase) {label : String} {m : Model}
    (h : (assembleModel source label).run s = .ok (m, s')) :
    Moves source phase s s' ∧ OnlyNames s s' ∧ ModelOf s' m ∧
      (s'.names.exhausted = [] → Sound source s → ∀ name ∈ m.dimensions,
        name ∈ s'.output.dimensions.map (·.uniqueName)) := by
  obtain ⟨name, s₁, exposed, named, found, noted, rfl⟩ := assembleModel_steps h
  have kind := Key.word_model label
  have answer : Answered (Key.model label) name s s₁ :=
    uniqueName_answered named fun _ h => nomatch h
  have asked : Moves source phase s s₁ :=
    answer.moves (by rw [kind]; decide) (by rw [kind]; decide)
  obtain ⟨only, names⟩ := log_onlyNames noted
  refine ⟨asked.trans (log_moves noted), answer.toOnlyNames.trans only, {
    key := ⟨label, names ▸ answer.known⟩
    relationships := only.output ▸ rfl
    metrics := only.output ▸ rfl
    perspectives := only.output ▸ rfl }, fun fresh sound => ?_⟩
  rw [only.output]
  exact modelDimensions_mem (asked.sound (names ▸ fresh) sound) found

/-- The joins and the metrics of columns come when every table in use has its dataset. -/
theorem joins_moves {s₁ s₂ s₃ s₄ s₅ : State} {u₁ u₂ u₃ u₄ : Unit}
    (apart : source.model.TablesApart) (backed : Backed source s)
    (joined : ∀ t ∈ source.model.tables, t.name ∈ s.tables.fact ∨ t.name ∈ s.tables.dimension →
      HasDataset s t.name)
    (facts : ∀ name ∈ s.tables.fact, ∃ t ∈ source.model.tables, t.name = name)
    (described : (resolveDimensions source).run s = .ok (u, s₁))
    (related : (resolveRelationships source).run s₁ = .ok (u₁, s₂))
    (summed : (resolveColumnMeasures source).run s₂ = .ok (u₂, s₃))
    (filled : (backfillRelationships source).run s₃ = .ok (u₃, s₄))
    (viewed : (resolvePerspectives source).run s₄ = .ok (u₄, s₅)) : Moves source .joins s s₅ := by
  have based : ∀ name ∈ s.tables.fact, Based source s name := by
    intro name fact
    obtain ⟨t, ht, rfl⟩ := facts name fact
    exact (joined t ht (Or.inl fact)).based
  obtain ⟨first, complete⟩ := resolveDimensions_ok apart
    (fun t ht isDimension => joined t ht (Or.inr isDimension)) described
  have second : Moves source .joins s₁ s₂ := by
    refine resolveRelationships_moves apart (fun name fact => ?_) related
    rw [first.extension.tables] at fact
    exact (based name fact).mono first.extension.toGrows
  have third : Moves source .joins s₁ s₃ := by
    refine second.trans (resolveColumnMeasures_moves (fun t ht fact => ?_) summed)
    rw [(first.trans second).extension.tables] at fact
    exact (joined t ht (Or.inl fact)).mono (first.trans second).extension.toGrows
  have fourth : Moves source .joins s₁ s₄ := by
    have backed := backed.extends (first.trans third).extension
    exact third.trans (backfillRelationships_moves apart backed filled)
  refine (first.trans fourth).trans (resolvePerspectives_moves (fun t ht isDimension => ?_) viewed)
  rw [(first.trans fourth).extension.tables] at isDimension
  exact (complete t ht isDimension).1.mono fourth.extension.toGrows

/-- What an aggregation is known by, if it is all of some measure, belongs to a measure. -/
def Owned (source : Source) (s : State) : Prop :=
  ∀ t ∈ source.model.tables, ∀ m ∈ t.measures, ∀ call target,
    Formula.singleAggregate m.expression.text.toList = some call →
      aggregateTarget source call = .ok target → ∃ key name, Key.word key = "measure" ∧
        s.names.lookup key = some name ∧ s.measures.aggregates.lookup target.key = some name

theorem Owned.mono (h : Owned source s) (grows : Grows s s') : Owned source s' := by
  intro t ht m hm call target single found
  obtain ⟨key, name, kind, known, recalled⟩ := h t ht m hm call target single found
  exact ⟨key, name, kind, grows.names.lookup known, grows.aggregates _ _ recalled⟩

theorem Simple.owned (h : Simple s)
    (recognised : ∀ t ∈ source.model.tables, ∀ m ∈ t.measures, Recognised source m s) :
    Owned source s := by
  intro t ht m hm call target single found
  obtain ⟨name, recalled⟩ :=
    Option.ne_none_iff_exists'.1 (recognised t ht m hm call target single found)
  obtain ⟨key, kind, known, -⟩ := h.metrics name (h.aggregates _ (mem_of_lookup recalled))
  exact ⟨key, name, kind, known, recalled⟩

theorem reportUnreferencedHelpers_ok (source : Source) (phase : Phase)
    (h : reportUnreferencedHelpers.run s = .ok (u, s')) :
    Moves source phase s s' ∧ OnlyNames s s' := by
  obtain ⟨_, _, got, h⟩ := bind_ok h
  obtain ⟨rfl, rfl⟩ := get_ok got
  exact ⟨log_moves h, (log_onlyNames h).1⟩

theorem reclassify_ok (h : (reclassify source).run s = .ok (u, s')) :
    s' = { s with tables := classify source.model s.metricTables } := by
  obtain ⟨_, _, got, h⟩ := bind_ok h
  obtain ⟨rfl, rfl⟩ := get_ok got
  exact modify_ok h

def opening (source : Source) (database : Tabular.Database) (connection : String) :
    Run Catalog := do
  let catalog ← resolveCatalog source database.name
  resolveConnection connection
  classifyTables source
  reserveDimensionNames
  return catalog

def prepare (source : Source) (database : Tabular.Database) (connection : String) :
    Run Catalog := do
  let catalog ← resolveCatalog source database.name
  resolveConnection connection
  classifyTables source
  reserveDimensionNames
  resolveSimpleMeasures source
  resolveDatasets source
  return catalog

theorem prepare_eq (source : Source) (database : Tabular.Database) (connection : String) :
    prepare source database connection = (do
      let catalog ← opening source database connection
      resolveSimpleMeasures source
      resolveDatasets source
      return catalog) := by
  simp only [prepare, opening, bind_assoc, pure_bind]

def finish (source : Source) (catalog : Catalog) (label : String) : Run (Catalog × Model) := do
  resolveDimensions source
  resolveRelationships source
  resolveColumnMeasures source
  backfillRelationships source
  resolvePerspectives source
  let model ← assembleModel source label
  return (catalog, model)

theorem run_eq (source : Source) (database : Tabular.Database) (connection : String) :
    run source database connection = (do
      let catalog ← prepare source database connection
      reportUnreferencedHelpers
      reclassify source
      finish source catalog (database.model.name.getD database.name)) := by
  simp only [run, prepare, finish, bind_assoc, pure_bind]

section Finish

variable {R : State → State → Prop} [Frame R]
  (metric : ∀ m : Metric, m.unrelatedDimensions = none → Admits R (·.addMetric m))
  (perspective : ∀ p, Admits R (·.addPerspective p))
  (repeats : ∀ s dataset, R s { s with output := repeatMetrics dataset s.output })
include metric perspective repeats

theorem Keeps.afterRelationships (source : Source) (catalog : Catalog) (label : String)
    (own : ∀ table, Keeps R (Conversion.addSelfJoin source table)) : Keeps R (do
      Conversion.resolveColumnMeasures source
      Conversion.backfillRelationships source
      Conversion.resolvePerspectives source
      let model ← Conversion.assembleModel source label
      return (catalog, model)) :=
  .bind (.resolveColumnMeasures source metric) fun _ =>
    .bind (.backfillRelationships source own repeats) fun _ =>
      .bind (.resolvePerspectives source perspective) fun _ =>
        .bind (.assembleModel source label) fun _ => .pure _

variable (join : ∀ r, Admits R (·.addJoin r))
  (nested : ∀ owner r, Admits R (·.addNestedJoin owner r))
include join nested

theorem Keeps.afterDimensions (source : Source) (catalog : Catalog) (label : String) :
    Keeps R (do
      Conversion.resolveRelationships source
      Conversion.resolveColumnMeasures source
      Conversion.backfillRelationships source
      Conversion.resolvePerspectives source
      let model ← Conversion.assembleModel source label
      return (catalog, model)) :=
  .bind (.resolveRelationships source (.addSelfJoin source join)
    (.resolveRelationship source join nested)) fun _ =>
      .afterRelationships metric perspective repeats source catalog label (.addSelfJoin source join)

theorem Keeps.finish (dimension : ∀ d, d.relationships = [] → Admits R (·.addDimension d))
    (source : Source) (catalog : Catalog) (label : String) :
    Keeps R (finish source catalog label) :=
  .bind (.resolveDimensions source dimension) fun _ =>
    .afterDimensions metric perspective repeats join nested source catalog label

end Finish

/-- If there are no joins before, there are none after. -/
def StaysJoinless (s s' : State) : Prop := s.output.allJoins = [] → s'.output.allJoins = []

instance : Frame StaysJoinless where
  same s s' _ output _ := by
    rw [StaysJoinless, output]
    exact id
  trans _ _ _ h h' := h' ∘ h
  name _ _ := id

theorem StaysJoinless.addDimension (d : Dimension) (plain : d.relationships = []) :
    Admits StaysJoinless (·.addDimension d) := fun s o h none => by
  obtain ⟨rfl, -⟩ := Output.addDimension_ok h plain
  exact (Output.allJoins_insert s.output plain).trans none

section Start

variable {R : State → State → Prop} [JoinFreeFrame R]
  (connection : ∀ c, Admits R (·.addConnection c))
include connection

theorem Keeps.opening (source : Source) (database : Tabular.Database) (label : String) :
    Keeps R (opening source database label) :=
  .bind (Light.keeps (.resolveCatalog source _)) fun _ =>
    .bind (.resolveConnection connection _) fun _ =>
      .bind (.classifyTables source) fun _ => .bind (Light.keeps .reserveDimensionNames) fun _ =>
        .pure _

theorem Keeps.prepare
    (metric : ∀ m : Metric, m.unrelatedDimensions = none → Admits R (·.addMetric m))
    (metricCalc : ∀ m, Admits R (·.addMetricCalc m)) (source : Source)
    (dataset : ∀ t ∈ source.model.tables, ∀ connectionId uniqueName,
      Admits R (·.addDataset (tableDataset source.settings connectionId uniqueName t)))
    (database : Tabular.Database) (label : String) :
    Keeps R (prepare source database label) := by
  rw [prepare_eq]
  exact .bind (.opening connection source database label) fun _ =>
    .bind (.resolveSimpleMeasures source metric) fun _ =>
      .bind (.resolveDatasets source metric metricCalc dataset) fun _ => .pure _

omit connection in
theorem Spares.prepare {B : Type} {part : Output → B}
    (connection : ∀ {o : Output} {connectionMap}, part { o with connectionMap } = part o)
    (metric : ∀ {o : Output} {metricMap}, part { o with metricMap } = part o)
    (metricCalc : ∀ {o : Output} {metricCalcMap}, part { o with metricCalcMap } = part o)
    (dataset : ∀ {o : Output} {datasetMap}, part { o with datasetMap } = part o)
    (source : Source) (database : Tabular.Database) (label : String) :
    Keeps (Spares part) (Conversion.prepare source database label) :=
  .prepare (fun _ => .addConnection connection) (fun _ _ => .addMetric metric)
    (fun _ => .addMetricCalc metricCalc) source (fun _ _ _ _ => .addDataset dataset) database label

end Start

/-- A conversion that has made no more than a connection. -/
structure Opened (source : Source) (settings : Settings) (database : Tabular.Database)
    (catalog : Catalog) (s : State) : Prop where
  names : (State.initial settings).names.Reaches s.names
  sound : s.names.exhausted = [] → Sound source s
  tables : s.tables = classify source.model []
  catalog : s.names.lookup (Key.catalog database.name) = some catalog.uniqueName
  unmeasured : Unmeasured s
  empty : { s.output with connectionMap := .ofList [] } = ({} : Output)

theorem opening_ok {settings : Settings} {database : Tabular.Database} {connection : String}
    {catalog : Catalog}
    (h : (opening source database connection).run (.initial settings) = .ok (catalog, s)) :
    Opened source settings database catalog s := by
  let part (o : Output) : Output := { o with connectionMap := .ofList [] }
  have empty : Spares part (.initial settings) s :=
    Keeps.opening (fun _ => .addConnection rfl) source database _ _ _ _ h
  obtain ⟨made, s₁, cataloged, h⟩ := bind_ok h
  obtain ⟨_, s₂, connected, h⟩ := bind_ok h
  obtain ⟨_, s₃, classified, h⟩ := bind_ok h
  obtain ⟨_, s₄, reserved, h⟩ := bind_ok h
  obtain ⟨rfl, rfl⟩ := pure_ok h
  obtain ⟨_, _, set, noted⟩ := bind_ok classified
  obtain rfl := modify_ok set
  have answer := resolveCatalog_ok cataloged
  have kind := Key.word_catalog database.name
  have cataloging : Moves source .aggregations (.initial settings) s₁ :=
    answer.moves (by rw [kind]; decide) (by rw [kind]; decide)
  obtain ⟨connecting, none⟩ := resolveConnection_ok source .aggregations connected
  obtain ⟨reserving, only⟩ := reserveDimensionNames_ok source .aggregations reserved
  let start : State := { s₂ with tables := classify source.model [] }
  have noting : OnlyNames start s₃ := (log_onlyNames noted).1
  have first := cataloging.trans connecting
  have second : Moves source .aggregations start s₄ := (log_moves noted).trans reserving
  have unmeasured : Unmeasured start := {
    none (Unmeasured.mono ⟨rfl, rfl, rfl, rfl⟩ answer.toOnlyNames) with }
  exact {
    names := first.extension.names.trans second.extension.names
    sound := fun fresh => by
      have sound := first.sound (second.extension.names.exhausted fresh)
        (sound_initial source settings)
      exact second.sound fresh (sound.setTables _)
    tables := second.extension.tables
    catalog := second.extension.names.lookup (connecting.extension.names.lookup answer.known)
    unmeasured := (unmeasured.mono noting).mono only
    empty }

/-- A conversion right after dataset resolution. -/
structure Prepared (source : Source) (settings : Settings) (database : Tabular.Database)
    (catalog : Catalog) (s : State) : Prop where
  names : (State.initial settings).names.Reaches s.names
  sound : s.names.exhausted = [] → Sound source s
  backed : Backed source s
  placed : ∀ t ∈ source.model.tables, Placed (classify source.model []) t s
  needed : ∀ d ∈ s.output.datasets, ∃ t ∈ source.model.tables, d.label = t.name ∧
    Needed source (classify source.model []) s t
  catalog : s.names.lookup (Key.catalog database.name) = some catalog.uniqueName
  /-- The measures that are one aggregation came first. -/
  simple : ∃ s₀, Simple s₀ ∧ Extends .formulas s₀ s
  owned : Owned source s
  linked : Linked source s
  dimensionless : s.output.dimensions = []
  joinless : s.output.relationships = []

theorem prepare_ok {settings : Settings} {database : Tabular.Database} {connection : String}
    {catalog : Catalog}
    (h : (prepare source database connection).run (.initial settings) = .ok (catalog, s)) :
    Prepared source settings database catalog s := by
  have dimensionless : Spares (·.dimensions) (.initial settings) s :=
    Spares.prepare rfl rfl rfl rfl source database connection _ _ _ h
  have joinless : Spares (·.relationships) (.initial settings) s :=
    Spares.prepare rfl rfl rfl rfl source database connection _ _ _ h
  rw [prepare_eq] at h
  obtain ⟨made, s₁, opened, h⟩ := bind_ok h
  obtain ⟨_, s₂, simplified, h⟩ := bind_ok h
  obtain ⟨_, s₃, placed, h⟩ := bind_ok h
  obtain ⟨rfl, rfl⟩ := pure_ok h
  have before : Opened source settings database made s₁ := opening_ok opened
  obtain ⟨simplifying, simple, recognised⟩ := resolveSimpleMeasures_ok simplified
  obtain ⟨placing, backed, datasets⟩ := resolveDatasets_ok placed
  have tables := simplifying.extension.tables.trans before.tables
  have first := simple before.unmeasured.simple
  have names := simplifying.extension.names.trans placing.extension.names
  exact {
    names := before.names.trans names
    sound := fun fresh => by
      have fresh₂ := placing.extension.names.exhausted fresh
      exact placing.sound fresh (simplifying.sound fresh₂
        (before.sound (simplifying.extension.names.exhausted fresh₂)))
    backed
    placed := tables ▸ datasets
    needed := fun d hd => by
      rcases resolveDatasets_needed placed d hd with old | made
      · have spared : s₂.output.datasets = s₁.output.datasets :=
          Keeps.resolveSimpleMeasures (R := Spares (·.datasets)) source (fun _ _ => .addMetric rfl)
            _ _ _ simplified
        rw [spared, congrArg Output.datasets before.empty] at old
        cases old
      · exact tables ▸ made
    catalog := names.lookup before.catalog
    simple := ⟨s₂, first, placing.extension⟩
    owned := (first.owned recognised).mono placing.extension.toGrows
    linked := resolveDatasets_linked placed
      (resolveSimpleMeasures_linked simplified before.unmeasured.linked)
    dimensionless
    joinless }

structure Reclassified (source : Source) (settings : Settings) (database : Tabular.Database)
    (catalog : Catalog) (s : State) : Prop where
  names : (State.initial settings).names.Reaches s.names
  sound : s.names.exhausted = [] → Sound source s
  backed : Backed source s
  classified : s.tables = classify source.model s.metricTables
  /-- Facts and dimensions have datasets. -/
  covered : ∀ t ∈ source.model.tables, t.name ∈ s.tables.fact ∨ t.name ∈ s.tables.dimension →
    HasDataset s t.name
  resolved : ∀ t ∈ source.model.tables, t.name ∉ (classify source.model []).unused →
    ∀ m ∈ t.measures, IsResolved t m s
  catalog : s.names.lookup (Key.catalog database.name) = some catalog.uniqueName
  keys : ∀ s', Extends .joins s s' → KeysApart s'
  owned : Owned source s
  joinless : s.output.allJoins = []

theorem Reclassified.tables {settings : Settings} {database : Tabular.Database} {catalog : Catalog}
    (h : Reclassified source settings database catalog s) {name : String}
    (used : name ∈ s.tables.fact ∨ name ∈ s.tables.dimension) :
    ∃ t ∈ source.model.tables, t.name = name := by
  have after := TableLists.after_classify source.model s.metricTables
  rw [h.classified, after.fact, after.dimension] at used
  rcases used with ⟨t, ht, same, -⟩ | ⟨t, ht, same, -⟩
  · exact ⟨t, ht, same⟩
  · exact ⟨t, ht, same⟩

/-- Nothing but the registry, the log and the classes of the tables has changed. -/
structure OnlyClasses (s s' : State) : Prop where
  names : s.names.Reaches s'.names
  output : s'.output = s.output
  measures : s'.measures = s.measures

theorem Prepared.reclassified {settings : Settings} {database : Tabular.Database}
    {catalog : Catalog} {s₁ : State} {u₁ : Unit} (distinct : source.model.TablesDistinct)
    (before : Prepared source settings database catalog s)
    (reported : reportUnreferencedHelpers.run s = .ok (u, s₁))
    (classified : (reclassify source).run s₁ = .ok (u₁, s')) :
    Reclassified source settings database catalog s' ∧ OnlyClasses s s' := by
  obtain ⟨reporting, only⟩ := reportUnreferencedHelpers_ok source .formulas reported
  obtain rfl := reclassify_ok classified
  have backed : Backed source s₁ := fun name backing =>
    (before.backed name (only.measures ▸ backing)).mono reporting.extension.toGrows
  have owned : Owned source s₁ := before.owned.mono reporting.extension.toGrows
  obtain ⟨s₀, simple, formulas⟩ := before.simple
  refine ⟨{
    names := before.names.trans reporting.extension.names
    sound := fun fresh => by
      have fresh₀ := reporting.extension.names.exhausted fresh
      exact (reporting.sound fresh (before.sound fresh₀)).setTables _
    backed
    classified := rfl
    covered := hasDataset_of_classify distinct rfl backed fun t ht =>
      (before.placed t ht).mono reporting.extension.toGrows
    resolved := fun t ht used m hm => reporting.extension.resolved _
      ((before.placed t ht).measures used m hm)
    catalog := reporting.extension.names.lookup before.catalog
    keys := fun s' late => keysApart_of_phases simple (formulas.trans reporting.extension) late
    owned
    joinless := ?_ }, reporting.extension.names, only.output, only.measures⟩
  change s₁.output.allJoins = []
  rw [only.output, Output.allJoins, before.joinless, before.dimensionless]
  rfl

theorem reclassified_ok {settings : Settings} {database : Tabular.Database} {connection : String}
    {catalog : Catalog} {m : Model} (distinct : source.model.TablesDistinct)
    (h : (run source database connection).run (.initial settings) = .ok ((catalog, m), s')) :
    ∃ made s₀ s, (prepare source database connection).run (.initial settings) = .ok (made, s₀) ∧
      Prepared source settings database made s₀ ∧ Reclassified source settings database made s ∧
      OnlyClasses s₀ s ∧ (finish source made (database.model.name.getD database.name)).run s =
        .ok ((catalog, m), s') := by
  rw [run_eq] at h
  obtain ⟨made, s₀, prepared, h⟩ := bind_ok h
  obtain ⟨_, s₁, reported, h⟩ := bind_ok h
  obtain ⟨_, s₂, classified, h⟩ := bind_ok h
  have before := prepare_ok prepared
  obtain ⟨after, only⟩ := before.reclassified distinct reported classified
  exact ⟨made, s₀, s₂, prepared, before, after, only, h⟩

theorem finish_ok {settings : Settings} {database : Tabular.Database} {made catalog : Catalog}
    {m : Model} {label : String} (apart : source.model.TablesApart)
    (before : Reclassified source settings database made s)
    (h : (finish source made label).run s = .ok ((catalog, m), s')) :
    made = catalog ∧ Moves source .joins s s' ∧ ModelOf s' m ∧
      (s'.names.exhausted = [] → ∀ name ∈ m.dimensions,
        name ∈ s'.output.dimensions.map (·.uniqueName)) := by
  obtain ⟨_, s₁, described, h⟩ := bind_ok h
  obtain ⟨_, s₂, related, h⟩ := bind_ok h
  obtain ⟨_, s₃, summed, h⟩ := bind_ok h
  obtain ⟨_, s₄, filled, h⟩ := bind_ok h
  obtain ⟨_, s₅, viewed, h⟩ := bind_ok h
  obtain ⟨_, s₆, assembled, h⟩ := bind_ok h
  obtain ⟨same, rfl⟩ := pure_ok h
  obtain ⟨rfl, rfl⟩ := Prod.mk.inj same
  have joining : Moves source .joins s s₅ :=
    joins_moves apart before.backed before.covered (fun _ fact => before.tables (Or.inl fact))
      described related summed filled viewed
  obtain ⟨assembling, -, model, dimensions⟩ := assembleModel_ok .joins assembled
  refine ⟨rfl, joining.trans assembling, model, fun fresh => dimensions fresh ?_⟩
  have fresh₅ := assembling.extension.names.exhausted fresh
  exact joining.sound fresh₅ (before.sound (joining.extension.names.exhausted fresh₅))

/-- What a successful run has made. -/
structure Outcome (source : Source) (settings : Settings) (database : Tabular.Database)
    (catalog : Catalog) (m : Model) (s : State) : Prop where
  names : (State.initial settings).names.Reaches s.names
  sound : s.names.exhausted = [] → Sound source s
  backed : Backed source s
  keys : KeysApart s
  owned : Owned source s
  /-- The measures of all tables that were in use at first are resolved. -/
  resolved : ∀ t ∈ source.model.tables, t.name ∉ (classify source.model []).unused →
    ∀ m ∈ t.measures, IsResolved t m s
  catalog : s.names.lookup (Key.catalog database.name) = some catalog.uniqueName
  model : ModelOf s m
  dimensions : s.names.exhausted = [] → ∀ name ∈ m.dimensions,
    name ∈ s.output.dimensions.map (·.uniqueName)

theorem run_ok (source : Source) {settings : Settings} {database : Tabular.Database}
    {connection : String} {catalog : Catalog} {m : Model} (apart : source.model.TablesApart)
    (h : (run source database connection).run (.initial settings) = .ok ((catalog, m), s)) :
    Outcome source settings database catalog m s := by
  obtain ⟨made, -, s₁, -, -, before, -, h⟩ := reclassified_ok apart.distinct h
  obtain ⟨rfl, late, model, dimensions⟩ := finish_ok apart before h
  exact {
    names := before.names.trans late.extension.names
    sound := fun fresh => late.sound fresh (before.sound (late.extension.names.exhausted fresh))
    backed := before.backed.extends late.extension
    keys := before.keys _ late.extension
    owned := before.owned.mono late.extension.toGrows
    resolved := fun t ht used m hm => late.extension.resolved _ (before.resolved t ht used m hm)
    catalog := late.extension.names.lookup before.catalog
    model
    dimensions }

end SemanticLayer.Conversion
