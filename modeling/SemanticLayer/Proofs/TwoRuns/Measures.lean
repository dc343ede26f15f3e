import SemanticLayer.Proofs.TwoRuns.Classes

set_option autoImplicit false

/-!
Both runs make the same metrics of measures. The formulas are the same, so what they refer to is
asked for in the same order and answered alike, until one of them asks for a stranger.
-/
namespace SemanticLayer.Conversion

open Formula (AggregateCall MeasureSource Reference)
open Tabular (Table Column Measure)

variable {v : Variation} {source source' : Source}

structure Targets (v : Variation) (target target' : AggregateTarget) : Prop where
  table : v.Tables target.table target'.table
  column : target'.column = target.column
  key : target'.key = target.key

theorem Agree.forIn_tables {ts ts' : List Table} {f f' : Table → PUnit → Run (ForInStep PUnit)}
    (h : v.TableLists ts ts') (body : ∀ t t', v.Tables t t' → Agree v Eq (f t ⟨⟩) (f' t' ⟨⟩))
    (idle : ∀ t ∈ v.strangers,
      Agree v (fun _ r => r = .yield ⟨⟩) (pure PUnit.unit) (f' t ⟨⟩)) :
    Agree v Eq (forIn ts PUnit.unit f) (forIn ts' PUnit.unit f') := by
  obtain ⟨before, after, before', after', rfl, rfl, first, second⟩ := h
  rw [List.append_assoc]
  exact .forIn_append first body (.forIn_idle idle (.forIn second body))

theorem aggregateTarget_related (h : v.Sources source source') {call : AggregateCall}
    (plain : v.Plain call.table) :
    (∃ problem, aggregateTarget source call = .error problem ∧
      aggregateTarget source' call = .error problem) ∨
    ∃ target target', aggregateTarget source call = .ok target ∧
      aggregateTarget source' call = .ok target' ∧ Targets v target target' := by
  unfold aggregateTarget
  obtain ⟨none, none'⟩ | ⟨t, t', found, found', twin⟩ :=
    cases_of_rel (table?_related h plain (Text.equalFold_refl _))
  · rw [none, none']
    exact Or.inl ⟨_, rfl, rfl⟩
  rw [found, found']
  dsimp only
  rw [twin.respelled.name_eq, h.settings]
  cases call.column with
  | none =>
    exact Or.inr ⟨_, _, rfl, rfl, twin, rowCountColumn_respelled twin.respelled _, rfl⟩
  | some name =>
    dsimp only
    obtain ⟨none, none'⟩ | ⟨c, c', found, found', same⟩ :=
      cases_of_rel (twin.respelled.column? (Text.equalFold_refl name))
    · rw [none, none']
      exact Or.inl ⟨_, rfl, rfl⟩
    · rw [found, found']
      exact Or.inr ⟨_, _, rfl, rfl, twin, same.name_eq, by dsimp only; rw [same.name_eq]⟩

/-- A call of a table that the model lacks is noted as soon as it is met. -/
theorem run_aggregateTarget? {call : AggregateCall}
    (missing : source.model.table? call.table = none) (object : String) (s : State) :
    (aggregateTarget? source call object).run s = .ok (none, { s with
      diagnostics := s.diagnostics ++
        [⟨.warning, some object, unknownTableMessage call.table⟩] }) := by
  rw [aggregateTarget?, aggregateTarget, missing]
  rfl

theorem Agree.aggregateTarget? (h : v.Sources source source') (call : AggregateCall)
    (object : String) :
    Agree v (Option.Rel (Targets v)) (aggregateTarget? source call object)
      (aggregateTarget? source' call object) := by
  by_cases plain : v.Plain call.table
  · unfold Conversion.aggregateTarget?
    rcases aggregateTarget_related h plain with ⟨_, failed, failed'⟩ | ⟨_, _, found, found', twin⟩
    · rw [failed, failed']
      exact .bind_eq (.log_refl _) fun _ => .pure .none
    · rw [found, found']
      exact .pure (.some twin)
  -- The first run has nothing to find, and says so; with that message the runs may part.
  have missing : source.model.table? call.table = none :=
    List.find?_eq_none.2 fun t ht same => plain ((h.plain t ht).congr same)
  intro s s' related
  have logs := related.logs.append (v.forall₂_alike_refl
    [⟨.warning, some object, unknownTableMessage call.table⟩])
  let ended : State := { s' with diagnostics := s'.diagnostics ++
    [⟨.warning, some object, unknownTableMessage call.table⟩] }
  rw [run_aggregateTarget? missing]
  refine ⟨List.subset_append_left _ _, .ok (none, ended), .ok .none { related with logs },
    fun quiet => absurd ?_ plain⟩
  exact quiet _ (List.mem_append_right _ List.mem_cons_self) call.table rfl

theorem Agree.remember {f : State → State} (g : MeasureMemo → MeasureMemo)
    (only : ∀ s, f s = { s with measures := g s.measures })
    (backing : ∀ memo : MeasureMemo, (∀ e ∈ memo.metricTables, v.Plain e.2) →
      ∀ e ∈ (g memo).metricTables, v.Plain e.2) :
    Agree v Eq (modify f : Run Unit) (modify f) := by
  obtain rfl : f = fun s => { s with measures := g s.measures } := funext only
  exact .modify (fun _ => List.Subset.refl _) fun s _ related => { related with
    measures := congrArg g related.measures
    backing := backing s.measures related.backing }

theorem Agree.registerMetric (m : Metric) {table : String} (plain : v.Plain table)
    (key : String) : Agree v Eq (registerMetric m table key) (registerMetric m table key) := by
  refine .bind_eq (.store _) fun _ => .remember (fun known => { known with
    metricTables := known.metricTables ++ [(m.uniqueName, table)]
    aggregates :=
      if (known.aggregates.lookup key).isSome then known.aggregates
      else known.aggregates ++ [(key, m.uniqueName)] }) (fun _ => rfl) fun memo known e he => ?_
  rcases List.mem_append.1 he with old | new
  · exact known e old
  · exact List.mem_singleton.1 new ▸ plain

theorem Agree.resolveAs (key uniqueName : String) :
    Agree v Eq (resolveAs key uniqueName) (resolveAs key uniqueName) :=
  .remember (fun memo => { memo with resolved := (key, uniqueName) :: memo.resolved })
    (fun _ => rfl) fun _ known => known

theorem Agree.simpleMeasure (h : v.Sources source source') {owner owner' : Table}
    (same : owner'.name = owner.name) (measure : Measure) (call : AggregateCall) :
    Agree v Eq (simpleMeasure source owner measure call)
      (simpleMeasure source' owner' measure call) := by
  refine .bind (.aggregateTarget? h call measure.name) fun target target' found => ?_
  cases found with
  | none => exact .pure rfl
  | some twin =>
    dsimp only
    rw [same, twin.table.respelled.name_eq, twin.column, twin.key]
    exact .bind_eq (.uniqueName _) fun name => .bind_eq (.datasetName _) fun dataset =>
      .bind_eq (.registerMetric _ twin.table.plain _) fun _ => .resolveAs _ _

theorem Agree.resolveSimpleMeasures (h : v.Sources source source') :
    Agree v Eq (resolveSimpleMeasures source) (resolveSimpleMeasures source') := by
  refine .bind_eq (.forIn_tables h.tables (fun t t' twin => ?_) fun t ht => ?_) fun _ => .pure rfl
  · rw [twin.respelled.measures_eq]
    refine .bind_eq (.forIn_same fun m _ => ?_) fun _ => .pure rfl
    split
    · exact .bind_eq (.simpleMeasure h twin.respelled.name_eq _ _) fun _ => .pure rfl
    · exact .pure rfl
  · rw [v.measureless t ht]
    exact .pure rfl

theorem Agree.aggregateMetric (h : v.Sources source source') (call : AggregateCall)
    (object : String) :
    Agree v Eq (aggregateMetric source call object) (aggregateMetric source' call object) := by
  refine .bind (.aggregateTarget? h call object) fun target target' found => ?_
  cases found with
  | none => exact .pure rfl
  | @some target target' twin =>
    have subject : aggregated call target' = aggregated call target := by
      rw [aggregated, aggregated, twin.column, twin.table.respelled.name_eq]
    refine .bind .get fun s s' related => ?_
    dsimp only
    rw [related.measures, twin.key, twin.table.respelled.name_eq, twin.column, subject]
    split
    · exact .pure rfl
    · exact .bind_eq (.uniqueName _) fun name => .bind_eq (.datasetName _) fun dataset =>
        .bind_eq (.registerMetric _ twin.table.plain _) fun _ =>
          .bind_eq (.remember (fun memo => { memo with helpers := memo.helpers ++ [name] })
            (fun _ => rfl) fun _ known => known) fun _ => .pure rfl

section Formulas

variable {references references' : MeasureSource Run}

theorem Agree.evaluate (f : Formula) (answers : ∀ target : Reference,
      Agree v Eq (target.resolve references) (target.resolve references')) :
    Agree v Eq (f.evaluate references) (f.evaluate references') := by
  induction f with
  | stop run rest => exact .pure rfl
  | reference run here target tail ih =>
    refine .bind_eq (answers target) fun found => ?_
    cases found with
    | none => exact .pure rfl
    | some identifier => exact ih.bind_eq fun _ => .pure rfl
  | ratio run here numerator denominator tail above below rest =>
    rw [Formula.evaluate, Formula.evaluate]
    split
    · exact .pure rfl
    refine above.bind_eq fun upper => ?_
    split
    swap
    · exact .pure rfl
    split
    · exact .pure rfl
    refine below.bind_eq fun lower => ?_
    split
    · exact rest.bind_eq fun _ => .pure rfl
    · exact .pure rfl

variable (answers : ∀ target : Reference,
  Agree v Eq (target.resolve references) (target.resolve references'))
include answers

theorem Agree.render (text : String) :
    Agree v Eq (Formula.render references text) (Formula.render references' text) := by
  refine .bind_eq (.evaluate _ answers) fun _ => ?_
  dsimp only
  split <;> exact .pure rfl

theorem Agree.renderMeasure (measure : Measure) :
    Agree v Eq (renderMeasure references measure) (renderMeasure references' measure) := by
  refine .bind_eq (.render answers _) fun written => ?_
  split
  · exact .pure rfl
  dsimp only
  split
  · exact .pure rfl
  refine .bind_eq (.render answers _) fun normal => ?_
  split
  · exact .bind_eq (.log_refl _) fun _ => .pure rfl
  · exact .pure rfl

end Formulas

theorem Agree.emitCalc {owner owner' : Table} (same : owner'.name = owner.name) (measure : Measure)
    (made : String → MetricCalc) :
    Agree v Eq (emitCalc owner measure made) (emitCalc owner' measure made) := by
  rw [Conversion.emitCalc, Conversion.emitCalc, calcRequest, calcRequest, same]
  exact .bind_eq (.uniqueName _) fun _ => .bind_eq (.store _) fun _ =>
    .bind_eq (.resolveAs _ _) fun _ => .pure rfl

theorem Agree.calculatedMeasure (h : v.Sources source source') (idle : List String)
    {owner owner' : Table} (same : owner'.name = owner.name) (measure : Measure) :
    Agree v Eq (calculatedMeasure source idle owner measure)
      (calculatedMeasure source' idle owner' measure) := by
  rw [calculatedMeasure_eq, calculatedMeasure_eq, same]
  refine .bind .get fun s s' related => ?_
  rw [related.measures]
  split
  · exact .pure rfl
  split
  swap
  · exact .bind_eq (.log_refl _) fun _ => .pure rfl
  rename_i idleKey
  have fewer := withoutKey_length_lt idleKey
  -- References of the formula may be measures again, with one idle measure less.
  refine .bind_eq (.renderMeasure (fun target => ?_) measure) fun outcome => ?_
  · cases target with
    | aggregate call => exact .aggregateMetric h _ _
    | measure name =>
      dsimp only [Formula.Reference.resolve, referencesOf]
      obtain ⟨none, none'⟩ | ⟨⟨t, m⟩, ⟨t', m'⟩, found, found', named, meant⟩ :=
        cases_of_rel (referencedMeasure?_related h name)
      · rw [none, none']
        exact .pure rfl
      · obtain rfl : m' = m := meant
        rw [found, found']
        exact .calculatedMeasure h _ named _
  cases outcome with
  | error remainder => exact .bind_eq (.log_refl _) fun _ => .emitCalc same _ _
  | ok expression => exact .emitCalc same _ _
termination_by idle.length
decreasing_by
  assumption

theorem Agree.resolveCalculatedMeasures (h : v.Sources source source') {t t' : Table}
    (twin : t.Respelled v.Spelled t') :
    Agree v Eq (resolveCalculatedMeasures source t) (resolveCalculatedMeasures source' t') := by
  unfold Conversion.resolveCalculatedMeasures
  rw [measureKeys_related h, twin.measures_eq]
  refine .bind_eq (.forIn_same fun m _ => ?_) fun _ => .pure rfl
  exact .bind_eq (.calculatedMeasure h _ twin.name_eq _) fun _ => .pure rfl

theorem Agree.ensureDataset (h : v.Sources source source') {t t' : Table}
    (twin : t.Respelled v.Spelled t') :
    Agree v Eq (ensureDataset source t) (ensureDataset source' t') := by
  unfold Conversion.ensureDataset
  rw [twin.name_eq, h.settings]
  refine .bind_eq (.datasetName _) fun name => .bind .get fun s s' related => ?_
  rw [related.output, related.connectionId, tableDiagnostics_respelled twin h.settings h.parser,
    tableDataset_respelled twin]
  split
  · exact .pure rfl
  · exact .bind_eq (.log_refl _) fun _ => .bind_eq (.store _) fun _ => .pure rfl

section States

variable {s s' : State} (related : v.States s s')
include related

theorem metricTables_related : s'.metricTables = s.metricTables := by
  rw [State.metricTables, State.metricTables, related.measures]

theorem plain_metricTables : ∀ name ∈ s.metricTables, v.Plain name := by
  intro name found
  rcases mem_foldl_insertName.1 found with none | backs
  · cases none
  · obtain ⟨e, he, rfl⟩ := List.mem_map.1 backs
    exact related.backing e he

end States

theorem Agree.resolveDatasets (h : v.Sources source source') :
    Agree v Eq (resolveDatasets source) (resolveDatasets source') := by
  refine .bind_eq (.forIn_tables h.tables (fun t t' twin => ?_) fun t ht => ?_) fun _ =>
    .bind .get fun s s' related => ?_
  · refine .bind .get fun s s' related => ?_
    have measures := Agree.resolveCalculatedMeasures h twin.respelled
    dsimp only
    rw [twin.respelled.name_eq, related.classes.unused_contains twin.plain,
      related.classes.measureOnly_eq]
    split
    · exact .pure rfl
    split
    · exact .bind_eq measures fun _ => .pure rfl
    · exact .bind_eq (.ensureDataset h twin.respelled) fun _ =>
        .bind_eq measures fun _ => .pure rfl
  · refine .get_right fun s s' related => ?_
    dsimp only
    rw [if_pos (related.classes.contains_stranger ht).1]
    exact .pure rfl
  · rw [metricTables_related related]
    refine .bind_eq (.forIn_same fun name found => ?_) fun _ => .pure rfl
    obtain ⟨none, none'⟩ | ⟨t, t', known, known', twin⟩ := cases_of_rel
      (table?_related h (plain_metricTables related name found) (Text.equalFold_refl name))
    · rw [none, none']
      exact .pure rfl
    · rw [known, known']
      exact .bind_eq (.ensureDataset h twin.respelled) fun _ => .pure rfl

theorem Agree.reportUnreferencedHelpers :
    Agree v Eq reportUnreferencedHelpers reportUnreferencedHelpers := by
  refine .bind .get fun s s' related => ?_
  rw [related.measures, related.output]
  exact .log_refl _

theorem Agree.reclassify (h : v.Sources source source') :
    Agree v Eq (reclassify source) (reclassify source') := by
  refine .bind .get fun s s' related => ?_
  rw [metricTables_related related]
  exact .modify (fun _ => List.Subset.refl _) fun _ _ now => { now with
    classes := classify_related h (plain_metricTables related) }

section Columns

variable {t t' : Table} {c c' : Column}

theorem summaryDiagnostics_respelled {R : String → String → Prop} (h : t.Respelled R t')
    (twin : c.Respelled R c') : summaryDiagnostics t' c' = summaryDiagnostics t c := by
  rw [summaryDiagnostics, summaryDiagnostics, h.name_eq]
  obtain ⟨_, -, rfl⟩ := twin
  rfl

theorem isConsumed_related (h : v.Sources source source') (same : v.Tables t t')
    (twin : c.Respelled v.Spelled c') (names : Identifier.Registry) :
    isConsumed source' names t' c' = isConsumed source names t c := by
  have folds {a b : String} (spelled : v.Spelled a b) (x : String) :
      Text.equalFold a x = Text.equalFold b x := by
    rw [Text.equalFold_comm a, Text.equalFold_comm b, Text.equalFold_congr (v.folds a b spelled)]
  have lower {a b : String} (spelled : v.Spelled a b) : Text.lower a = Text.lower b :=
    Text.lower_eq_of_equalFold (v.folds a b spelled)
  have joins := any_of_forall₂ (p := joinsColumn t (Text.lower c.name))
    (q := joinsColumn t' (Text.lower c.name)) h.relationships fun r r' pair => by
      obtain ⟨_, _, _, _, start, first, target, second, rfl⟩ := pair.respelled
      rw [joinsColumn, joinsColumn, same.respelled.name_eq, folds start, folds target,
        lower first, lower second]
  have describes := any_of_forall₂
    (p := fun other => Text.lower other.name == Text.lower c.name && describesRows names t other)
    (q := fun other => Text.lower other.name == Text.lower c.name && describesRows names t' other)
    same.respelled.columns fun other other' pair => by
      rw [describesRows, describesRows, pair.name_eq, same.respelled.name_eq]
  rw [isConsumed, isConsumed, twin.name_eq, ← joins, ← describes]

theorem freeColumns_related (h : v.Sources source source') (same : v.Tables t t')
    (names : Identifier.Registry) : List.Forall₂ (Column.Respelled v.Spelled)
      (freeColumns source names t) (freeColumns source' names t') :=
  filter_of_forall₂ same.respelled.columns fun c c' twin => by
    rw [isConsumed_related h same twin]
    obtain ⟨_, -, rfl⟩ := twin
    rfl

theorem Agree.columnMetric (h : v.Sources source source') (same : v.Tables t t')
    (twin : c.Respelled v.Spelled c') (function : Formula.AggregateFunction) :
    Agree v Eq (columnMetric source t c function) (columnMetric source' t' c' function) := by
  obtain ⟨_, -, rfl⟩ := twin
  unfold Conversion.columnMetric
  dsimp only
  rw [same.respelled.name_eq, h.settings]
  split
  · exact .bind_eq (.log_refl _) fun _ => .pure rfl
  refine .bind .get fun s s' related => ?_
  rw [related.measures]
  split
  · exact .pure rfl
  · exact .bind_eq (.uniqueName _) fun _ => .bind_eq (.datasetName _) fun _ =>
      .registerMetric _ same.plain _

theorem Agree.resolveColumnMeasures (h : v.Sources source source') :
    Agree v Eq (resolveColumnMeasures source) (resolveColumnMeasures source') := by
  unfold Conversion.resolveColumnMeasures
  rw [h.settings]
  split
  · exact .pure rfl
  refine .bind_eq (.forIn_tables h.tables (fun t t' twin => ?_) fun t ht => ?_)
    fun _ => .pure rfl
  · refine .bind .get fun s s' related => ?_
    rw [twin.respelled.name_eq, related.classes.fact_eq]
    split
    swap
    · exact .pure rfl
    refine .bind .get fun s s' related => ?_
    rw [related.names]
    refine .bind_eq (.forIn (freeColumns_related h twin s.names) fun c c' same => ?_)
      fun _ => .pure rfl
    rw [summaryDiagnostics_respelled twin.respelled same]
    refine .bind_eq (.log_refl _) fun _ => ?_
    have implied : impliedFunction? c' = impliedFunction? c := by
      obtain ⟨_, -, rfl⟩ := same
      rfl
    rw [implied]
    split
    · exact .bind_eq (.columnMetric h twin same _) fun _ => .pure rfl
    · exact .pure rfl
  · refine .get_right fun s s' related => ?_
    rw [if_neg (by rw [(related.classes.contains_stranger ht).2.1]; exact Bool.false_ne_true)]
    exact .pure rfl

end Columns

end SemanticLayer.Conversion
