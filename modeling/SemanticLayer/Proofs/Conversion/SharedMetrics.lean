import SemanticLayer.Proofs.Conversion.CalcGraph

set_option autoImplicit false

/-!
The metrics of aggregations. Measures, helpers of formulas and columns put their metrics into one
memo, and formulas are answered from it: by a metric that computes what they ask for, whoever has
put it there. So an aggregation has one metric at most that is made for itself, and none if it is
all of a measure.
-/
namespace SemanticLayer.Conversion

open Formula (AggregateCall Reference singleAggregate)
open Identifier
open Tabular (Database Table Column)

variable {source : Source} {s s' : State}

/-- A metric computes an aggregation over the dataset of its table. -/
structure Computes (source : Source) (c : Conversion) (m : Metric) (a : Aggregation) : Prop where
  dataset : ∃ d, c.datasetForTable? a.table.name = some d ∧ d.uniqueName = m.dataset
  column : m.column = a.reads source.settings
  method : m.calculationMethod = a.function.calculationMethod

/-- The identifier of a metric that computes what a call asks for. -/
def Answers (source : Source) (c : Conversion) (call : AggregateCall) (name : String) : Prop :=
  ∃ a : Aggregation, a.Of source.model ∧ a.AskedBy call ∧
    ∃ m, c.metric? name = some m ∧ Computes source c m a

/-- A metric that is no measure: a hidden helper of formulas, or implied by a column. -/
def IsDerived (source : Source) (s : State) (m : Metric) : Prop :=
  HelperOf s.names s.measures.helpers m ∨ ∃ t k, ImpliedBy source s.names t k m

/-- A metric that is no measure and has its identifier from an aggregation. -/
structure DerivedFor (source : Source) (s : State) (m : Metric) (a : Aggregation) : Prop where
  derived : IsDerived source s m
  key : s.names.lookup a.key = some m.uniqueName

/-- Metrics of aggregations are right, and they are shared. -/
structure SharesAggregations (source : Source) (s : State) (c : Conversion) : Prop where
  /-- Whatever a call is answered at some time, the answer is right in the end. -/
  answers : ∀ (call : AggregateCall) object name s₀ s₁, call.Shaped →
    (aggregateMetric source call object).run s₀ = .ok (some name, s₁) → Grows s₁ s →
      Answers source c call name
  /-- The answers stand in the expressions. -/
  expressions : ∀ e ∈ c.metricCalcs, Translated source (fun target name =>
    ∀ call, target = .aggregate call → Answers source c call name) e
  derived : ∀ m ∈ c.metrics, IsDerived source s m → ∃ a : Aggregation, a.Of source.model ∧
    DerivedFor source s m a ∧ Computes source c m a
  once : ∀ a : Aggregation, ∀ m ∈ c.metrics, DerivedFor source s m a →
    ∀ m' ∈ c.metrics, DerivedFor source s m' a → m = m'
  /-- A measure that is an aggregation and nothing else stands for it. -/
  measures : ∀ t ∈ source.model.tables, ∀ e ∈ t.measures, ∀ call,
    singleAggregate e.expression.text.toList = some call → ∀ a : Aggregation, a.Of source.model →
      a.AskedBy call → ∀ m ∈ c.metrics, ¬DerivedFor source s m a

theorem Sound.datasetForTable? (sound : Sound source s) (fresh : s.names.exhausted = [])
    (distinct : source.model.TablesDistinct) {t : Table} {dataset : String} {c : Conversion}
    (ht : t ∈ source.model.tables) (made : HasDataset s t.name)
    (key : s.names.lookup (Key.dataset t.name) = some dataset)
    (same : c.datasets = s.output.datasets) :
    ∃ d, c.datasetForTable? t.name = some d ∧ d.uniqueName = dataset := by
  obtain ⟨d, hd, rfl⟩ := List.mem_map.1 (made.mem key)
  have label := sound.dataset_label fresh distinct ht hd key
  obtain ⟨e, found⟩ := Option.isSome_iff_exists.1
    (List.find?_isSome.2 ⟨d, hd, beq_iff_eq.2 label⟩ :
      (s.output.datasets.find? (·.label == t.name)).isSome)
  refine ⟨e, by rwa [Conversion.datasetForTable?, same], ?_⟩
  have own := sound.dataset_key (List.mem_of_find?_eq_some found)
  rw [eq_of_beq (List.find?_some (p := fun e : Dataset => e.label == t.name) found)] at own
  exact Option.some.inj (own.symm.trans key)

theorem metric?_eq {c : Conversion} (distinct : (c.metrics.map (·.uniqueName)).Nodup) {m : Metric}
    (hm : m ∈ c.metrics) : c.metric? m.uniqueName = some m := by
  cases found : c.metric? m.uniqueName with
  | none => exact absurd (beq_iff_eq.2 rfl) (List.find?_eq_none.1 found m hm)
  | some other =>
    have same := eq_of_beq
      (List.find?_some (p := fun e : Metric => e.uniqueName == m.uniqueName) found)
    rw [List.inj_on_of_nodup_map distinct (List.mem_of_find?_eq_some found) hm same]

section Outcome

variable {settings : Settings} {database : Database} {catalog : Catalog} {model : Model}
  (outcome : Outcome source settings database catalog model s) (fresh : s.names.exhausted = [])
include outcome fresh

theorem Outcome.recalled {m : Metric} (hm : m ∈ s.output.metrics)
    (derived : IsDerived source s m) : ∃ a, AggregateOf source s a m := by
  have sound := outcome.sound fresh
  rcases sound.shared m hm with ⟨t, e, image⟩ | known
  · rcases derived with helper | ⟨t', k, implied⟩
    · obtain ⟨key, kind, known⟩ := helper.key
      exact (image.not_aggregate sound.registry fresh kind known).elim
    · obtain ⟨f, -, -, known⟩ := implied.key
      exact (image.not_aggregate sound.registry fresh (Key.word_aggregate _ _ _) known).elim
  · exact known

variable (tables : source.model.TablesApart)
include tables

theorem Outcome.computes {m : Metric} {a : Aggregation} (hm : m ∈ s.output.metrics)
    (mem : a.Of source.model) (h : a.ComputedBy source s.names m) :
    Computes source (ofOutput catalog model s) m a where
  dataset := by
    have sound := outcome.sound fresh
    obtain ⟨t, ht, key, -, backing⟩ := sound.metrics m hm
    have twin := Registry.key_eq_of_lookup sound.registry fresh key h.dataset rfl
    obtain rfl := tables.eq_of_lower ht mem.table (Key.dataset_inj twin)
    exact sound.datasetForTable? fresh tables.distinct ht
      (outcome.backed _ backing _ (tables.table?_self ht)) key rfl
  column := h.column
  method := h.method

variable (columns : ∀ t ∈ source.model.tables, t.ColumnsApart)
include columns

theorem Outcome.answers {call : AggregateCall} {name : String} (shaped : call.Shaped)
    (known : Known source s (.aggregate call) name) :
    Answers source (ofOutput catalog model s) call name := by
  have sound := outcome.sound fresh
  cases known with
  | aggregate found known =>
    obtain ⟨a, mem, asks, rfl⟩ := Aggregation.of_aggregateTarget shaped found
    obtain ⟨b, mem', key, m, hm, rfl, computed⟩ := sound.aggregates _ (mem_of_lookup known)
    obtain rfl := mem'.eq_of_key mem tables columns key
    exact ⟨b, mem, asks, m, metric?_eq sound.distinct.metrics hm,
      outcome.computes fresh tables hm mem computed⟩

theorem Outcome.not_derivedFor {t : Table} {e : Tabular.Measure} {call : AggregateCall}
    {a : Aggregation} (ht : t ∈ source.model.tables) (he : e ∈ t.measures)
    (single : singleAggregate e.expression.text.toList = some call) (mem : a.Of source.model)
    (asks : a.AskedBy call) {m : Metric} (hm : m ∈ s.output.metrics) :
    ¬DerivedFor source s m a := by
  rintro ⟨derived, key⟩
  have sound := outcome.sound fresh
  have target := asks.aggregateTarget_eq mem tables.distinct (columns _ mem.table)
  obtain ⟨measure, name, kind, known, recalled⟩ := outcome.owned t ht e he call _ single target
  obtain ⟨b, own⟩ := outcome.recalled fresh hm derived
  -- The metric has one key, so the memo has it under the key of `a`, where a measure is.
  have twin := Registry.key_eq_of_lookup sound.registry fresh own.key key rfl
  have same : name = m.uniqueName := by
    have other := own.recalled
    rw [twin] at other
    exact Option.some.inj (recalled.symm.trans other)
  obtain rfl := Registry.key_eq_of_lookup sound.registry fresh known key (congrArg Text.lower same)
  rw [a.word_key] at kind
  exact absurd kind (by decide)

end Outcome

theorem translated_of_run {settings : Settings} {database : Database} {connection : String}
    {catalog : Catalog} {m : Model} (tables : source.model.TablesApart)
    (h : (run source database connection).run (.initial settings) = .ok ((catalog, m), s)) :
    ∀ e ∈ s.output.metricCalcs, Translated source
      (fun target name => target.Shaped ∧ KnownCall source s target name) e := by
  obtain ⟨made, s₀, s₁, -, before, after, only, finishing⟩ := reclassified_ok tables.distinct h
  obtain ⟨rfl, late, -⟩ := finish_ok tables after finishing
  have calcs : s.output.metricCalcs = s₁.output.metricCalcs :=
    Keeps.finish (R := Spares (·.metricCalcs)) (fun _ _ => .addMetric rfl)
      (fun _ => .addPerspective rfl) (fun _ _ => rfl) (fun _ => .addJoin rfl) (.addNestedJoin rfl)
      (.addDimension rfl) source made _ _ _ _ finishing
  intro e he
  rw [calcs, only.output] at he
  obtain ⟨t, ht, x, hx, placeholder | ⟨shape, rendered⟩⟩ := before.linked.answers e he
  · exact ⟨t, ht, x, hx, Or.inl placeholder⟩
  · refine ⟨t, ht, x, hx, Or.inr ⟨shape, rendered.shaped.mono ?_⟩⟩
    exact fun target name ⟨shaped, known⟩ => ⟨shaped, known.mono fun key found recalled =>
      late.extension.aggregates key found (only.measures ▸ recalled)⟩

/-- Calls are answered by metrics that compute what they ask for: over the dataset of the table,
over the column as the model spells it, by the method of the function. Per function, table and
column at most one metric is made for the calls or the column alone, and none if a measure is that
aggregation. -/
theorem convertWith_aggregations [Sql.Parser] {settings : Settings} {database : Database}
    {connection : String} {c : Conversion} (tables : database.model.TablesApart)
    (columns : ∀ t ∈ database.model.tables, t.ColumnsApart)
    (fresh : settings.NeverExhausted database connection)
    (h : convertWith settings database connection = .ok c) :
    ∃ s, EndsIn settings database connection c s ∧
      SharesAggregations ⟨database.model, settings⟩ s c := by
  obtain ⟨catalog, m, s, ran, rfl⟩ := convertWith_ok h
  let source : Source := ⟨database.model, settings⟩
  have free := fresh _ s ran
  have outcome : Outcome source settings database catalog m s := run_ok source tables ran
  have sound := outcome.sound free
  refine ⟨s, ⟨catalog, m, ran, rfl⟩, {
    answers := fun call object name s₀ s₁ shaped asked later => ?_
    expressions := ?_
    derived := fun e he derived => ?_
    once := fun a e he own e' he' own' => ?_
    measures := fun t ht e he call single a mem asks m hm =>
      outcome.not_derivedFor free tables columns ht he single mem asks hm }⟩
  · obtain ⟨-, known⟩ : Works source [] s₀ s₁ ∧ _ := aggregateMetric_works asked
    exact outcome.answers free tables columns shaped
      (KnownCall.mono (fun _ _ => known name rfl) later.aggregates call rfl)
  · intro e he
    refine (translated_of_run tables ran e he).mono fun target name => ?_
    rintro ⟨shaped, known⟩ call rfl
    exact outcome.answers free tables columns shaped (known call rfl)
  · obtain ⟨a, own⟩ := outcome.recalled free he derived
    exact ⟨a, own.mem, ⟨derived, own.key⟩, outcome.computes free tables he own.mem own.computed⟩
  · have same := Option.some.inj (own.key.symm.trans own'.key)
    exact List.inj_on_of_nodup_map sound.distinct.metrics he he' same

/-- Formulas over sales write one table in several ways, and one of their aggregations is a measure.
One column is summarized as a formula does it anyway, another one otherwise. -/
def till : Database where
  name := "Till"
  model := {
    tables := [{
      name := "Sales"
      columns := [.data "Amount" "decimal",
        { Column.data "Price" "decimal" with summarizeBy := some "max" },
        { Column.data "Units" "int64" with summarizeBy := some "sum" }]
      measures := [
        { name := "Total", expression := ⟨"SUM(Sales[Amount])"⟩ },
        { name := "Mean", expression := ⟨"sum('sales'[AMOUNT]) / CountRows(SALES)"⟩ },
        { name := "Spread", expression := ⟨"MAX(Sales[Price]) - MIN(Sales[Price])"⟩ },
        { name := "Most", expression := ⟨"max(sales[price]) * 2"⟩ }] }] }

attribute [local instance] Sql.Parser.lenient

theorem run_till : ∃ catalog m s,
    (run ⟨till.model, {}⟩ till "warehouse").run (.initial {}) = .ok ((catalog, m), s) ∧
      s.names.exhausted = [] ∧
      s.output.metrics.map (·.uniqueName) =
        ["Total", "Sales_countrows", "Price_max", "Price_min", "Units"] ∧
      s.output.metricCalcs.map (·.expression) =
        ["[Measures].[Total] / [Measures].[Sales_countrows]",
          "[Measures].[Price_max] - [Measures].[Price_min]", "[Measures].[Price_max] * 2"] :=
  exists_run (by decide +kernel)

theorem convertWith_aggregations_till : ∃ c s, convertWith {} till "warehouse" = .ok c ∧
    EndsIn {} till "warehouse" c s ∧ SharesAggregations ⟨till.model, {}⟩ s c ∧
    c.metrics.map (·.uniqueName) = ["Total", "Sales_countrows", "Price_max", "Price_min", "Units"] ∧
    c.metricCalcs.map (·.expression) = ["[Measures].[Total] / [Measures].[Sales_countrows]",
      "[Measures].[Price_max] - [Measures].[Price_min]", "[Measures].[Price_max] * 2"] := by
  obtain ⟨catalog, m, s, ran, free, names, expressions⟩ := run_till
  have h := convertWith_of_run (by decide) ran
  obtain ⟨s', ends, shares⟩ := convertWith_aggregations (by decide +kernel) (by decide +kernel)
    (neverExhausted_of_run ran free) h
  exact ⟨_, s', h, ends, shares, names, expressions⟩

end SemanticLayer.Conversion
