import SemanticLayer.Proofs.Conversion.Progress
import SemanticLayer.Proofs.Conversion.RowCount
import SemanticLayer.Proofs.Conversion.SharedMetrics

set_option autoImplicit false

/-!
Metrics that count the rows of a table. They are sums over the column of ones, which stands last in
the dataset of the table. Its name is found anew for each metric and for the dataset, and the names
agree; it is neither the name of another column nor that of one that was left out.

Only tables have to be told apart by their names, so the steps after the datasets are not known to
be sound here. What counts rows was made before them: `GivesMetrics` says that later metrics are
summaries of columns, under keys of their own.
-/
namespace SemanticLayer.Conversion

open Formula (AggregateCall AggregateFunction singleAggregate)
open Identifier
open Tabular (Column Database Measure Table)
open Text (equalFold)

variable {source : Source} {s s' : State} {u : Unit}

def Aggregation.rows (t : Table) : Aggregation := ⟨.countRows, t, none⟩

/-- The key for the rows of a table tells the table, even if its name has colons. -/
theorem Aggregation.Of.eq_rows {model : Tabular.Model} {a : Aggregation} {t : Table}
    (mem : a.Of model) (distinct : model.TablesDistinct) (ht : t ∈ model.tables)
    (h : a.key = (Aggregation.rows t).key) : a = Aggregation.rows t := by
  obtain ⟨f, t', c⟩ := a
  obtain ⟨function, rest⟩ := Key.aggregate_function (plain_keyword f) (plain_keyword _) h
  obtain rfl := function_eq_of_keyword function
  obtain rfl : c = none := mem.shaped.2 rfl
  have same : Text.lower t'.name = Text.lower t.name := by
    simpa [columnName, Aggregation.rows] using rest
  have table : t' = t := distinct.eq_of_lower mem.table ht same
  rw [Aggregation.rows, table]

/-- A measure that is one aggregation has a metric for it. -/
def Realized (source : Source) (t : Table) (e : Measure) (s : State) : Prop :=
  ∀ call target, singleAggregate e.expression.text.toList = some call →
    aggregateTarget source call = .ok target → ∃ m ∈ s.output.metrics,
      s.names.lookup (Key.measure t.name e.name) = some m.uniqueName ∧
      s.names.lookup (Key.dataset target.table.name) = some m.dataset ∧
      m.column = target.column ∧ m.calculationMethod = call.function.calculationMethod

theorem Realized.mono {t : Table} {e : Measure} (h : Realized source t e s) (grows : Grows s s') :
    Realized source t e s' := by
  intro call target single found
  obtain ⟨m, hm, named, placed, column, method⟩ := h call target single found
  obtain ⟨m', hm', _, rfl⟩ := grows.metrics m hm
  exact ⟨_, hm', grows.names.lookup named, grows.names.lookup placed, column, method⟩

theorem simpleMeasure_realized {owner : Table} {measure : Measure} {call : AggregateCall}
    (single : singleAggregate measure.expression.text.toList = some call)
    (h : (simpleMeasure source owner measure call).run s = .ok (u, s')) :
    Realized source owner measure s' := by
  intro call' target single' found
  obtain rfl := Option.some.inj (single.symm.trans single')
  obtain ⟨asked, s₁, looked, h⟩ := bind_ok h
  obtain ⟨-, -, -, complete⟩ := aggregateTarget?_ok .aggregations looked
  obtain rfl := complete target found
  obtain ⟨name, s₂, named, h⟩ := bind_ok h
  obtain ⟨dataset, s₃, placed, h⟩ := bind_ok h
  obtain ⟨_, s₄, registered, resolved⟩ := bind_ok h
  obtain ⟨-, rfl⟩ := registerMetric_ok registered
  obtain rfl := modify_ok resolved
  have answer := uniqueName_answered named fun _ h => nomatch h
  have place := datasetName_answered placed
  exact ⟨_, List.mem_append_right _ (List.mem_singleton_self _), place.names.lookup answer.known,
    place.known, rfl, rfl⟩

theorem resolveSimpleMeasures_realized (h : (resolveSimpleMeasures source).run s = .ok (u, s')) :
    ∀ t ∈ source.model.tables, ∀ e ∈ t.measures, Realized source t e s' := by
  refine (resolveSimpleMeasures_all (P := fun _ => True) (Q := Realized source) trivial
    (fun t e s none call _ single => ?_) (fun t ht e he call s₁ s₂ u single made _ => ?_) h).2
  · rw [none] at single
    cases single
  · have grows := (simpleMeasure_ok ht he single made).1.extension.toGrows
    exact ⟨trivial, simpleMeasure_realized single made, fun _ _ old => old.mono grows⟩

theorem prepare_realized {settings : Settings} {database : Database} {connection : String}
    {catalog : Catalog}
    (h : (prepare source database connection).run (.initial settings) = .ok (catalog, s)) :
    ∀ t ∈ source.model.tables, ∀ e ∈ t.measures, Realized source t e s := by
  rw [prepare_eq] at h
  obtain ⟨_, s₁, -, h⟩ := bind_ok h
  obtain ⟨_, s₂, simplified, h⟩ := bind_ok h
  obtain ⟨_, s₃, placed, h⟩ := bind_ok h
  obtain ⟨-, rfl⟩ := pure_ok h
  have later := (resolveDatasets_ok placed).1.extension.toGrows
  exact fun t ht e he => (resolveSimpleMeasures_realized simplified t ht e he).mono later

def Summarizes (key : String) : Prop :=
  ∃ f table column, f ≠ AggregateFunction.countRows ∧
    key = Key.aggregate f.keyword table column

/-- The registry goes on, and metrics stay as they are up to what they show across unrelated
dimensions. Those that are new have keys of summaries. -/
structure GivesMetrics (s s' : State) : Prop extends
    Gives (fun _ => []) (fun _ => False) s s' where
  metrics : ∀ m' ∈ s'.output.metrics, (∃ m ∈ s.output.metrics, m.SameShape m') ∨
    ∃ key, Summarizes key ∧ s'.names.lookup key = some m'.uniqueName

theorem GivesMetrics.trans {s'' : State} (h : GivesMetrics s s') (h' : GivesMetrics s' s'') :
    GivesMetrics s s'' where
  toGives := h.toGives.trans h'.toGives
  metrics m'' hm'' := by
    rcases h'.metrics m'' hm'' with ⟨m', hm', same'⟩ | new
    · rcases h.metrics m' hm' with ⟨m, hm, same⟩ | ⟨key, kind, known⟩
      · exact Or.inl ⟨m, hm, same.trans same'⟩
      · refine Or.inr ⟨key, kind, h'.lookup _ _ ?_⟩
        obtain ⟨_, rfl⟩ := same'
        exact known
    · exact Or.inr new

theorem GivesMetrics.of_gives (h : Gives (fun _ => []) (fun _ => False) s s')
    (same : s'.output.metrics = s.output.metrics) : GivesMetrics s s' :=
  ⟨h, fun m hm => Or.inl ⟨m, same ▸ hm, .refl m⟩⟩

instance : Frame GivesMetrics where
  trans _ _ _ := .trans
  same s s' names output logged :=
    .of_gives (JoinFreeFrame.same s s' names output logged) (congrArg Output.metrics output)
  name s q := .of_gives (Frame.name s q) rfl

namespace GivesMetrics

theorem admits {change : Output → Except ConversionError Output}
    (h : Admits (Spares (·.metrics)) change) : Admits GivesMetrics change := fun s o made =>
  .of_gives (.of_output rfl) (h s o made)

theorem columnMetric (source : Source) (t : Table) (c : Column) {f : AggregateFunction}
    (other : f ≠ .countRows) : Keeps GivesMetrics (columnMetric source t c f) := by
  unfold Conversion.columnMetric
  split
  · exact .bind (.log _) fun _ => .pure _
  refine .bind .get fun _ => ?_
  split
  · exact .pure _
  intro s _ s' h
  obtain ⟨name, s₁, named, h⟩ := bind_ok h
  obtain ⟨dataset, s₂, placed, registered⟩ := bind_ok h
  have naming : GivesMetrics s s₁ := Keeps.uniqueName _ _ _ _ named
  have placing : GivesMetrics s₁ s₂ := Keeps.datasetName _ _ _ _ placed
  have known : s₁.names.lookup (Key.aggregate f.keyword t.name c.name) = some name := by
    obtain ⟨rfl, rfl⟩ := uniqueName_ok named
    exact Registry.lookup_allocate_key s.names _
  obtain ⟨-, rfl⟩ := registerMetric_ok registered
  refine (naming.trans placing).trans ⟨⟨fun _ _ => id, id, id, nofun⟩, fun m hm => ?_⟩
  rcases List.mem_append.1 hm with old | new
  · exact Or.inl ⟨m, old, .refl m⟩
  · rw [List.mem_singleton.1 new]
    exact Or.inr ⟨_, ⟨f, t.name, c.name, other, rfl⟩, placing.lookup _ _ known⟩

theorem finish (source : Source) (catalog : Catalog) (label : String) :
    Keeps GivesMetrics (finish source catalog label) := by
  have own (table : String) : Keeps GivesMetrics (addSelfJoin source table) :=
    .addSelfJoin source (fun _ => admits (.addJoin rfl)) table
  refine .bind (.resolveDimensions source fun d plain => admits (.addDimension rfl d plain))
    fun _ => .bind (.resolveRelationships source own (.resolveRelationship source
      (fun _ => admits (.addJoin rfl)) fun owner r => admits (.addNestedJoin rfl owner r)))
    fun _ => .bind (.eachColumn source fun t c f implied =>
      columnMetric source t c (ne_countRows_of_implied implied))
    fun _ => .bind (.backfillRelationships source own fun s dataset => ?_)
    fun _ => .bind (.resolvePerspectives source fun _ => admits (.addPerspective rfl))
    fun _ => .bind (.assembleModel source label) fun _ => .pure _
  refine ⟨.of_output rfl, fun m' hm' => ?_⟩
  obtain ⟨m, hm, rfl⟩ := List.mem_map.1 hm'
  exact Or.inl ⟨m, hm, repeatMetric_sameShape dataset m⟩

end GivesMetrics

/-- A metric that was made for an aggregation: that of a measure which is nothing else, or the one
that formulas share. -/
inductive MadeFor (source : Source) (names : Registry) (a : Aggregation) (m : Metric) : Prop where
  | measure {owner : Table} {e : Measure} {call : AggregateCall}
    (table : owner ∈ source.model.tables) (measure : e ∈ owner.measures)
    (single : singleAggregate e.expression.text.toList = some call) (asks : a.AskedBy call)
    (known : names.lookup (Key.measure owner.name e.name) = some m.uniqueName)
  | shared (known : names.lookup a.key = some m.uniqueName)

/-- A metric sums the ones that stand in the last column of the dataset of a table. -/
structure SumsOnes (settings : Settings) (c : Conversion) (t : Table) (m : Metric) : Prop where
  method : m.calculationMethod = .sum
  column : m.column = rowCountColumn settings t
  dataset : ∃ d others, c.datasetForTable? t.name = some d ∧ d.uniqueName = m.dataset ∧
    d.columns = others ++ [⟨m.column, .long, some "1"⟩] ∧ ∀ k ∈ others, k.name ≠ m.column

section Prepared

variable {settings : Settings} {database : Database} {catalog : Catalog}
  (before : Prepared source settings database catalog s) (distinct : source.model.TablesDistinct)
  {t : Table} (ht : t ∈ source.model.tables) {m : Metric} (hm : m ∈ s.output.metrics)
include before distinct ht hm

theorem Prepared.sumsOnes (fresh : s.names.exhausted = []) {c : Conversion}
    (same : c.datasets = s.output.datasets)
    (computed : (Aggregation.rows t).ComputedBy source s.names m) :
    SumsOnes source.settings c t m where
  method := computed.method
  column := computed.column
  dataset := by
    have sound := before.sound fresh
    obtain ⟨t', ht', key, -, backing⟩ := sound.metrics m hm
    have twin := Registry.key_eq_of_lookup sound.registry fresh key computed.dataset rfl
    obtain rfl := distinct.eq_of_lower ht' ht (Key.dataset_inj twin)
    have made := before.backed _ backing _ (distinct.table?_self ht)
    obtain ⟨d, found, named⟩ := sound.datasetForTable? fresh distinct ht made key same
    obtain ⟨t'', ht'', -, connection, shape⟩ :=
      sound.datasets d (same ▸ List.mem_of_find?_eq_some found)
    have label : t''.name = t'.name := by
      rw [← eq_of_beq (List.find?_some (p := fun e : Dataset => e.label == t'.name) found), shape]
      rfl
    obtain rfl := List.inj_on_of_nodup_map distinct.names_nodup ht'' ht label
    refine ⟨d, (dataColumns t'').map (datasetColumn t''), found, named, ?_, fun k hk same => ?_⟩
    · rw [shape, computed.column]
      rfl
    · obtain ⟨x, hx, rfl⟩ := List.mem_map.1 hk
      refine rowCountColumn_notMem source.settings t'' ?_
      exact List.mem_map.2 ⟨x, List.mem_of_mem_filter hx, same.trans computed.column⟩

theorem Prepared.computes_rows (gives : GivesMetrics s s') (free : s'.names.exhausted = [])
    (realized : ∀ t ∈ source.model.tables, ∀ e ∈ t.measures, Realized source t e s)
    (made : MadeFor source s'.names (Aggregation.rows t) m) :
    (Aggregation.rows t).ComputedBy source s.names m := by
  have sound := before.sound (gives.exhausted free)
  have registry := gives.apart sound.registry
  cases made with
  | @measure owner e call ho he single asks known =>
    have target : aggregateTarget source call =
        .ok ((Aggregation.rows t).target source.settings) := by
      obtain ⟨function, name, written⟩ := call
      obtain ⟨rfl, table, column⟩ := asks
      cases column
      rw [aggregateTarget, distinct.table?_eq ht table]
      rfl
    obtain ⟨m₀, hm₀, named, placed, column, method⟩ := realized owner ho e he call _ single target
    have same : m₀.uniqueName = m.uniqueName :=
      Option.some.inj ((gives.lookup _ _ named).symm.trans known)
    obtain rfl := List.inj_on_of_nodup_map sound.distinct.metrics hm₀ hm same
    exact ⟨placed, column, by rw [method, ← asks.function]⟩
  | shared known =>
    rcases sound.shared m hm with ⟨t', e, image⟩ | ⟨a, own⟩
    · have later : MeasureImage source s'.names t' e m.uniqueName m.label :=
        { image with key := gives.lookup _ _ image.key }
      exact (later.not_aggregate registry free (Aggregation.word_key _) known).elim
    · have twin := Registry.key_eq_of_lookup registry free (gives.lookup _ _ own.key) known rfl
      obtain rfl := own.mem.eq_rows distinct ht twin
      exact own.computed

end Prepared

theorem MadeFor.not_summarizes {t : Table} {m : Metric} {names : Registry} {key : String}
    (made : MadeFor source names (Aggregation.rows t) m) (registry : names.Apart)
    (fresh : names.exhausted = []) (kind : Summarizes key)
    (known : names.lookup key = some m.uniqueName) : False := by
  obtain ⟨f, table, column, other, rfl⟩ := kind
  cases made with
  | measure ho he _ _ own =>
    have image : MeasureImage source names _ _ m.uniqueName _ := ⟨ho, he, own, rfl⟩
    exact image.not_aggregate registry fresh (Key.word_aggregate _ _ _) known
  | shared own =>
    have twin := Registry.key_eq_of_lookup registry fresh known own rfl
    have same := (Key.aggregate_function (Aggregation.plain_keyword f)
      (Aggregation.plain_keyword _) twin).1
    exact other (Aggregation.function_eq_of_keyword same)

/-- The column of ones never has the name of a column, and its number is the first that is free.
Whatever counts the rows of a table is a sum over this column, as long as tables are told apart by
their names. -/
theorem convertWith_rowCounts [Sql.Parser] :
    (∀ (settings : Settings) (t : Table),
      let base := settings.datasets.rowCountColumn
      (∀ c ∈ t.columns, equalFold c.name (rowCountColumn settings t) = false) ∧
      ∃ n ≤ t.columns.length + 1, IsLeast (freeNumbers t base 1) n ∧ rowCountColumn settings t =
        if t.column? base = none then base else base ++ "_" ++ toString n) ∧
    ∀ {settings : Settings} {database : Database} {connection : String} {c : Conversion},
      database.model.TablesDistinct → settings.NeverExhausted database connection →
      convertWith settings database connection = .ok c →
      ∃ s, EndsIn settings database connection c s ∧
        ∀ t ∈ database.model.tables, ∀ m ∈ c.metrics,
          MadeFor ⟨database.model, settings⟩ s.names (Aggregation.rows t) m →
            SumsOnes settings c t m := by
  refine ⟨fun settings t => ⟨fun c hc => ?_, rowCountColumn_first settings t⟩,
    fun {settings database connection c} distinct fresh h => ?_⟩
  · have free := List.find?_eq_none.1 (column?_rowCountColumn settings t) c hc
    exact Bool.eq_false_iff.2 free
  obtain ⟨catalog, model, s, ran, rfl⟩ := convertWith_ok h
  let source : Source := ⟨database.model, settings⟩
  have free := fresh _ s ran
  obtain ⟨made, s₀, s₁, prepared, before, -, only, finishing⟩ := reclassified_ok distinct ran
  have classes : GivesMetrics s₀ s₁ := .of_gives ⟨fun _ _ => only.names.lookup, only.names.apart,
    only.names.exhausted, nofun⟩ (congrArg Output.metrics only.output)
  have gives : GivesMetrics s₀ s := classes.trans (GivesMetrics.finish _ _ _ _ _ _ finishing)
  have datasets : s.output.datasets = s₀.output.datasets := by
    rw [← only.output]
    exact Keeps.finish (R := Spares (·.datasets)) (fun _ _ => .addMetric rfl)
      (fun _ => .addPerspective rfl) (fun _ _ => rfl) (fun _ => .addJoin rfl) (.addNestedJoin rfl)
      (.addDimension rfl) _ made _ _ _ _ finishing
  refine ⟨s, ⟨catalog, model, ran, rfl⟩, fun t ht m' hm' counts => ?_⟩
  rcases gives.metrics m' hm' with ⟨m, hm, _, rfl⟩ | ⟨key, kind, known⟩
  · have counted : MadeFor source s.names (Aggregation.rows t) m := by
      cases counts with
      | measure ho he single asks own => exact .measure ho he single asks own
      | shared own => exact .shared own
    have computed := before.computes_rows distinct ht hm gives free (prepare_realized prepared)
      counted
    have sums : SumsOnes settings (ofOutput catalog model s) t m :=
      before.sumsOnes distinct ht hm (gives.exhausted free) datasets computed
    exact ⟨sums.method, sums.column, sums.dataset⟩
  · have registry := gives.apart (before.sound (gives.exhausted free)).registry
    exact (counts.not_summarizes registry free kind known).elim

/-- A table with a measure that counts its rows, and a formula that counts those of the visits. -/
def receipts : Table where
  name := "Receipts"
  columns := [.data "Amount" "decimal"]
  measures := [
    { name := "Rows", expression := ⟨"CountRows(receipts)"⟩ },
    { name := "Per visit", expression := ⟨"SUM(Receipts[Amount]) / COUNTROWS('Shop:Visits')"⟩ }]

/-- A table whose columns have the first two names that the column of ones might get. -/
def visits : Table where
  name := "Shop:Visits"
  columns := [.data "Row_Count_One" "int64", .data "ROW_COUNT_ONE_1" "int64"]

def visitors : Database where
  name := "Visitors"
  model := { tables := [receipts, visits] }

attribute [local instance] Sql.Parser.lenient

theorem run_visitors : ∃ catalog m s,
    (run ⟨visitors.model, {}⟩ visitors "warehouse").run (.initial {}) = .ok ((catalog, m), s) ∧
      s.names.exhausted = [] ∧
      (∃ m ∈ s.output.metrics,
        s.names.lookup (Key.measure "Receipts" "Rows") = some m.uniqueName ∧
          m.column = "row_count_one") ∧
      ∃ m ∈ s.output.metrics,
        s.names.lookup (Aggregation.rows visits).key = some m.uniqueName ∧
          m.column = "row_count_one_2" :=
  exists_run (by decide +kernel)

theorem convertWith_rowCounts_visitors : ∃ c s, convertWith {} visitors "warehouse" = .ok c ∧
    EndsIn {} visitors "warehouse" c s ∧
    (∃ m ∈ c.metrics, MadeFor ⟨visitors.model, {}⟩ s.names (Aggregation.rows receipts) m ∧
      SumsOnes {} c receipts m ∧ m.column = "row_count_one") ∧
    ∃ m ∈ c.metrics, MadeFor ⟨visitors.model, {}⟩ s.names (Aggregation.rows visits) m ∧
      SumsOnes {} c visits m ∧ m.column = "row_count_one_2" := by
  obtain ⟨catalog, model, s, ran, free, ⟨m, hm, key, column⟩, m', hm', key', column'⟩ :=
    run_visitors
  have h := convertWith_of_run (by decide) ran
  obtain ⟨_, ⟨_, _, again, shape⟩, sums⟩ :=
    convertWith_rowCounts.2 (by decide +kernel) (neverExhausted_of_run ran free) h
  cases ran.symm.trans again
  have there : receipts ∈ visitors.model.tables := List.mem_cons_self
  have there' : visits ∈ visitors.model.tables := List.mem_cons_of_mem _ (List.mem_singleton_self _)
  have single : singleAggregate "CountRows(receipts)".toList =
      some (⟨.countRows, "receipts", none⟩ : AggregateCall) := by decide +kernel
  have asks : (Aggregation.rows receipts).AskedBy ⟨.countRows, "receipts", none⟩ :=
    ⟨rfl, by decide +kernel, .none⟩
  have counts : MadeFor ⟨visitors.model, {}⟩ s.names (Aggregation.rows receipts) m :=
    .measure there List.mem_cons_self single asks key
  have counts' : MadeFor ⟨visitors.model, {}⟩ s.names (Aggregation.rows visits) m' := .shared key'
  exact ⟨_, s, h, ⟨catalog, model, ran, shape⟩, ⟨m, hm, counts, sums _ there m hm counts, column⟩,
    m', hm', counts', sums _ there' m' hm' counts', column'⟩

end SemanticLayer.Conversion
