import SemanticLayer.Proofs.Conversion.CalcGraph
import SemanticLayer.Proofs.Conversion.CopiedColumns
import SemanticLayer.Proofs.Sql.Comment

set_option autoImplicit false

namespace SemanticLayer.Conversion

open Sql (KeepsInComment)
open Tabular (Column Database Measure Table)

/-- What a calculated metric is: the formula of a measure with names in place of its references, or
a placeholder. -/
inductive ExpressedBy (model : Tabular.Model) (names : List String) (e : MetricCalc) : Prop where
  | formula {t : Table} {m : Measure} (ht : t ∈ model.tables) (hm : m ∈ t.measures)
      (made : e = renderedCalc m e.uniqueName e.expression)
      (rendered : RenderedFrom (fun _ name => name ∈ names) m e.expression)
  | placeholder {t : Table} {m : Measure} (ht : t ∈ model.tables) (hm : m ∈ t.measures)
      (made : e = placeholderCalc m e.uniqueName)
      (keeps : KeepsInComment "0" m.expression.text e.expression)

/-- What a column of the dataset of a table is: a physical column, under its own name or another
one, the column of ones, or a placeholder. -/
inductive ComputedBy (t : Table) (column : DatasetColumn) : Prop where
  | stored (h : column.sql = none)
  | renamed (physical : String) (h : column.sql = some (Sql.quote physical))
  | ones (h : column.sql = some "1")
  | placeholder {d : Column} (hd : d ∈ t.columns) (calculated : d.kind = .calculated)
      (named : d.name = column.name) {sql : String} (h : column.sql = some sql)
      (keeps : KeepsInComment "NULL" (columnFormula d) sql)

theorem placeholderCalc_keeps (measure : Measure) (uniqueName : String) :
    KeepsInComment "0" measure.expression.text (placeholderCalc measure uniqueName).expression := by
  have keeps := Sql.withComment_keeps (by decide : '/' ∉ "0".toList) measure.expression.text
  rwa [← String.toList_ofList (l := Text.trim measure.expression.text.toList)] at keeps

theorem columnSql_keeps {t : Table} {d : Column} (calculated : d.kind = .calculated)
    (unknown : selfReference? t (columnFormula d) = none) :
    ∃ sql, columnSql t d = some sql ∧ KeepsInComment "NULL" (columnFormula d) sql := by
  refine ⟨_, ?_, Sql.withComment_keeps (by decide) (columnFormula d)⟩
  rw [columnSql, if_pos calculated, unknown]

theorem datasetColumn_computedBy {t : Table} {d : Column} (hd : d ∈ t.columns) :
    ComputedBy t (datasetColumn t d) := by
  by_cases calculated : d.kind = .calculated
  · cases known : selfReference? t (columnFormula d) with
    | some physical =>
      refine .renamed physical ?_
      rw [datasetColumn, columnSql, if_pos calculated, known]
    | none =>
      obtain ⟨sql, same, keeps⟩ := columnSql_keeps calculated known
      exact .placeholder hd calculated rfl same keeps
  · by_cases plain : d.physicalName = d.name
    · refine .stored ?_
      rw [datasetColumn, columnSql, if_neg calculated, if_pos plain]
    · refine .renamed d.physicalName ?_
      rw [datasetColumn, columnSql, if_neg calculated, if_neg plain]

theorem tableDataset_computedBy (settings : Settings) (connectionId uniqueName : String) (t : Table)
    {column : DatasetColumn}
    (h : column ∈ (tableDataset settings connectionId uniqueName t).columns) :
    ComputedBy t column := by
  rcases List.mem_append.1 h with own | added
  · obtain ⟨d, hd, rfl⟩ := List.mem_map.1 own
    exact datasetColumn_computedBy (List.mem_of_mem_filter hd)
  · rw [List.mem_singleton.1 added]
    exact .ones rfl

variable {source : Source} {s : State}

theorem expressedBy_of_run {settings : Settings} {database : Database} {connection : String}
    {catalog : Catalog} {m : Model}
    (h : (run source database connection).run (.initial settings) = .ok ((catalog, m), s))
    {e : MetricCalc} (he : e ∈ s.output.metricCalcs) :
    ExpressedBy source.model s.output.measureNames e := by
  rw [run_eq] at h
  obtain ⟨made, s₀, prepared, rest⟩ := bind_ok h
  have before : Prepared source settings database made s₀ := prepare_ok prepared
  -- Calculated metrics are all there before the dimensions, and metrics are only added after that.
  have kept := rest_keepsCalcs source _ _ s₀ _ s rest
  rw [kept.metricCalcs] at he
  obtain ⟨earlier, later, shape⟩ := List.append_of_mem he
  obtain ⟨t, ht, x, hx, placeholder | ⟨same, rendered⟩⟩ :=
    before.linked.calcs earlier e later shape
  · refine .placeholder ht hx placeholder ?_
    have keeps := placeholderCalc_keeps x e.uniqueName
    rwa [← placeholder] at keeps
  · refine .formula ht hx same (rendered.mono fun _ name known => ?_)
    rcases known with metric | computed
    · exact List.mem_append_left _ (kept.metrics metric)
    · refine List.mem_append_right _ ?_
      rw [kept.metricCalcs, shape, List.map_append]
      exact List.mem_append_left _ computed

/-- The comment of a placeholder ends with the placeholder and not before, and the formula is in it
from its first character to its last, whatever the formula of the measure or of the calculated
column is. Conversions emit such placeholders, and besides them only translated formulas, physical
columns and columns of ones. -/
theorem placeholders_commented [Sql.Parser] :
    (∀ measure uniqueName, KeepsInComment "0" measure.expression.text
      (placeholderCalc measure uniqueName).expression) ∧
    (∀ t d, d.kind = .calculated → selfReference? t (columnFormula d) = none →
      ∃ sql, columnSql t d = some sql ∧ KeepsInComment "NULL" (columnFormula d) sql) ∧
    ∀ settings database connection c, convertWith settings database connection = .ok c →
      (∀ e ∈ c.metricCalcs, ExpressedBy database.model c.measureNames e) ∧
      ∀ dataset ∈ c.datasets, ∃ t ∈ database.model.tables, dataset.label = t.name ∧
        ∀ column ∈ dataset.columns, ComputedBy t column := by
  refine ⟨placeholderCalc_keeps, fun t d => columnSql_keeps,
    fun settings database connection c h => ?_⟩
  obtain ⟨catalog, m, s, ran, rfl⟩ := convertWith_ok h
  refine ⟨fun e he => expressedBy_of_run ran he, fun dataset found => ?_⟩
  have from' : AddsTables ⟨database.model, settings⟩ (.initial settings) s :=
    AddsTables.run _ database connection _ _ _ ran
  rcases from' dataset found with none | ⟨t, ht, connectionId, uniqueName, rfl⟩
  · cases none
  · exact ⟨t, ht, rfl, fun column => tableDataset_computedBy settings connectionId uniqueName t⟩

/-- A formula with end marks beside stars and slashes, and with a star at its end. -/
def odd : Column := .calculated "Odd" "double" ⟨"*/**//*/ [Amount] *"⟩

def rate : Measure where
  name := "Rate"
  expression := ⟨"RATE(*/*/ 1 **//*/"⟩

def starredSales : Table where
  name := "Sales"
  columns := [.data "Amount" "double", odd]
  measures := [rate]

def starred : Database where
  name := "Shop"
  model := { tables := [starredSales] }

attribute [local instance] Sql.Parser.lenient

theorem placeholders_commented_starred :
    KeepsInComment "NULL" "*/**//*/ [Amount] *" "NULL /* * /** //* / [Amount] * */" ∧
    ∃ c, convertWith {} starred "warehouse" = .ok c ∧
      (∃ e ∈ c.metricCalcs, e.expression = "0 /* RATE(* /* / 1 ** //* / */" ∧
        KeepsInComment "0" "RATE(*/*/ 1 **//*/" e.expression) ∧
      ∃ dataset ∈ c.datasets, dataset.columns.map (·.sql) =
          [none, some "NULL /* * /** //* / [Amount] * */", some "1"] ∧
        ∀ column ∈ dataset.columns, ComputedBy starredSales column := by
  obtain ⟨-, columns, emitted⟩ := placeholders_commented
  obtain ⟨sql, same, keeps⟩ := columns starredSales odd (by decide +kernel) (by decide +kernel)
  have written : columnSql starredSales odd = some "NULL /* * /** //* / [Amount] * */" := by
    decide +kernel
  obtain rfl := Option.some.inj (written.symm.trans same)
  have made : ∃ c, convertWith {} starred "warehouse" = .ok c ∧
      (∃ e ∈ c.metricCalcs, e.isHidden = true ∧
        e.expression = "0 /* RATE(* /* / 1 ** //* / */") ∧
      ∃ dataset ∈ c.datasets, dataset.columns.map (·.sql) =
        [none, some "NULL /* * /** //* / [Amount] * */", some "1"] :=
    exists_convertWith (by decide +kernel)
  obtain ⟨c, h, ⟨e, he, hidden, expression⟩, dataset, found, computed⟩ := made
  obtain ⟨calcs, datasets⟩ := emitted _ _ _ _ h
  refine ⟨keeps, c, h, ⟨e, he, expression, ?_⟩, dataset, found, computed, ?_⟩
  · cases calcs e he with
    | formula ht hm shape _ =>
      obtain rfl := List.mem_singleton.1 ht
      obtain rfl := List.mem_singleton.1 hm
      rw [shape] at hidden
      cases hidden
    | placeholder ht hm _ keeps =>
      obtain rfl := List.mem_singleton.1 ht
      obtain rfl := List.mem_singleton.1 hm
      exact keeps
  · obtain ⟨t, ht, -, sources⟩ := datasets dataset found
    obtain rfl := List.mem_singleton.1 ht
    exact sources

end SemanticLayer.Conversion
