import SemanticLayer.Conversion.Aggregates
import SemanticLayer.Proofs.Formula.Completeness
import SemanticLayer.Proofs.Tabular.Naming

set_option autoImplicit false

namespace SemanticLayer.Conversion

open Formula (AggregateCall AggregateFunction)
open Identifier (Registry)
open Identifier
open Tabular (Table Column)
open Text (equalFold lower)

/-- A function over a column of a table, or over the rows of a table. -/
structure Aggregation where
  function : AggregateFunction
  table : Table
  column : Option Column

namespace Aggregation

def columnName (a : Aggregation) : Option String := a.column.map (·.name)

def key (a : Aggregation) : String :=
  Key.aggregate a.function.keyword a.table.name (a.columnName.getD "")

def reads (settings : Settings) (a : Aggregation) : String :=
  a.columnName.getD (rowCountColumn settings a.table)

/-- An aggregation in a model; rows are what is aggregated without a column. -/
structure Of (model : Tabular.Model) (a : Aggregation) : Prop where
  table : a.table ∈ model.tables
  column : ∀ c ∈ a.column, c ∈ a.table.columns
  shaped : a.column = none ↔ a.function = .countRows

/-- A call asks for an aggregation, in whatever case it writes table and column. -/
structure AskedBy (call : AggregateCall) (a : Aggregation) : Prop where
  function : a.function = call.function
  table : equalFold a.table.name call.table = true
  column : Option.Rel (fun c written => equalFold c.name written = true) a.column call.column

/-- What a metric computes: its dataset is that of the table. -/
structure ComputedBy (source : Source) (names : Registry) (m : Metric) (a : Aggregation) :
    Prop where
  dataset : names.lookup (Key.dataset a.table.name) = some m.dataset
  column : m.column = a.reads source.settings
  method : m.calculationMethod = a.function.calculationMethod

def target (settings : Settings) (a : Aggregation) : AggregateTarget :=
  ⟨a.table, a.reads settings, a.key⟩

variable {model : Tabular.Model} {source : Source} {call : AggregateCall} {a b : Aggregation}

theorem word_key (a : Aggregation) : Key.word a.key = "aggregate" := Key.word_aggregate _ _ _

theorem lower_keyword (f : AggregateFunction) : lower f.keyword = f.keyword := by
  cases f <;> decide +kernel

theorem plain_keyword (f : AggregateFunction) : Key.Plain f.keyword := by
  rw [Key.Plain, lower_keyword]
  cases f <;> decide

theorem function_eq_of_keyword {f g : AggregateFunction}
    (h : lower f.keyword = lower g.keyword) : f = g := by
  rw [lower_keyword, lower_keyword] at h
  exact by_contra fun other => AggregateFunction.keyword_ne_of_ne f g other h

theorem Of.eq_of_key (ha : a.Of model) (hb : b.Of model) (tables : model.TablesApart)
    (columns : ∀ t ∈ model.tables, t.ColumnsApart) (h : a.key = b.key) : a = b := by
  obtain ⟨f, t, c⟩ := a
  obtain ⟨g, u, d⟩ := b
  obtain ⟨function, table, column⟩ := Key.aggregate_inj (plain_keyword f) (plain_keyword g)
    (tables.plain t ha.table) (tables.plain u hb.table) h
  obtain rfl := function_eq_of_keyword function
  obtain rfl := tables.eq_of_lower ha.table hb.table table
  -- One function has a column in both aggregations or in none of them.
  have same : c = none ↔ d = none := ha.shaped.trans hb.shaped.symm
  congr 1
  cases c with
  | none => exact (same.1 rfl).symm
  | some c =>
    cases d with
    | none => exact same.2 rfl
    | some d => rw [(columns t ha.table).eq_of_lower (ha.column c rfl) (hb.column d rfl) column]

theorem of_aggregateTarget {target : AggregateTarget} (shaped : call.Shaped)
    (h : aggregateTarget source call = .ok target) :
    ∃ a : Aggregation, a.Of source.model ∧ a.AskedBy call ∧ target = a.target source.settings := by
  rw [aggregateTarget] at h
  split at h
  · cases h
  rename_i t found
  have member := Tabular.Model.mem_of_table? found
  have named : equalFold t.name call.table = true :=
    List.find?_some (p := fun u : Table => equalFold u.name call.table) found
  dsimp only at h
  split at h
  · rename_i rows
    cases h
    refine ⟨⟨call.function, t, none⟩, ⟨member, fun _ h => (nomatch h), ?_⟩, ⟨rfl, named, ?_⟩, rfl⟩
    · exact iff_of_true rfl (shaped.1 rows)
    · rw [rows]
      exact .none
  · rename_i name written
    split at h
    · cases h
    rename_i c known
    cases h
    have writes : equalFold c.name name = true :=
      List.find?_some (p := fun d : Column => equalFold d.name name) known
    refine ⟨⟨call.function, t, some c⟩, ⟨member, fun d h => ?_, ?_⟩, ⟨rfl, named, ?_⟩, rfl⟩
    · exact Option.some.inj h ▸ Tabular.Table.mem_of_column? known
    · refine iff_of_false (Option.some_ne_none _) fun rows => ?_
      rw [shaped.2 rows] at written
      cases written
    · rw [written]
      exact .some writes

theorem AskedBy.aggregateTarget_eq (h : a.AskedBy call) (ha : a.Of source.model)
    (tables : source.model.TablesDistinct) (columns : a.table.ColumnsApart) :
    aggregateTarget source call = .ok (a.target source.settings) := by
  obtain ⟨f, t, c⟩ := a
  obtain ⟨f', name, written⟩ := call
  obtain ⟨rfl, table, column⟩ := h
  rw [aggregateTarget, tables.table?_eq ha.table table]
  cases column with
  | none => rfl
  | @some c written writes =>
    dsimp only
    rw [columns.column?_eq (ha.column c rfl) writes]
    rfl

end Aggregation

end SemanticLayer.Conversion
