import SemanticLayer.Proofs.TwoRuns.Basic

set_option autoImplicit false

namespace SemanticLayer

open Tabular (Table Column Measure)
open Text (equalFold)

namespace Conversion

section Table

variable {R : String → String → Prop} {t t' : Table} {c c' : Column} (h : t.Respelled R t')
include h

theorem freeColumnFrom_respelled (base : String) (n tries : Nat) :
    freeColumnFrom t' base n tries = freeColumnFrom t base n tries := by
  induction tries generalizing n with
  | zero => rfl
  | succ tries ih =>
    rw [freeColumnFrom, freeColumnFrom, ih,
      isNone_of_rel (h.column? (Text.equalFold_refl (base ++ "_" ++ toString n)))]

theorem rowCountColumn_respelled (settings : Settings) :
    rowCountColumn settings t' = rowCountColumn settings t := by
  rw [rowCountColumn, rowCountColumn, freeColumnFrom_respelled h,
    isNone_of_rel (h.column? (Text.equalFold_refl settings.datasets.rowCountColumn)),
    h.columns.length_eq]

theorem selfReference?_respelled (formula : String) :
    selfReference? t' formula = selfReference? t formula := by
  have copied : Option.Rel (Column.Respelled R) (copiedColumn? t formula)
      (copiedColumn? t' formula) := by
    unfold copiedColumn?
    dsimp only
    split
    · exact h.column? (Text.equalFold_refl _)
    · cases Formula.columnRef (Formula.normalize formula.toList) with
      | none => exact .none
      | some found =>
        dsimp only [Option.bind_some]
        rw [h.name_eq]
        split
        · exact h.column? (Text.equalFold_refl _)
        · exact .none
  refine (map_of_rel (filter_of_rel copied fun c c' twin => ?_) fun c c' twin => ?_).symm
  all_goals
    obtain ⟨_, -, rfl⟩ := twin
    rfl

theorem columnSql_respelled (twin : c.Respelled R c') : columnSql t' c' = columnSql t c := by
  obtain ⟨_, -, rfl⟩ := twin
  unfold columnSql
  rw [selfReference?_respelled h]
  rfl

theorem datasetColumn_respelled (twin : c.Respelled R c') :
    datasetColumn t' c' = datasetColumn t c := by
  rw [datasetColumn, datasetColumn, columnSql_respelled h twin]
  obtain ⟨_, -, rfl⟩ := twin
  rfl

theorem columnDiagnostics_respelled (twin : c.Respelled R c') :
    columnDiagnostics t' c' = columnDiagnostics t c := by
  rw [columnDiagnostics, columnDiagnostics, h.name_eq]
  obtain ⟨_, -, rfl⟩ := twin
  change _ ++ (if c.kind = .calculated ∧ selfReference? t' (columnFormula c) = none then
    _ else _) = _
  rw [selfReference?_respelled h]
  rfl

theorem dataColumns_respelled :
    List.Forall₂ (Column.Respelled R) (dataColumns t) (dataColumns t') :=
  filter_of_forall₂ h.columns fun c c' twin => by rw [twin.kind_eq]

theorem physicalNames_respelled : physicalNames t' = physicalNames t := by
  have plain := filter_of_forall₂ (p := (·.kind == .data)) (q := (·.kind == .data)) h.columns
    fun c c' twin => by rw [twin.kind_eq]
  rw [physicalNames, physicalNames, map_of_forall₂ plain fun c c' twin => ?_]
  obtain ⟨_, -, rfl⟩ := twin
  rfl

theorem tableSource_respelled : tableSource t' = tableSource t := by
  have wrapper : renameWrapper t' = renameWrapper t := by
    funext inner pairs
    rw [renameWrapper, renameWrapper, renameProjections, renameProjections,
      physicalNames_respelled h]
  have contributes : contribution? t' = contribution? t := by
    funext p
    rw [contribution?, contribution?, wrapper]
  obtain ⟨_, _, -, -, rfl⟩ := h
  rw [tableSource, tableSource, contributes]

theorem tableDataset_respelled (settings : Settings) (connectionId uniqueName : String) :
    tableDataset settings connectionId uniqueName t' =
      tableDataset settings connectionId uniqueName t := by
  have columns := map_of_forall₂ (dataColumns_respelled h) fun c c' twin =>
    (datasetColumn_respelled h twin).symm
  have ones : onesColumn settings t' = onesColumn settings t := by
    rw [onesColumn, onesColumn, rowCountColumn_respelled h]
  rw [tableDataset, tableDataset, tableSource_respelled h, ← columns, ones]
  obtain ⟨_, _, -, -, rfl⟩ := h
  rfl

theorem tableDiagnostics_respelled {source source' : Source}
    (settings : source'.settings = source.settings) (parser : source'.parser = source.parser) :
    tableDiagnostics source' t' = tableDiagnostics source t := by
  have columns := map_of_forall₂ (dataColumns_respelled h) fun c c' twin =>
    (columnDiagnostics_respelled h twin).symm
  rw [tableDiagnostics, tableDiagnostics, List.flatMap_def, List.flatMap_def, ← columns,
    sourceDiagnostics, sourceDiagnostics, tableSource_respelled h, h.name_eq, settings, parser]
  obtain ⟨_, _, -, -, rfl⟩ := h
  rfl

theorem hasVisibleColumns_respelled :
    TableLists.hasVisibleColumns t' = TableLists.hasVisibleColumns t :=
  (any_of_forall₂ h.columns fun c c' twin => by
    obtain ⟨_, -, rfl⟩ := twin
    rfl).symm

end Table

section Sources

variable {v : Variation} {source source' : Source} {name name' : String}
  (h : v.Sources source source')
include h

theorem table?_related (plain : v.Plain name) (same : equalFold name name' = true) :
    Option.Rel v.Tables (source.model.table? name) (source'.model.table? name') := by
  obtain ⟨before, after, before', after', split, split', first, second⟩ := h.tables
  have strange : v.strangers.find? (fun t => equalFold t.name name') = none :=
    List.find?_eq_none.2 fun t ht => by simp [plain.congr same t ht]
  have twins (t t' : Table) (twin : v.Tables t t') :
      equalFold t.name name = equalFold t'.name name' := by
    rw [twin.respelled.name_eq, Text.equalFold_congr same]
  rw [Tabular.Model.table?, Tabular.Model.table?, split, split', List.find?_append,
    List.find?_append, List.find?_append, strange, Option.or_none]
  exact rel_or (find?_of_forall₂ first twins) (find?_of_forall₂ second twins)

theorem referencedMeasure?_related (name : String) :
    Option.Rel (fun p p' => p'.1.name = p.1.name ∧ p'.2 = p.2)
      (referencedMeasure? source.model name) (referencedMeasure? source'.model name) := by
  obtain ⟨before, after, before', after', split, split', first, second⟩ := h.tables
  have strange : v.strangers.findSome? (fun t => (t.measure? name).map fun m => (t, m)) = none :=
    List.findSome?_eq_none_iff.2 fun t ht => by
      rw [Table.measure?, v.measureless t ht]
      rfl
  have twins (t t' : Table) (twin : v.Tables t t') :
      Option.Rel (fun p p' : Table × Measure => p'.1.name = p.1.name ∧ p'.2 = p.2)
        ((t.measure? name).map fun m => (t, m)) ((t'.measure? name).map fun m => (t', m)) := by
    rw [Table.measure?, Table.measure?, twin.respelled.measures_eq]
    cases t.measures.find? fun m => equalFold m.name name with
    | none => exact .none
    | some m => exact .some ⟨twin.respelled.name_eq, rfl⟩
  rw [referencedMeasure?, referencedMeasure?, split, split', List.findSome?_append,
    List.findSome?_append, List.findSome?_append, strange, Option.or_none]
  exact rel_or (findSome?_of_forall₂ first twins) (findSome?_of_forall₂ second twins)

theorem measureKeys_related : measureKeys source'.model = measureKeys source.model := by
  obtain ⟨before, after, before', after', split, split', first, second⟩ := h.tables
  have strange : v.strangers.flatMap (fun t => t.measures.map fun m =>
      Identifier.Key.measure t.name m.name) = [] :=
    List.flatMap_eq_nil_iff.2 fun t ht => by
      rw [v.measureless t ht]
      rfl
  have twins (t t' : Table) (twin : v.Tables t t') :
      (t.measures.map fun m => Identifier.Key.measure t.name m.name) =
        t'.measures.map fun m => Identifier.Key.measure t'.name m.name := by
    rw [twin.respelled.measures_eq, twin.respelled.name_eq]
  rw [measureKeys, measureKeys, split, split', List.flatMap_append, List.flatMap_append,
    List.flatMap_append, strange, List.append_nil]
  simp only [List.flatMap_def]
  rw [map_of_forall₂ first twins, map_of_forall₂ second twins]

end Sources

end Conversion

end SemanticLayer
