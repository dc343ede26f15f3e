import Mathlib.Data.List.Nodup
import SemanticLayer.Proofs.Identifier.Key
import SemanticLayer.Proofs.Text.LowerCase
import SemanticLayer.Tabular.Model

set_option autoImplicit false

namespace SemanticLayer.Tabular

open Text (lower)

/-- Tables differ up to case. -/
def Model.TablesDistinct (m : Model) : Prop := (m.tables.map fun t => lower t.name).Nodup

instance (m : Model) : Decidable m.TablesDistinct := List.nodupDecidable _

/-- Tables differ up to case, and none has a colon in its lower-case name. -/
structure Model.TablesApart (m : Model) : Prop where
  distinct : (m.tables.map fun t => lower t.name).Nodup
  plain : ∀ t ∈ m.tables, Identifier.Key.Plain t.name

theorem Model.tablesApart_iff (m : Model) :
    m.TablesApart ↔ (m.tables.map fun t => lower t.name).Nodup ∧
      ∀ t ∈ m.tables, Identifier.Key.Plain t.name :=
  ⟨fun h => ⟨h.distinct, h.plain⟩, fun h => ⟨h.1, h.2⟩⟩

instance (m : Model) : Decidable m.TablesApart :=
  decidable_of_iff' _ m.tablesApart_iff

def Table.ColumnsApart (t : Table) : Prop := (t.columns.map fun c => lower c.name).Nodup

instance (t : Table) : Decidable t.ColumnsApart := List.nodupDecidable _

def Table.MeasuresApart (t : Table) : Prop := (t.measures.map fun m => lower m.name).Nodup

instance (t : Table) : Decidable t.MeasuresApart := List.nodupDecidable _

def Table.HierarchiesApart (t : Table) : Prop := (t.hierarchies.map fun h => lower h.name).Nodup

instance (t : Table) : Decidable t.HierarchiesApart := List.nodupDecidable _

structure Model.WellNamed (m : Model) : Prop where
  tables : m.TablesApart
  columns : ∀ t ∈ m.tables, t.ColumnsApart
  measures : ∀ t ∈ m.tables, t.MeasuresApart
  hierarchies : ∀ t ∈ m.tables, t.HierarchiesApart

theorem Model.mem_of_table? {m : Model} {name : String} {t : Table}
    (h : m.table? name = some t) : t ∈ m.tables :=
  List.mem_of_find?_eq_some h

/-- Whichever of the two names is asked first, since case is ignored in both. -/
theorem Model.equalFold_of_table? {m : Model} {name : String} {t : Table}
    (h : m.table? name = some t) : Text.equalFold name t.name = true := by
  have fold := List.find?_some (p := fun u : Table => Text.equalFold u.name name) h
  rwa [Text.equalFold_iff, eq_comm, ← Text.equalFold_iff] at fold

theorem Model.lower_of_table? {m : Model} {name : String} {t : Table}
    (h : m.table? name = some t) : lower t.name = lower name :=
  (Text.lower_eq_of_equalFold (equalFold_of_table? h)).symm

theorem Table.mem_of_column? {t : Table} {name : String} {c : Column}
    (h : t.column? name = some c) : c ∈ t.columns :=
  List.mem_of_find?_eq_some h

theorem Table.equalFold_of_column? {t : Table} {name : String} {c : Column}
    (h : t.column? name = some c) : Text.equalFold c.name name = true :=
  List.find?_some (p := fun d : Column => Text.equalFold d.name name) h

theorem Table.eq_of_column? {t : Table} {name name' : String} {c c' : Column}
    (h : t.column? name = some c) (h' : t.column? name' = some c') (same : c'.name = c.name) :
    c' = c := by
  have fold := (Text.equalFold_iff _ _).1 (equalFold_of_column? h)
  have fold' := (Text.equalFold_iff _ _).1 (equalFold_of_column? h')
  have asked : (fun d : Column => Text.equalFold d.name name') =
      fun d => Text.equalFold d.name name := by
    funext d
    rw [Bool.eq_iff_iff, Text.equalFold_iff, Text.equalFold_iff, ← fold', same, fold]
  rw [column?, asked] at h'
  exact Option.some.inj (h'.symm.trans h)

theorem Model.TablesDistinct.eq_of_lower {m : Model} (distinct : m.TablesDistinct) {t t' : Table}
    (h : t ∈ m.tables) (h' : t' ∈ m.tables) (same : lower t.name = lower t'.name) : t = t' :=
  List.inj_on_of_nodup_map distinct h h' same

theorem Model.TablesApart.eq_of_lower {m : Model} (apart : m.TablesApart) {t t' : Table}
    (h : t ∈ m.tables) (h' : t' ∈ m.tables) (same : lower t.name = lower t'.name) : t = t' :=
  Model.TablesDistinct.eq_of_lower apart.distinct h h' same

theorem Table.ColumnsApart.eq_of_lower {t : Table} (apart : t.ColumnsApart) {c c' : Column}
    (h : c ∈ t.columns) (h' : c' ∈ t.columns) (same : lower c.name = lower c'.name) : c = c' :=
  List.inj_on_of_nodup_map apart h h' same

theorem Model.TablesDistinct.names_nodup {m : Model} (distinct : m.TablesDistinct) :
    (m.tables.map (·.name)).Nodup := by
  refine List.Nodup.of_map lower ?_
  rwa [List.map_map]

theorem Model.TablesDistinct.table?_eq {m : Model} (distinct : m.TablesDistinct) {t : Table}
    {name : String} (h : t ∈ m.tables) (named : Text.equalFold t.name name = true) :
    m.table? name = some t := by
  cases found : m.table? name with
  | none => exact absurd named (List.find?_eq_none.1 found t h)
  | some other =>
    rw [distinct.eq_of_lower (mem_of_table? found) h
      ((lower_of_table? found).trans (Text.lower_eq_of_equalFold named).symm)]

theorem Model.TablesDistinct.table?_self {m : Model} (distinct : m.TablesDistinct) {t : Table}
    (h : t ∈ m.tables) : m.table? t.name = some t :=
  distinct.table?_eq h (Text.equalFold_refl t.name)

theorem Table.ColumnsApart.column?_eq {t : Table} (apart : t.ColumnsApart) {c : Column}
    {name : String} (h : c ∈ t.columns) (named : Text.equalFold c.name name = true) :
    t.column? name = some c := by
  cases found : t.column? name with
  | none => exact absurd named (List.find?_eq_none.1 found c h)
  | some other =>
    have same := Text.lower_eq_of_equalFold (equalFold_of_column? found)
    rw [apart.eq_of_lower (mem_of_column? found) h
      (same.trans (Text.lower_eq_of_equalFold named).symm)]

theorem Model.TablesApart.table?_self {m : Model} (apart : m.TablesApart) {t : Table}
    (h : t ∈ m.tables) : m.table? t.name = some t :=
  Model.TablesDistinct.table?_self apart.distinct h

end SemanticLayer.Tabular
