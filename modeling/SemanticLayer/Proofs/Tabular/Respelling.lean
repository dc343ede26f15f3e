import SemanticLayer.Proofs.Elementwise
import SemanticLayer.Proofs.Tabular.Naming

set_option autoImplicit false

/-!
Models that differ only in how their references are spelled: the ends of relationships, the columns
of levels, the columns that sort others, and whatever perspectives list. Names of the objects
themselves stay as they are, so references that meet the same names meet the same objects.
-/
namespace SemanticLayer

namespace Text

theorem equalFold_congr {a b : String} (h : equalFold a b = true) (c : String) :
    equalFold c a = equalFold c b := by
  have same : a.toList.map Char.toLower = b.toList.map Char.toLower := by
    simpa [equalFold] using h
  rw [equalFold, equalFold, same]

theorem equalFold_comm (a b : String) : equalFold a b = equalFold b a :=
  BEq.comm

end Text

namespace Tabular

open Text (equalFold)

section Definitions

variable (R : String → String → Prop)

def Column.Respelled (c c' : Column) : Prop :=
  ∃ sortByColumn, Option.Rel R c.sortByColumn sortByColumn ∧ c' = { c with sortByColumn }

def Level.Respelled (l l' : Level) : Prop :=
  ∃ column, R l.column column ∧ l' = { l with column }

def Hierarchy.Respelled (h h' : Hierarchy) : Prop :=
  ∃ levels, List.Forall₂ (Level.Respelled R) h.levels levels ∧ h' = { h with levels }

def Table.Respelled (t t' : Table) : Prop :=
  ∃ columns hierarchies, List.Forall₂ (Column.Respelled R) t.columns columns ∧
    List.Forall₂ (Hierarchy.Respelled R) t.hierarchies hierarchies ∧
      t' = { t with columns, hierarchies }

def Relationship.Respelled (r r' : Relationship) : Prop :=
  ∃ fromTable fromColumn toTable toColumn, R r.fromTable fromTable ∧
    R r.fromColumn fromColumn ∧ R r.toTable toTable ∧ R r.toColumn toColumn ∧
      r' = { r with fromTable, fromColumn, toTable, toColumn }

structure PerspectiveTable.Respelled (e e' : PerspectiveTable) : Prop where
  name : R e.name e'.name
  columns : List.Forall₂ R e.columns e'.columns
  measures : List.Forall₂ R e.measures e'.measures
  hierarchies : List.Forall₂ R e.hierarchies e'.hierarchies

def Perspective.Respelled (p p' : Perspective) : Prop :=
  ∃ tables, List.Forall₂ (PerspectiveTable.Respelled R) p.tables tables ∧
    p' = { p with tables }

def Model.Respelled (m m' : Model) : Prop :=
  ∃ tables relationships perspectives, List.Forall₂ (Table.Respelled R) m.tables tables ∧
    List.Forall₂ (Relationship.Respelled R) m.relationships relationships ∧
      List.Forall₂ (Perspective.Respelled R) m.perspectives perspectives ∧
        m' = { m with tables, relationships, perspectives }

/-- Databases that are equal but for the spelling of references. -/
def Database.Respelled (d d' : Database) : Prop :=
  ∃ model, Model.Respelled R d.model model ∧ d' = { d with model }

end Definitions

section Map

variable (f : String → String)

def Column.mapReferences (c : Column) : Column :=
  { c with sortByColumn := c.sortByColumn.map f }

def Hierarchy.mapReferences (h : Hierarchy) : Hierarchy :=
  { h with levels := h.levels.map fun l => { l with column := f l.column } }

def Table.mapReferences (t : Table) : Table :=
  { t with
    columns := t.columns.map (·.mapReferences f)
    hierarchies := t.hierarchies.map (·.mapReferences f) }

def Relationship.mapReferences (r : Relationship) : Relationship :=
  { r with
    fromTable := f r.fromTable
    fromColumn := f r.fromColumn
    toTable := f r.toTable
    toColumn := f r.toColumn }

def PerspectiveTable.mapReferences (e : PerspectiveTable) : PerspectiveTable where
  name := f e.name
  columns := e.columns.map f
  measures := e.measures.map f
  hierarchies := e.hierarchies.map f

def Database.mapReferences (d : Database) : Database :=
  { d with
    model := { d.model with
      tables := d.model.tables.map (·.mapReferences f)
      relationships := d.model.relationships.map (·.mapReferences f)
      perspectives := d.model.perspectives.map fun p =>
        { p with tables := p.tables.map (·.mapReferences f) } } }

variable {f} {R : String → String → Prop} (spells : ∀ name, R name (f name))
include spells

theorem Column.respelled_mapReferences (c : Column) : c.Respelled R (c.mapReferences f) := by
  refine ⟨c.sortByColumn.map f, ?_, rfl⟩
  cases c.sortByColumn with
  | none => exact .none
  | some name => exact .some (spells name)

omit spells in
theorem forall₂_map {A : Type} {P : A → A → Prop} {g : A → A} (related : ∀ a, P a (g a))
    (as : List A) : List.Forall₂ P as (as.map g) :=
  List.forall₂_map_right_iff.2 (List.forall₂_same.2 fun a _ => related a)

theorem Table.respelled_mapReferences (t : Table) : t.Respelled R (t.mapReferences f) := by
  refine ⟨_, _, forall₂_map (Column.respelled_mapReferences spells) _,
    forall₂_map (fun h => ⟨_, forall₂_map (fun l => ?_) _, rfl⟩) _, rfl⟩
  exact ⟨f l.column, spells _, rfl⟩

theorem Database.respelled_mapReferences (d : Database) : d.Respelled R (d.mapReferences f) := by
  refine ⟨_, ⟨_, _, _, forall₂_map (Table.respelled_mapReferences spells) _,
    forall₂_map (fun r => ?_) _, forall₂_map (fun p => ?_) _, rfl⟩, rfl⟩
  · exact ⟨_, _, _, _, spells _, spells _, spells _, spells _, rfl⟩
  · exact ⟨_, forall₂_map (fun e => ⟨spells _, forall₂_map spells _, forall₂_map spells _,
      forall₂_map spells _⟩) _, rfl⟩

end Map

section Refl

variable {R : String → String → Prop} [Std.Refl R]

instance : Std.Refl (Column.Respelled R) where
  refl c := by
    refine ⟨c.sortByColumn, ?_, rfl⟩
    cases c.sortByColumn with
    | none => exact .none
    | some name => exact .some (Std.Refl.refl name)

instance : Std.Refl (Level.Respelled R) where
  refl l := ⟨l.column, Std.Refl.refl _, rfl⟩

instance : Std.Refl (Hierarchy.Respelled R) where
  refl h := ⟨h.levels, List.forall₂_refl _, rfl⟩

instance : Std.Refl (Table.Respelled R) where
  refl t := ⟨t.columns, t.hierarchies, List.forall₂_refl _, List.forall₂_refl _, rfl⟩

instance : Std.Refl (Relationship.Respelled R) where
  refl r := ⟨r.fromTable, r.fromColumn, r.toTable, r.toColumn, Std.Refl.refl _, Std.Refl.refl _,
    Std.Refl.refl _, Std.Refl.refl _, rfl⟩

instance : Std.Refl (PerspectiveTable.Respelled R) where
  refl _ := ⟨Std.Refl.refl _, List.forall₂_refl _, List.forall₂_refl _, List.forall₂_refl _⟩

instance : Std.Refl (Perspective.Respelled R) where
  refl p := ⟨p.tables, List.forall₂_refl _, rfl⟩

end Refl

section Lookups

variable {R : String → String → Prop} {c c' : Column} {t t' : Table} {name name' : String}

theorem Column.Respelled.name_eq (h : c.Respelled R c') : c'.name = c.name := by
  obtain ⟨_, -, rfl⟩ := h
  rfl

theorem Column.Respelled.kind_eq (h : c.Respelled R c') : c'.kind = c.kind := by
  obtain ⟨_, -, rfl⟩ := h
  rfl

theorem Table.Respelled.columns (h : t.Respelled R t') :
    List.Forall₂ (Column.Respelled R) t.columns t'.columns := by
  obtain ⟨_, _, columns, -, rfl⟩ := h
  exact columns

theorem Table.Respelled.hierarchies (h : t.Respelled R t') :
    List.Forall₂ (Hierarchy.Respelled R) t.hierarchies t'.hierarchies := by
  obtain ⟨_, _, -, hierarchies, rfl⟩ := h
  exact hierarchies

theorem Table.Respelled.name_eq (h : t.Respelled R t') : t'.name = t.name := by
  obtain ⟨_, _, -, -, rfl⟩ := h
  rfl

theorem Table.Respelled.measures_eq (h : t.Respelled R t') : t'.measures = t.measures := by
  obtain ⟨_, _, -, -, rfl⟩ := h
  rfl

theorem Table.Respelled.column? (h : t.Respelled R t') (same : equalFold name name' = true) :
    Option.Rel (Column.Respelled R) (t.column? name) (t'.column? name') :=
  find?_of_forall₂ h.columns fun c c' twin => by
    rw [twin.name_eq, Text.equalFold_congr same]

theorem Table.Respelled.keyColumn? (h : t.Respelled R t') :
    Option.Rel (Column.Respelled R) t.keyColumn? t'.keyColumn? :=
  find?_of_forall₂ h.columns fun c c' twin => by
    obtain ⟨_, -, rfl⟩ := twin
    rfl

end Lookups

end Tabular

end SemanticLayer
