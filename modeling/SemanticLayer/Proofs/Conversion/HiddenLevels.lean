import SemanticLayer.Proofs.Conversion.Levels

set_option autoImplicit false

namespace SemanticLayer.Conversion

open Identifier
open Tabular (Database Table Column)
open Text (lower)

variable {source : Source} {names : Registry} {t : Table} {d : Dimension}

section Hidden

variable {joins : List Column} (usable : usableHierarchies t joins ≠ [])
include usable

theorem mem_path_of_usable {use : LevelUse} (hu : use ∈ (drillPaths t joins).flatMap (·.uses)) :
    ∃ h ∈ t.hierarchies, use ∈ (sourcePath t joins h).uses := by
  rw [drillPaths_of_usable usable] at hu
  obtain ⟨p, hp, inside⟩ := List.mem_flatMap.1 hu
  obtain ⟨h, hh, rfl⟩ := List.mem_map.1 hp
  exact ⟨h, List.mem_of_mem_filter hh, inside⟩

theorem exists_head_of_mem_joins {use : LevelUse}
    (hu : use ∈ firstUses ((drillPaths t joins).flatMap (·.uses))) (joined : use.column ∈ joins) :
    ∃ h, t.hierarchies.head? = some h ∧ use ∈ (sourcePath t joins h).uses := by
  rw [drillPaths_of_usable usable] at hu
  rw [usableHierarchies] at usable hu
  cases listed : t.hierarchies with
  | nil =>
    rw [listed] at usable
    exact absurd rfl usable
  | cons first rest =>
    have member : use.key ∈ (sourcePath t joins first).uses.map LevelUse.key := by
      rw [sourcePath, mem_keys_firstUses, List.map_append, List.mem_append, keys_joinUses]
      exact Or.inr (List.mem_map_of_mem joined)
    have some : (sourcePath t joins first).isUsable = true := by
      rw [DrillPath.isUsable, Bool.not_eq_true', List.isEmpty_eq_false_iff]
      exact fun none => by simp [none] at member
    rw [listed, List.filter_cons_of_pos (p := fun h => (sourcePath t joins h).isUsable) some,
      List.map_cons, List.flatMap_cons, firstUses_append] at hu
    rcases List.mem_append.1 hu with early | late
    · exact ⟨first, rfl, firstUses_subset _ early⟩
    · exact absurd member (of_decide_eq_true (List.mem_filter.1 late).2)

theorem isHidden_firstUse_iff (columns : t.ColumnsApart) (inside : joins ⊆ t.columns)
    (once : (joins.map fun c => lower c.name).Nodup) {use : LevelUse}
    (hu : use ∈ firstUses ((drillPaths t joins).flatMap (·.uses))) : use.isHidden = true ↔
      use.column ∈ joins ∧ ∀ h ∈ t.hierarchies.head?, use.column ∉ levelColumns t h := by
  have listed {h : Tabular.Hierarchy} (known : use ∈ (sourcePath t joins h).uses) :
      use.isHidden = true ↔ use.column ∉ levelColumns t h := by
    rw [sourcePath_uses columns inside once] at known
    rcases List.mem_append.1 known with early | late
    · have shown := (column_mem_of_mem_listedUses (firstUses_subset _ early)).2
      simp only [shown, Bool.false_eq_true, false_iff, not_not]
      exact List.mem_map_of_mem early
    · obtain ⟨column, hidden⟩ := mem_joinUses late
      simpa [hidden] using (List.mem_filter.1 column).2
  constructor
  · intro hidden
    obtain ⟨h, -, known⟩ := mem_path_of_usable usable (firstUses_subset _ hu)
    have joined : use.column ∈ joins := by
      rcases mem_sourcePath known with early | late
      · rw [(column_mem_of_mem_listedUses early).2] at hidden
        cases hidden
      · exact (mem_joinUses late).1
    obtain ⟨first, head, known⟩ := exists_head_of_mem_joins usable hu joined
    refine ⟨joined, fun h hh => ?_⟩
    obtain rfl := Option.some.inj (head.symm.trans hh)
    exact (listed known).1 hidden
  · rintro ⟨joined, unlisted⟩
    obtain ⟨first, head, known⟩ := exists_head_of_mem_joins usable hu joined
    exact (listed known).2 (unlisted first head)

end Hidden

/-- Levels are hidden over the columns that are hidden themselves or that no hierarchy of the model
lists, and over no others. -/
def HidesUnlisted (t : Table) (d : Dimension) : Prop :=
  ∀ a ∈ d.levelAttributes, ∀ c ∈ t.columns, a.keyColumns = [c.name] →
    (a.isHidden = true ↔ c.isHidden = true ∨ ∀ h ∈ t.hierarchies, c ∉ levelColumns t h)

instance (t : Table) (d : Dimension) : Decidable (HidesUnlisted t d) := by
  unfold HidesUnlisted
  infer_instance

structure HidesByFirst (source : Source) (t : Table) (d : Dimension) : Prop where
  /-- A join column that the first hierarchy does not list is hidden, whatever the others list. -/
  attributes : ∀ a ∈ d.levelAttributes, ∃ c ∈ t.columns, a.keyColumns = [c.name] ∧
    (a.isHidden = true ↔ c.isHidden = true ∨ c ∈ joinColumns source t ∧
      ∀ h ∈ t.hierarchies.head?, c ∉ levelColumns t h)
  /-- So the first hierarchy has to list all join columns that any hierarchy lists. -/
  unlisted : HidesUnlisted t d ↔ ∀ c ∈ joinColumns source t, c.isHidden = false →
    (∃ h ∈ t.hierarchies, c ∈ levelColumns t h) → ∀ h ∈ t.hierarchies.head?, c ∈ levelColumns t h

theorem DrawnFrom.hidesByFirst (drawn : DrawnFrom source names t d) (columns : t.ColumnsApart)
    (usable : usableHierarchies t (joinColumns source t) ≠ []) : HidesByFirst source t d := by
  have inside := joinColumns_subset source t
  have once : ((joinColumns source t).map fun c => lower c.name).Nodup := nodup_joinColumns columns
  have hides (use : LevelUse) (a : LevelAttribute)
      (hu : use ∈ firstUses ((drillPaths t (joinColumns source t)).flatMap (·.uses)))
      (made : IsAttribute names t use a) : a.isHidden = true ↔ use.column.isHidden = true ∨
        use.column ∈ joinColumns source t ∧
          ∀ h ∈ t.hierarchies.head?, use.column ∉ levelColumns t h := by
    rw [made.isHidden, Bool.or_eq_true, isHidden_firstUse_iff usable columns inside once hu,
      or_comm]
  have column_eq {use : LevelUse} {a : LevelAttribute} {c : Column}
      (hu : use ∈ firstUses ((drillPaths t (joinColumns source t)).flatMap (·.uses)))
      (made : IsAttribute names t use a) (hc : c ∈ t.columns) (keyed : a.keyColumns = [c.name]) :
      use.column = c :=
    columns.eq_of_lower (mem_columns_of_use (firstUses_subset _ hu)) hc
      (congrArg lower (List.cons.inj (made.keyColumns.symm.trans keyed)).1)
  refine ⟨fun a ha => ?_, fun only c hc shown => ?_, fun first a ha c hc keyed => ?_⟩
  · obtain ⟨use, hu, made⟩ := exists_left_of_forall₂ drawn.attributes a ha
    exact ⟨use.column, mem_columns_of_use (firstUses_subset _ hu), made.keyColumns,
      hides use a hu made⟩
  · rintro ⟨k, hk, listed⟩ h hh
    obtain ⟨p, hp⟩ := List.exists_mem_of_ne_nil _ usable
    have path : sourcePath t (joinColumns source t) p ∈ drillPaths t (joinColumns source t) :=
      drillPaths_of_usable usable ▸ List.mem_map_of_mem hp
    obtain ⟨any, hany, folded⟩ := List.mem_map.1 (key_mem_of_mem_joins hc path)
    obtain ⟨a, ha, use, same, hu, made⟩ :=
      drawn.exists_attribute (List.mem_flatMap.2 ⟨_, path, hany⟩)
    have column : use.column = c :=
      columns.eq_of_lower (mem_columns_of_use (firstUses_subset _ hu)) (inside hc)
        (same.trans folded)
    have hidden := only a ha c (inside hc) (column ▸ made.keyColumns)
    rw [hides use a hu made, column] at hidden
    by_contra missing
    rcases hidden.1 (Or.inr ⟨hc, fun h' hh' => Option.mem_unique hh hh' ▸ missing⟩) with own | none
    · rw [shown] at own
      cases own
    · exact none k hk listed
  · obtain ⟨use, hu, made⟩ := exists_left_of_forall₂ drawn.attributes a ha
    obtain rfl := column_eq hu made hc keyed
    rw [hides use a hu made]
    refine or_congr_right' fun shown =>
      ⟨fun ⟨joined, unlisted⟩ h hh listed => ?_, fun unlisted => ?_⟩
    · obtain ⟨head, known⟩ := Option.ne_none_iff_exists'.1 fun none =>
        List.ne_nil_of_mem hh (List.head?_eq_none_iff.1 none)
      exact unlisted head known
        (first use.column joined (Bool.eq_false_iff.2 shown) ⟨h, hh, listed⟩ head known)
    · obtain ⟨k, hk, known⟩ := mem_path_of_usable usable (firstUses_subset _ hu)
      rw [sourcePath_uses columns inside once] at known
      rcases List.mem_append.1 known with listed | joined
      · exact absurd (List.mem_map_of_mem listed) (unlisted k hk)
      · exact ⟨List.mem_of_mem_filter (mem_joinUses joined).1, fun h hh =>
          unlisted h (List.mem_of_mem_head? hh)⟩

/-- Whether a level over a shown column is hidden is up to the first hierarchy of its table. -/
theorem convertWith_hidesByFirst [Sql.Parser] {settings : Settings} {database : Database}
    {connection : String} {c : Conversion} (distinct : database.model.TablesDistinct)
    (columns : ∀ t ∈ database.model.tables, t.ColumnsApart)
    (h : convertWith settings database connection = .ok c) :
    ∀ d ∈ c.dimensions, ∃ t ∈ database.model.tables, d.label = t.name ∧
      (usableHierarchies t (joinColumns ⟨database.model, settings⟩ t) ≠ [] →
        HidesByFirst ⟨database.model, settings⟩ t d) := by
  obtain ⟨names, -, -, drawn⟩ := convertWith_drawn distinct h
  intro d hd
  obtain ⟨t, ht, made⟩ := drawn d hd
  exact ⟨t, ht, made.label, made.hidesByFirst (columns t ht)⟩

/-- Customers by country and by themselves. Sales join on what only the second hierarchy lists. -/
def clientele : Database where
  name := "Shop"
  model := {
    tables := [
      { name := "Sales"
        columns := [.data "Customer" "int64", .data "Amount" "decimal"]
        measures := [{ name := "Total", expression := ⟨"SUM(Sales[Amount])"⟩ }] },
      { name := "Customer"
        columns := [.data "Id" "int64", .data "Country" "string"]
        hierarchies := [
          { name := "Geography", levels := [{ name := "Country", column := "Country" }] },
          { name := "Customers", levels := [{ name := "Number", column := "Id" }] }] }]
    relationships := [
      { fromTable := "Sales", fromColumn := "Customer", toTable := "Customer", toColumn := "Id" }] }

attribute [local instance] Sql.Parser.lenient

/-- The column of the customers is hidden, although their second hierarchy lists it. -/
theorem convertWith_hidesByFirst_clientele :
    ∃ c, convertWith {} clientele "warehouse" = .ok c ∧
      (∀ d ∈ c.dimensions, ∃ t ∈ clientele.model.tables, d.label = t.name ∧
        (usableHierarchies t (joinColumns ⟨clientele.model, {}⟩ t) ≠ [] →
          HidesByFirst ⟨clientele.model, {}⟩ t d)) ∧
      ∃ d ∈ c.dimensions, ∃ t ∈ clientele.model.tables, d.label = t.name ∧
        usableHierarchies t (joinColumns ⟨clientele.model, {}⟩ t) ≠ [] ∧ ¬HidesUnlisted t d := by
  have hidden : ∃ c, convertWith {} clientele "warehouse" = .ok c ∧
      ∃ d ∈ c.dimensions, ∃ t ∈ clientele.model.tables, d.label = t.name ∧
        ¬(usableHierarchies t (joinColumns ⟨clientele.model, {}⟩ t)).isEmpty ∧
          ¬HidesUnlisted t d :=
    exists_convertWith (by decide +kernel)
  obtain ⟨c, made, d, hd, t, ht, label, usable, not⟩ := hidden
  have some : usableHierarchies t (joinColumns ⟨clientele.model, {}⟩ t) ≠ [] :=
    fun none => usable (none ▸ rfl)
  exact ⟨c, made, convertWith_hidesByFirst (by decide +kernel) (by decide +kernel) made,
    d, hd, t, ht, label, some, not⟩

end SemanticLayer.Conversion
