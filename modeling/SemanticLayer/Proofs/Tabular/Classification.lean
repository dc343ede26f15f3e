import Mathlib.Data.List.Induction
import SemanticLayer.Classification
import SemanticLayer.Proofs.Tabular.Naming

set_option autoImplicit false

/-!
The classes of tables. Each list holds the tables that have its role, and the sides of the
relationships are known before any table is looked at. A table that only a later classification
takes for a fact backs a metric by then.
-/
namespace SemanticLayer

theorem mem_insertName {names : List String} {name other : String} :
    other ∈ insertName names name ↔ other ∈ names ∨ other = name := by
  unfold insertName
  split
  · rename_i known
    refine ⟨Or.inl, fun h => h.elim id fun eq => ?_⟩
    exact eq ▸ List.contains_iff_mem.1 known
  · rw [List.mem_append, List.mem_singleton]

theorem mem_foldl_insertName {names start : List String} {name : String} :
    name ∈ names.foldl insertName start ↔ name ∈ start ∨ name ∈ names := by
  induction names generalizing start with
  | nil => simp
  | cons n names ih => rw [List.foldl_cons, ih, mem_insertName, List.mem_cons, or_assoc]

theorem nodup_insertName {names : List String} (h : names.Nodup) (name : String) :
    (insertName names name).Nodup := by
  unfold insertName
  split
  · exact h
  · rename_i fresh
    rw [← List.concat_eq_append]
    exact List.Nodup.concat (mt List.contains_iff_mem.2 fresh) h

theorem nodup_foldl_insertName {names start : List String} (h : start.Nodup) :
    (names.foldl insertName start).Nodup := by
  induction names generalizing start with
  | nil => exact h
  | cons n names ih => exact ih (nodup_insertName h n)

theorem foldl_insertName_nil (names : List String) :
    names.foldl insertName [] = names.eraseDups := by
  induction names using List.reverseRecOn with
  | nil => rfl
  | append_singleton names name ih =>
    rw [List.foldl_append, ih, List.eraseDups_append]
    simp only [List.foldl_cons, List.foldl_nil, insertName, List.removeAll]
    by_cases known : name ∈ names
    · simp [known]
    · simp [known, List.eraseDups_cons]

/-- The tables of a model that a relationship leads from and to. -/
structure Tabular.Model.Leads (m : Tabular.Model) (r : Tabular.Relationship)
    (first second : Tabular.Table) : Prop where
  fromTable : m.table? r.fromTable = some first
  toTable : m.table? r.toTable = some second

attribute [ext] TableLists

namespace TableLists

open Tabular (Table)

def OnlySides (lists : TableLists) : Prop :=
  lists.unused = [] ∧ lists.measureOnly = [] ∧ lists.fact = [] ∧ lists.dimension = []

theorem OnlySides.addRelationship {lists : TableLists} (h : lists.OnlySides)
    (model : Tabular.Model) (r : Tabular.Relationship) :
    (addRelationship model lists r).OnlySides := by
  unfold TableLists.addRelationship
  split
  · exact h
  · exact h

theorem OnlySides.foldl {lists : TableLists} (h : lists.OnlySides) (model : Tabular.Model)
    (rs : List Tabular.Relationship) :
    (rs.foldl (TableLists.addRelationship model) lists).OnlySides := by
  induction rs generalizing lists with
  | nil => exact h
  | cons r rs ih => exact ih (h.addRelationship model r)

theorem onlySides_sides (model : Tabular.Model) : (sides model).OnlySides :=
  OnlySides.foldl ⟨rfl, rfl, rfl, rfl⟩ model _

theorem mem_addRelationship {model : Tabular.Model} {lists : TableLists}
    {r : Tabular.Relationship} {name : String} :
    (name ∈ (addRelationship model lists r).left ↔ name ∈ lists.left ∨
      ∃ first second, model.Leads r first second ∧ first.name = name) ∧
    (name ∈ (addRelationship model lists r).right ↔ name ∈ lists.right ∨
      ∃ first second, model.Leads r first second ∧ second.name = name) := by
  unfold addRelationship
  split
  · rename_i first second from? to?
    have only {first' second' : Table} (leads : model.Leads r first' second') :
        first' = first ∧ second' = second :=
      ⟨Option.some.inj (leads.fromTable.symm.trans from?),
        Option.some.inj (leads.toTable.symm.trans to?)⟩
    constructor
    · refine mem_insertName.trans (or_congr_right ⟨fun same => ?_, ?_⟩)
      · exact ⟨first, second, ⟨from?, to?⟩, same.symm⟩
      · rintro ⟨first', second', leads, rfl⟩
        rw [(only leads).1]
    · refine mem_insertName.trans (or_congr_right ⟨fun same => ?_, ?_⟩)
      · exact ⟨first, second, ⟨from?, to?⟩, same.symm⟩
      · rintro ⟨first', second', leads, rfl⟩
        rw [(only leads).2]
  · rename_i unknown
    have nowhere {p : Table → Table → Prop} :
        ¬∃ first second, model.Leads r first second ∧ p first second :=
      fun ⟨first, second, leads, _⟩ => unknown first second leads.fromTable leads.toTable
    exact ⟨(or_iff_left nowhere).symm, (or_iff_left nowhere).symm⟩

theorem mem_foldl_addRelationship {model : Tabular.Model} {rs : List Tabular.Relationship}
    {lists : TableLists} {name : String} :
    (name ∈ (rs.foldl (addRelationship model) lists).left ↔ name ∈ lists.left ∨
      ∃ r ∈ rs, ∃ first second, model.Leads r first second ∧ first.name = name) ∧
    (name ∈ (rs.foldl (addRelationship model) lists).right ↔ name ∈ lists.right ∨
      ∃ r ∈ rs, ∃ first second, model.Leads r first second ∧ second.name = name) := by
  induction rs generalizing lists with
  | nil => simp
  | cons r rs ih =>
    rw [List.foldl_cons, ih.1, ih.2, mem_addRelationship.1, mem_addRelationship.2, or_assoc,
      or_assoc, List.exists_mem_cons_iff, List.exists_mem_cons_iff]
    exact ⟨Iff.rfl, Iff.rfl⟩

theorem mem_left_iff {model : Tabular.Model} {name : String} : name ∈ (sides model).left ↔
    ∃ r ∈ model.relationships, r.isActive = true ∧
      ∃ first second, model.Leads r first second ∧ first.name = name := by
  rw [sides, mem_foldl_addRelationship.1, or_iff_right List.not_mem_nil]
  simp only [List.mem_filter, and_assoc]

theorem mem_right_iff {model : Tabular.Model} {name : String} : name ∈ (sides model).right ↔
    ∃ r ∈ model.relationships, r.isActive = true ∧
      ∃ first second, model.Leads r first second ∧ second.name = name := by
  rw [sides, mem_foldl_addRelationship.2, or_iff_right List.not_mem_nil]
  simp only [List.mem_filter, and_assoc]

/-- The lists after some tables, whose roles are read off the sides that were there before. -/
structure After (start : TableLists) (backing : List String) (tables : List Table)
    (lists : TableLists) : Prop where
  left : lists.left = start.left
  right : lists.right = start.right
  fact : ∀ name, name ∈ lists.fact ↔ ∃ t ∈ tables, t.name = name ∧ (role start backing t).isFact
  dimension : ∀ name, name ∈ lists.dimension ↔
    ∃ t ∈ tables, t.name = name ∧ (role start backing t).isDimension
  measureOnly : ∀ name, name ∈ lists.measureOnly ↔
    ∃ t ∈ tables, t.name = name ∧ (role start backing t).isMeasureOnly
  unused : ∀ name ∈ lists.unused, ∃ t ∈ tables, t.name = name ∧
    (role start backing t).isFact = false ∧ (role start backing t).isDimension = false ∧
      (role start backing t).isMeasureOnly = false
  listed : ∀ t ∈ tables, t.name ∈ lists.fact ∨ t.name ∈ lists.dimension ∨
    t.name ∈ lists.measureOnly ∨ t.name ∈ lists.unused

theorem mem_insert_if {p : Bool} {names : List String} {name other : String} :
    other ∈ (if p then insertName names name else names) ↔
      other ∈ names ∨ p = true ∧ other = name := by
  cases p
  · simp
  · simp [mem_insertName]

variable {start lists : TableLists} {backing : List String} {tables : List Table}

theorem mem_insert_role {p : Table → Bool} {names : List String}
    (h : ∀ name, name ∈ names ↔ ∃ t ∈ tables, t.name = name ∧ p t = true) (t : Table)
    (name : String) : (name ∈ if p t then insertName names t.name else names) ↔
      ∃ t' ∈ tables ++ [t], t'.name = name ∧ p t' = true := by
  rw [mem_insert_if, h]
  constructor
  · rintro (⟨t', ht', same, role⟩ | ⟨role, rfl⟩)
    · exact ⟨t', List.mem_append_left _ ht', same, role⟩
    · exact ⟨t, List.mem_append_right _ (List.mem_singleton_self t), rfl, role⟩
  · rintro ⟨t', ht', rfl, role⟩
    rcases List.mem_append.1 ht' with old | new
    · exact Or.inl ⟨t', old, rfl, role⟩
    · rw [List.mem_singleton.1 new] at role ⊢
      exact Or.inr ⟨role, rfl⟩

theorem addTable_lists (backing : List String) (lists : TableLists) (t : Table) :
    (addTable backing lists t).left = lists.left ∧
      (addTable backing lists t).right = lists.right ∧
      (addTable backing lists t).dimension = (if (role lists backing t).isDimension
        then insertName lists.dimension t.name else lists.dimension) ∧
      (addTable backing lists t).fact = (if (role lists backing t).isFact
        then insertName lists.fact t.name else lists.fact) ∧
      (addTable backing lists t).measureOnly = (if (role lists backing t).isMeasureOnly
        then insertName lists.measureOnly t.name else lists.measureOnly) := by
  refine ⟨?_, ?_, ?_, ?_, ?_⟩
  · exact (apply_ite left _ _ _).trans (ite_self _)
  · exact (apply_ite right _ _ _).trans (ite_self _)
  · exact (apply_ite dimension _ _ _).trans (ite_self _)
  · exact (apply_ite fact _ _ _).trans (ite_self _)
  · exact (apply_ite measureOnly _ _ _).trans (ite_self _)

theorem unused_addTable (backing : List String) (lists : TableLists) (t : Table) :
    (addTable backing lists t).unused = if (addTable backing lists t).fact.contains t.name ||
        (addTable backing lists t).dimension.contains t.name ||
        (addTable backing lists t).measureOnly.contains t.name then lists.unused
      else insertName lists.unused t.name := by
  obtain ⟨-, -, dimension, fact, measureOnly⟩ := addTable_lists backing lists t
  rw [dimension, fact, measureOnly]
  exact apply_ite unused _ _ _

theorem mem_unused_addTable {t : Table} {name : String}
    (h : name ∈ (addTable backing lists t).unused) :
    name ∈ lists.unused ∨ name = t.name ∧ name ∉ (addTable backing lists t).fact ∧
      name ∉ (addTable backing lists t).dimension ∧
        name ∉ (addTable backing lists t).measureOnly := by
  rw [unused_addTable] at h
  split at h
  · exact Or.inl h
  · rename_i without
    simp only [Bool.or_eq_true, not_or, List.contains_iff_mem] at without
    rcases mem_insertName.1 h with old | rfl
    · exact Or.inl old
    · exact Or.inr ⟨rfl, without.1.1, without.1.2, without.2⟩

theorem mem_addTable (backing : List String) (lists : TableLists) (t : Table) :
    t.name ∈ (addTable backing lists t).fact ∨ t.name ∈ (addTable backing lists t).dimension ∨
      t.name ∈ (addTable backing lists t).measureOnly ∨
        t.name ∈ (addTable backing lists t).unused := by
  by_cases listed : (addTable backing lists t).fact.contains t.name ||
      (addTable backing lists t).dimension.contains t.name ||
      (addTable backing lists t).measureOnly.contains t.name
  · simp only [Bool.or_eq_true, List.contains_iff_mem, or_assoc] at listed
    exact listed.imp_right fun other => other.imp_right Or.inl
  · refine Or.inr (Or.inr (Or.inr ?_))
    rw [unused_addTable, if_neg listed]
    exact mem_insertName.2 (Or.inr rfl)

theorem unused_subset_addTable (backing : List String) (lists : TableLists) (t : Table) :
    lists.unused ⊆ (addTable backing lists t).unused := by
  intro name known
  rw [unused_addTable]
  split
  · exact known
  · exact mem_insertName.2 (Or.inl known)

theorem After.addTable (h : After start backing tables lists) (t : Table) :
    After start backing (tables ++ [t]) (addTable backing lists t) := by
  -- Roles are read off the two sides, which no table changes.
  have same (t : Table) : role lists backing t = role start backing t := by
    rw [role, role, h.left, h.right]
  obtain ⟨left, right, dimension, fact, measureOnly⟩ := addTable_lists backing lists t
  rw [same] at dimension fact measureOnly
  have facts (name : String) : name ∈ (TableLists.addTable backing lists t).fact ↔
      ∃ t' ∈ tables ++ [t], t'.name = name ∧ (role start backing t').isFact = true := by
    rw [fact]
    exact mem_insert_role h.fact t name
  have dimensions (name : String) : name ∈ (TableLists.addTable backing lists t).dimension ↔
      ∃ t' ∈ tables ++ [t], t'.name = name ∧ (role start backing t').isDimension = true := by
    rw [dimension]
    exact mem_insert_role h.dimension t name
  have measures (name : String) : name ∈ (TableLists.addTable backing lists t).measureOnly ↔
      ∃ t' ∈ tables ++ [t], t'.name = name ∧ (role start backing t').isMeasureOnly = true := by
    rw [measureOnly]
    exact mem_insert_role h.measureOnly t name
  have earlier {p : Table → Bool} {t' : Table} (h : ∃ t₁ ∈ tables, t₁.name = t'.name ∧ p t₁) :
      ∃ t₁ ∈ tables ++ [t], t₁.name = t'.name ∧ p t₁ :=
    h.imp fun _ known => ⟨List.mem_append_left _ known.1, known.2⟩
  refine ⟨left.trans h.left, right.trans h.right, facts, dimensions, measures,
    fun name found => ?_, List.forall_mem_append.2 ⟨fun t' ht' => ?_, ?_⟩⟩
  rotate_left
  · rw [facts, dimensions, measures]
    refine (h.listed t' ht').imp (fun known => earlier ((h.fact _).1 known)) (Or.imp
      (fun known => earlier ((h.dimension _).1 known)) (Or.imp
        (fun known => earlier ((h.measureOnly _).1 known)) fun known => ?_))
    exact unused_subset_addTable backing lists t known
  · exact fun t' ht' => List.mem_singleton.1 ht' ▸ mem_addTable backing lists t
  rcases mem_unused_addTable found with old | ⟨rfl, noFact, noDimension, noMeasures⟩
  · obtain ⟨t', ht', rfl, without⟩ := h.unused name old
    exact ⟨t', List.mem_append_left _ ht', rfl, without⟩
  · have last := List.mem_append_right tables (List.mem_singleton_self t)
    rw [facts] at noFact
    rw [dimensions] at noDimension
    rw [measures] at noMeasures
    refine ⟨t, last, rfl, ?_, ?_, ?_⟩
    · exact Bool.eq_false_iff.2 fun role => noFact ⟨t, last, rfl, role⟩
    · exact Bool.eq_false_iff.2 fun role => noDimension ⟨t, last, rfl, role⟩
    · exact Bool.eq_false_iff.2 fun role => noMeasures ⟨t, last, rfl, role⟩

theorem After.foldl {done : List Table} (h : After start backing done lists) (rest : List Table) :
    After start backing (done ++ rest) (rest.foldl (TableLists.addTable backing) lists) := by
  induction rest generalizing done lists with
  | nil => rwa [List.append_nil]
  | cons t rest ih =>
    have next := ih (h.addTable t)
    rwa [List.append_assoc] at next

theorem after_sides (model : Tabular.Model) (backing : List String) :
    After (sides model) backing [] (sides model) := by
  obtain ⟨unused, measureOnly, fact, dimension⟩ := onlySides_sides model
  refine ⟨rfl, rfl, ?_, ?_, ?_, ?_, ?_⟩
  all_goals simp [unused, measureOnly, fact, dimension]

theorem after_classify (model : Tabular.Model) (backing : List String) :
    After (sides model) backing model.tables (classify model backing) :=
  (after_sides model backing).foldl model.tables

/-- A table that joins nothing to many rows and backs no metric has the role it had before. -/
theorem role_of_not_backing {t : Table} (h : t.name ∉ backing) :
    role start backing t = role start [] t := by
  have backs : backing.contains t.name = false := by simpa using h
  rw [role, role, backs]
  rfl

/-- A table for measures only has no other role, and one without any role has no measures. -/
theorem role_exclusive (start : TableLists) (t : Table) :
    ((role start [] t).isFact = true ∨ (role start [] t).isDimension = true →
      (role start [] t).isMeasureOnly = false) ∧
    ((role start [] t).isFact = false → (role start [] t).isDimension = false →
      (role start [] t).isMeasureOnly = false → t.measures.isEmpty = true) := by
  simp only [role, List.contains_nil]
  generalize start.left.contains t.name = onLeft
  generalize start.right.contains t.name = onRight
  generalize hasVisibleColumns t = visible
  generalize t.measures.isEmpty = empty
  revert onLeft onRight visible empty
  decide

theorem measures_of_unused {model : Tabular.Model} (apart : model.TablesApart) {t : Table}
    (ht : t ∈ model.tables) (h : t.name ∈ (classify model []).unused) : t.measures = [] := by
  obtain ⟨t', ht', same, fact, dimension, measureOnly⟩ := (after_classify model []).unused _ h
  obtain rfl := apart.eq_of_lower ht' ht (by rw [same])
  exact List.isEmpty_iff.1 ((role_exclusive _ _).2 fact dimension measureOnly)

/-- A fact or a dimension backs a metric or was classified as more than measures at first. -/
theorem used_of_classify {model : Tabular.Model} (distinct : model.TablesDistinct)
    {backing : List String} {t : Table} (ht : t ∈ model.tables)
    (h : t.name ∈ (classify model backing).fact ∨ t.name ∈ (classify model backing).dimension)
    (plain : t.name ∉ backing) :
    t.name ∉ (classify model []).unused ∧ t.name ∉ (classify model []).measureOnly := by
  have again := after_classify model backing
  have first := after_classify model []
  have only {t' : Table} (ht' : t' ∈ model.tables) (same : t'.name = t.name) : t' = t :=
    distinct.eq_of_lower ht' ht (by rw [same])
  have roles : (role (sides model) [] t).isFact = true ∨
      (role (sides model) [] t).isDimension = true := by
    rw [← role_of_not_backing plain]
    refine h.imp (fun fact => ?_) fun dimension => ?_
    · obtain ⟨t', ht', same, role⟩ := (again.fact _).1 fact
      exact only ht' same ▸ role
    · obtain ⟨t', ht', same, role⟩ := (again.dimension _).1 dimension
      exact only ht' same ▸ role
  refine ⟨fun unused => ?_, fun measureOnly => ?_⟩
  · obtain ⟨t', ht', same, noFact, noDimension, -⟩ := first.unused _ unused
    obtain rfl := only ht' same
    rw [noFact, noDimension] at roles
    simp at roles
  · obtain ⟨t', ht', same, role⟩ := (first.measureOnly _).1 measureOnly
    obtain rfl := only ht' same
    rw [(role_exclusive _ _).1 roles] at role
    cases role

theorem isFact_of_backing {t : Table} (h : t.name ∈ backing ∨ (role start [] t).isFact = true) :
    (role start backing t).isFact = true := by
  by_cases backs : t.name ∈ backing
  · simp [role, backs]
  · rw [role_of_not_backing backs]
    exact h.resolve_left backs

theorem classify_of_used {model : Tabular.Model} {backing : List String} {t : Table}
    (ht : t ∈ model.tables) (h : t.name ∉ (classify model []).unused ∧
      t.name ∉ (classify model []).measureOnly ∨ t.name ∈ backing) :
    t.name ∈ (classify model backing).fact ∨ t.name ∈ (classify model backing).dimension := by
  have again := after_classify model backing
  have first := after_classify model []
  rcases h with ⟨used, more⟩ | backs
  · rcases first.listed t ht with fact | dimension | wrong | wrong
    · obtain ⟨t', ht', same, role⟩ := (first.fact _).1 fact
      exact Or.inl ((again.fact _).2 ⟨t', ht', same, isFact_of_backing (Or.inr role)⟩)
    · obtain ⟨t', ht', same, role⟩ := (first.dimension _).1 dimension
      exact Or.inr ((again.dimension _).2 ⟨t', ht', same, role⟩)
    · exact absurd wrong more
    · exact absurd wrong used
  · exact Or.inl ((again.fact _).2 ⟨t, ht, rfl, isFact_of_backing (Or.inl backs)⟩)

/-- The second table of an active relationship is a dimension, and the first one a fact unless it is
one as well. -/
theorem classify_ends {model : Tabular.Model} {r : Tabular.Relationship} {first second : Table}
    (hr : r ∈ model.relationships) (active : r.isActive = true)
    (from? : model.table? r.fromTable = some first) (to? : model.table? r.toTable = some second)
    (backing : List String) : second.name ∈ (classify model backing).dimension ∧
      (first.name ∈ (classify model backing).fact ∨
        first.name ∈ (classify model backing).dimension) := by
  have left := mem_left_iff.2 ⟨r, hr, active, first, second, ⟨from?, to?⟩, rfl⟩
  have right := mem_right_iff.2 ⟨r, hr, active, first, second, ⟨from?, to?⟩, rfl⟩
  have classes := after_classify model backing
  have describes {t : Table} (ht : t ∈ model.tables) (onRight : t.name ∈ (sides model).right) :
      t.name ∈ (classify model backing).dimension :=
    (classes.dimension _).2 ⟨t, ht, rfl, List.contains_iff_mem.2 onRight⟩
  have known := Tabular.Model.mem_of_table? from?
  refine ⟨describes (Tabular.Model.mem_of_table? to?) right, ?_⟩
  by_cases onRight : first.name ∈ (sides model).right
  · exact Or.inr (describes known onRight)
  · refine Or.inl ((classes.fact _).2 ⟨first, known, rfl, ?_⟩)
    simp [role, left, onRight]

theorem right_subset_dimension (model : Tabular.Model) (backing : List String) :
    (classify model backing).right ⊆ (classify model backing).dimension := by
  intro name onRight
  rw [(after_classify model backing).right] at onRight
  obtain ⟨r, hr, active, first, t, leads, rfl⟩ := mem_right_iff.1 onRight
  exact (classify_ends hr active leads.fromTable leads.toTable backing).1

def isTarget (model : Tabular.Model) (t : Table) : Bool :=
  model.relationships.any fun r => r.isActive && (model.table? r.fromTable).isSome &&
    (model.table? r.toTable).any (·.name == t.name)

theorem isTarget_iff {model : Tabular.Model} {t : Table} :
    isTarget model t = true ↔ t.name ∈ (sides model).right := by
  simp only [isTarget, List.any_eq_true, Bool.and_eq_true, Option.any_eq_true, beq_iff_eq,
    mem_right_iff]
  constructor
  · rintro ⟨r, hr, ⟨active, from?⟩, target, to?, same⟩
    obtain ⟨source, from?⟩ := Option.isSome_iff_exists.1 from?
    exact ⟨r, hr, active, source, target, ⟨from?, to?⟩, same⟩
  · rintro ⟨r, hr, active, first, target, leads, same⟩
    exact ⟨r, hr, ⟨active, by rw [leads.fromTable]; rfl⟩, target, leads.toTable, same⟩

theorem mem_dimension_iff {model : Tabular.Model} {t : Table} (ht : t ∈ model.tables)
    (backing : List String) :
    t.name ∈ (classify model backing).dimension ↔ isTarget model t = true := by
  rw [(after_classify model backing).dimension, isTarget_iff]
  constructor
  · rintro ⟨t', -, same, role⟩
    exact same ▸ List.contains_iff_mem.1 role
  · exact fun known => ⟨t, ht, rfl, List.contains_iff_mem.2 known⟩

end TableLists

def Tabular.Model.dimensionTables (m : Tabular.Model) : List Tabular.Table :=
  m.tables.filter (TableLists.isTarget m)

end SemanticLayer
