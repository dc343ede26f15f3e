import SemanticLayer.Proofs.TwoRuns.Tables

set_option autoImplicit false

/-!
Both sources classify their common tables alike. A stranger has no measures, joins nothing and backs
no metric, so it is unused, and no other table has another class because of it.
-/
namespace SemanticLayer

open Tabular (Table)

namespace TableLists

variable {lists : TableLists} {backing : List String}

theorem forall_mem_sides {model : Tabular.Model} {p : String → Prop}
    (tables : ∀ t ∈ model.tables, p t.name) :
    (∀ name ∈ (sides model).left, p name) ∧ ∀ name ∈ (sides model).right, p name := by
  constructor
  · intro name onLeft
    obtain ⟨_, -, -, first, _, leads, rfl⟩ := mem_left_iff.1 onLeft
    exact tables first (Tabular.Model.mem_of_table? leads.fromTable)
  · intro name onRight
    obtain ⟨_, -, -, _, second, leads, rfl⟩ := mem_right_iff.1 onRight
    exact tables second (Tabular.Model.mem_of_table? leads.toTable)

structure Lacks (lists : TableLists) (name : String) : Prop where
  left : name ∉ lists.left
  right : name ∉ lists.right
  measureOnly : name ∉ lists.measureOnly
  fact : name ∉ lists.fact
  dimension : name ∉ lists.dimension

theorem addTable_unused (backing : List String) (lists : TableLists) (t : Table)
    (unused : List String) : addTable backing { lists with unused } t =
      { addTable backing lists t with
        unused := if (addTable backing lists t).fact.contains t.name ||
            (addTable backing lists t).dimension.contains t.name ||
            (addTable backing lists t).measureOnly.contains t.name then unused
          else insertName unused t.name } := by
  obtain ⟨left, right, dimension, fact, measureOnly⟩ := addTable_lists backing lists t
  obtain ⟨left', right', dimension', fact', measureOnly'⟩ :=
    addTable_lists backing { lists with unused } t
  refine TableLists.ext ?_ (left'.trans left.symm) (right'.trans right.symm)
    (measureOnly'.trans measureOnly.symm) (fact'.trans fact.symm)
      (dimension'.trans dimension.symm)
  rw [unused_addTable, fact', dimension', measureOnly', fact, dimension, measureOnly]
  rfl

theorem addTable_idle {t : Table} (lacks : lists.Lacks t.name) (used : t.name ∉ lists.unused)
    (backs : t.name ∉ backing) (measureless : t.measures = []) :
    addTable backing lists t = { lists with unused := lists.unused ++ [t.name] } := by
  have nothing : role lists backing t = ⟨false, false, false⟩ := by
    simp [role, lacks.left, lacks.right, backs, measureless]
  have fresh : insertName lists.unused t.name = lists.unused ++ [t.name] := by
    simp [insertName, used]
  simp [addTable, nothing, lacks.measureOnly, lacks.fact, lacks.dimension, fresh]

theorem foldl_addTable_idle {ts : List Table} (distinct : (ts.map (·.name)).Nodup)
    (idle : ∀ t ∈ ts, lists.Lacks t.name ∧ t.name ∉ lists.unused ∧ t.name ∉ backing ∧
      t.measures = []) : ts.foldl (addTable backing) lists =
        { lists with unused := lists.unused ++ ts.map (·.name) } := by
  induction ts generalizing lists with
  | nil => simp
  | cons t ts ih =>
    obtain ⟨lacks, used, backs, measureless⟩ := idle t List.mem_cons_self
    obtain ⟨apart, distinct⟩ := List.nodup_cons.1 distinct
    rw [List.foldl_cons, addTable_idle lacks used backs measureless, ih distinct]
    · simp
    · intro other later
      obtain ⟨lacks, used, rest⟩ := idle other (List.mem_cons_of_mem t later)
      refine ⟨⟨lacks.left, lacks.right, lacks.measureOnly, lacks.fact, lacks.dimension⟩, ?_, rest⟩
      intro found
      rcases List.mem_append.1 found with old | same
      · exact used old
      · exact apart (List.mem_map.2 ⟨other, later, List.mem_singleton.1 same⟩)

end TableLists

namespace Conversion

open TableLists

variable {v : Variation} {source source' : Source}

theorem role_respelled {R : String → String → Prop} {t t' : Table} (h : t.Respelled R t')
    (lists : TableLists) (backing : List String) :
    role lists backing t' = role lists backing t := by
  rw [role, role, h.name_eq, h.measures_eq, hasVisibleColumns_respelled h]

theorem addTable_respelled {R : String → String → Prop} {t t' : Table} (h : t.Respelled R t')
    (backing : List String) (lists : TableLists) :
    addTable backing lists t' = addTable backing lists t := by
  rw [addTable, addTable, role_respelled h, h.name_eq]

theorem addTable_related {t t' : Table} (h : v.Tables t t') {lists : TableLists}
    {before after : List String} (unused : lists.unused = before ++ after)
    (backing : List String) : ∃ after', (addTable backing lists t).unused = before ++ after' ∧
      addTable backing { lists with
          unused := before ++ v.strangers.map (·.name) ++ after } t' =
        { addTable backing lists t with
          unused := before ++ v.strangers.map (·.name) ++ after' } := by
  have strange : t.name ∉ v.strangers.map (·.name) := fun found => by
    obtain ⟨other, ho, same⟩ := List.mem_map.1 found
    exact Variation.not_plain ho (same ▸ h.plain)
  have known : (before ++ v.strangers.map (·.name) ++ after).contains t.name =
      (before ++ after).contains t.name := by
    simp [strange]
  rw [addTable_respelled h.respelled, unused_addTable, unused,
    addTable_unused backing lists t (before ++ v.strangers.map (·.name) ++ after)]
  split
  · exact ⟨after, rfl, rfl⟩
  rw [insertName, insertName, known]
  split
  · exact ⟨after, rfl, rfl⟩
  · exact ⟨after ++ [t.name], List.append_assoc _ _ _, by rw [List.append_assoc _ after]⟩

theorem sides_related (h : v.Sources source source') :
    sides source'.model = sides source.model := by
  have active := filter_of_forall₂ (p := (·.isActive)) (q := (·.isActive)) h.relationships
    fun r r' twin => by
      obtain ⟨_, _, _, _, -, -, -, -, rfl⟩ := twin.respelled
      rfl
  have step (lists : TableLists) (r r' : Tabular.Relationship) (twin : v.Relationships r r') :
      addRelationship source.model lists r = addRelationship source'.model lists r' := by
    obtain ⟨_, _, _, _, start, -, target, -, rfl⟩ := twin.respelled
    unfold addRelationship
    obtain ⟨none, none'⟩ | ⟨t, t', found, found', first⟩ :=
      cases_of_rel (table?_related h twin.plain.1 (v.folds _ _ start))
    · rw [none, none']
    obtain ⟨none, none'⟩ | ⟨u, u', also, also', second⟩ :=
      cases_of_rel (table?_related h twin.plain.2 (v.folds _ _ target))
    · rw [none, none', found, found']
    · rw [found, found', also, also']
      dsimp only
      rw [first.respelled.name_eq, second.respelled.name_eq]
  rw [sides, sides]
  generalize source.model.relationships.filter (·.isActive) = rs at active
  generalize source'.model.relationships.filter (·.isActive) = rs' at active
  generalize ({} : TableLists) = lists
  induction active generalizing lists with
  | nil => rfl
  | cons first _ ih => rw [List.foldl_cons, List.foldl_cons, ← step lists _ _ first, ih]

theorem foldl_addTable_related {ts ts' : List Table} (h : List.Forall₂ v.Tables ts ts')
    {lists : TableLists} {before after : List String} (unused : lists.unused = before ++ after)
    (backing : List String) : ∃ after',
      (ts.foldl (addTable backing) lists).unused = before ++ after' ∧
      ts'.foldl (addTable backing) { lists with
          unused := before ++ v.strangers.map (·.name) ++ after } =
        { ts.foldl (addTable backing) lists with
          unused := before ++ v.strangers.map (·.name) ++ after' } := by
  induction h generalizing lists after with
  | nil => exact ⟨after, unused, rfl⟩
  | cons first _ ih =>
    obtain ⟨after₁, unused₁, same⟩ := addTable_related first unused backing
    rw [List.foldl_cons, List.foldl_cons, same]
    exact ih unused₁

/-- A classification does not see the strangers, if none of them backs a metric. -/
theorem classify_related (h : v.Sources source source') {backing : List String}
    (plain : ∀ name ∈ backing, v.Plain name) :
    v.Classes (classify source.model backing) (classify source'.model backing) := by
  obtain ⟨before, after, before', after', split, split', first, second⟩ := h.tables
  have tables := h.plain
  let lists := before.foldl (addTable backing) (sides source.model)
  have same : before'.foldl (addTable backing) (sides source.model) = lists := by
    refine (List.rel_foldl (P := Eq) ?_ rfl first).symm
    rintro lists _ rfl t t' twin
    exact (addTable_respelled twin.respelled backing lists).symm
  have known : After (sides source.model) backing before lists :=
    (after_sides source.model backing).foldl before
  obtain ⟨left, right⟩ := forall_mem_sides tables
  have own : ∀ t ∈ before, v.Plain t.name := fun t ht =>
    tables t (split ▸ List.mem_append_left after ht)
  have idle : ∀ t ∈ v.strangers, lists.Lacks t.name ∧ t.name ∉ lists.unused ∧
      t.name ∉ backing ∧ t.measures = [] := by
    intro t ht
    have apart {name : String} (h : v.Plain name) : name ≠ t.name := fun same =>
      Variation.not_plain ht (same ▸ h)
    refine ⟨⟨?_, ?_, ?_, ?_, ?_⟩, ?_, fun found => apart (plain _ found) rfl,
      v.measureless t ht⟩
    · exact fun found => apart (left _ (known.left ▸ found)) rfl
    · exact fun found => apart (right _ (known.right ▸ found)) rfl
    all_goals intro found
    · obtain ⟨u, hu, same, -⟩ := (known.measureOnly _).1 found
      exact apart (own u hu) same
    · obtain ⟨u, hu, same, -⟩ := (known.fact _).1 found
      exact apart (own u hu) same
    · obtain ⟨u, hu, same, -⟩ := (known.dimension _).1 found
      exact apart (own u hu) same
    · obtain ⟨u, hu, same, -⟩ := known.unused _ found
      exact apart (own u hu) same
  obtain ⟨after₁, unused, rest⟩ := foldl_addTable_related second
    (List.append_nil lists.unused).symm backing
  have whole : classify source.model backing = after.foldl (addTable backing) lists := by
    rw [classify, split, List.foldl_append]
  have whole' : classify source'.model backing = { classify source.model backing with
      unused := lists.unused ++ v.strangers.map (·.name) ++ after₁ } := by
    rw [whole, ← rest, classify, split', List.foldl_append, List.foldl_append, sides_related h,
      same, foldl_addTable_idle v.distinct idle, List.append_nil]
  have all := after_classify source.model backing
  refine ⟨by rw [whole'], ⟨lists.unused, after₁, whole ▸ unused, by rw [whole']⟩, ?_, ?_⟩
  · intro name found
    obtain ⟨t, ht, rfl, -⟩ := (all.fact _).1 found
    exact tables t ht
  · intro name found
    obtain ⟨t, ht, rfl, -⟩ := (all.dimension _).1 found
    exact tables t ht

end Conversion

end SemanticLayer
