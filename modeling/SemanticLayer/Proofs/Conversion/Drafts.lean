import SemanticLayer.Conversion.Dimensions
import SemanticLayer.Proofs.Conversion.Moves

set_option autoImplicit false

/-!
A dimension in the making. Until it is in the result, its levels and hierarchies are known to the
registry only, so a draft keeps them together with all keys that were answered for them.
-/
namespace SemanticLayer.Conversion

open Identifier
open Tabular (Table Column)
open Text (lower)

variable {source : Source} {s s₀ s' : State} {u : Unit}

def levelNames (levels : LevelTable) : List String := levels.map (·.2.uniqueName)

/-- Levels and hierarchies of a table since some state; no other keys of that kind are new. -/
structure Draft (t : Table) (s₀ s : State) (levels : LevelTable) (found : List Hierarchy) :
    Prop extends OnlyNames s₀ s where
  attributes : ∀ e ∈ levels, LevelOf s.names t e.2 ∧ e.1 = lower e.2.nameColumn
  apart : (levels.map Prod.fst).Nodup
  hierarchies : ∀ h ∈ found, HierarchyOf s.names t (levels.map Prod.snd) h
  plain : ∀ h ∈ found, ∀ l ∈ h.levels, l.secondaryAttributes = []
  noted : ∀ key name, s.names.lookup key = some name → s₀.names.lookup key = some name ∨
    (Key.word key ≠ "level" ∧ Key.word key ≠ "hierarchy") ∨
    (∃ e ∈ levels, key = Key.level t.name e.2.nameColumn ∧ name = e.2.uniqueName) ∨
    ∃ h ∈ found, key = Key.hierarchy t.name h.label ∧ name = h.uniqueName

namespace Draft

variable {t : Table} {levels : LevelTable} {found : List Hierarchy}

theorem start (t : Table) (s : State) : Draft t s s [] [] where
  toOnlyNames := .refl s
  attributes _ h := nomatch h
  apart := .nil
  hierarchies _ h := nomatch h
  plain _ h := nomatch h
  noted _ _ known := Or.inl known

theorem quiet (h : Draft t s₀ s levels found) (only : OnlyNames s s') (quiet : Quiet s s') :
    Draft t s₀ s' levels found where
  toOnlyNames := h.toOnlyNames.trans only
  attributes e he := (h.attributes e he).imp_left (·.mono only.names)
  apart := h.apart
  hierarchies k hk := (h.hierarchies k hk).mono only.names
  plain := h.plain
  noted key name known := by
    rcases quiet key name known with old | other
    · exact h.noted key name old
    · exact Or.inr (Or.inl other)

theorem log {entries : List Diagnostic} (h : Draft t s₀ s levels found)
    (logged : (Conversion.log entries).run s = .ok (u, s')) : Draft t s₀ s' levels found := by
  obtain ⟨only, names⟩ := log_onlyNames logged
  exact h.quiet only (.of_eq names)

theorem addLevel {a : LevelAttribute} {key : String}
    (h : Draft t s₀ s levels found) (answer : Answered key a.uniqueName s s')
    (made : LevelOf s'.names t a) (same : key = Key.level t.name a.nameColumn)
    (new : lower a.nameColumn ∉ levels.map Prod.fst) :
    Draft t s₀ s' (levels ++ [(lower a.nameColumn, a)]) found where
  toOnlyNames := h.toOnlyNames.trans answer.toOnlyNames
  attributes e he := by
    rcases List.mem_append.1 he with old | last
    · exact (h.attributes e old).imp_left (·.mono answer.names)
    · rw [List.mem_singleton.1 last]
      exact ⟨made, rfl⟩
  apart := by
    rw [List.map_append, List.map_singleton, ← List.concat_eq_append]
    exact List.Nodup.concat new h.apart
  hierarchies k hk := by
    have old := (h.hierarchies k hk).mono answer.names
    refine ⟨old.key, fun l hl => ?_⟩
    rw [List.map_append, List.map_append]
    exact List.mem_append_left _ (old.levels l hl)
  plain := h.plain
  noted k name known := by
    rcases answer.others k name known with rfl | old
    · refine Or.inr (Or.inr (Or.inl ⟨_, List.mem_append_right _ (List.mem_singleton_self _),
        same, ?_⟩))
      exact Option.some.inj (known.symm.trans answer.known)
    · rcases h.noted k name old with older | other | ⟨e, he, level⟩ | hierarchy
      · exact Or.inl older
      · exact Or.inr (Or.inl other)
      · exact Or.inr (Or.inr (Or.inl ⟨e, List.mem_append_left _ he, level⟩))
      · exact Or.inr (Or.inr (Or.inr hierarchy))

theorem addHierarchy {k : Hierarchy}
    (h : Draft t s₀ s levels found)
    (answer : Answered (Key.hierarchy t.name k.label) k.uniqueName s s')
    (inside : ∀ l ∈ k.levels, l.uniqueName ∈ levelNames levels ∧ l.secondaryAttributes = []) :
    Draft t s₀ s' levels (found ++ [k]) where
  toOnlyNames := h.toOnlyNames.trans answer.toOnlyNames
  attributes e he := (h.attributes e he).imp_left (·.mono answer.names)
  apart := h.apart
  hierarchies k' hk' := by
    rcases List.mem_append.1 hk' with old | last
    · exact (h.hierarchies k' old).mono answer.names
    · rw [List.mem_singleton.1 last]
      refine ⟨answer.known, fun l hl => ?_⟩
      rw [List.map_map]
      exact (inside l hl).1
  plain k' hk' l hl := by
    rcases List.mem_append.1 hk' with old | last
    · exact h.plain k' old l hl
    · rw [List.mem_singleton.1 last] at hl
      exact (inside l hl).2
  noted key name known := by
    rcases answer.others key name known with rfl | old
    · refine Or.inr (Or.inr (Or.inr ⟨k, List.mem_append_right _ (List.mem_singleton_self k),
        rfl, ?_⟩))
      exact Option.some.inj (known.symm.trans answer.known)
    · rcases h.noted key name old with older | other | level | ⟨k', hk', hierarchy⟩
      · exact Or.inl older
      · exact Or.inr (Or.inl other)
      · exact Or.inr (Or.inr (Or.inl level))
      · exact Or.inr (Or.inr (Or.inr ⟨k', List.mem_append_left _ hk', hierarchy⟩))

end Draft

/-- A draft with one hierarchy half done. -/
structure Work (t : Table) (s₀ s : State) (found : List Hierarchy) (h : HierarchyState) : Prop where
  draft : Draft t s₀ s h.attributes found
  levels : ∀ l ∈ h.levels, l.uniqueName ∈ levelNames h.attributes ∧ l.secondaryAttributes = []
  used : h.used ⊆ h.attributes.map Prod.fst

theorem Work.start {t : Table} {found : List Hierarchy} {attributes : LevelTable}
    (draft : Draft t s₀ s attributes found) : Work t s₀ s found { attributes } :=
  ⟨draft, (fun _ h => nomatch h), List.nil_subset _⟩

variable {d : DimensionSource} {levels : LevelTable} {found : List Hierarchy} {c : Column}

theorem levelAttribute_ok {label : String} {hidden : Bool} {r : String × LevelTable}
    (draft : Draft d.table s₀ s levels found) (hc : c ∈ d.table.columns)
    (placed : s₀.names.lookup (Key.dataset d.table.name) = some d.dataset)
    (h : (levelAttribute d levels c label hidden).run s = .ok (r, s')) :
    Draft d.table s₀ s' r.2 found ∧ levels ⊆ r.2 ∧
      ∃ a, (lower c.name, a) ∈ r.2 ∧ a.uniqueName = r.1 := by
  rw [levelAttribute] at h
  dsimp only at h
  split at h
  · rename_i known listed
    obtain ⟨rfl, rfl⟩ := pure_ok h
    exact ⟨draft, List.Subset.refl _, known, mem_of_lookup listed, rfl⟩
  rename_i absent
  obtain ⟨name, s₁, named, h⟩ := bind_ok h
  obtain ⟨_, s₂, noted, h⟩ := bind_ok h
  let made : LevelAttribute := {
    uniqueName := name
    label
    dataset := d.dataset
    keyColumns := [c.name]
    nameColumn := c.name
    sortColumn := (sortColumn? d.table c).map (·.name)
    isHidden := hidden || c.isHidden }
  have stored : (name, levels ++ [(lower c.name, made)]) = r ∧ s₂ = s' := pure_ok h
  obtain ⟨rfl, rfl⟩ := stored
  have answer : Answered (Key.level d.table.name c.name) made.uniqueName s s₁ :=
    uniqueName_answered named fun _ h => nomatch h
  have new : lower c.name ∉ levels.map Prod.fst := by
    intro listed
    obtain ⟨e, he, same⟩ := List.mem_map.1 listed
    have missing := List.lookup_eq_none_iff.1 (Option.eq_none_iff_forall_ne_some.2 absent) e he
    exact absurd same.symm (by simpa using missing)
  have sorted : ∀ name ∈ made.sortColumn, name ∈ d.table.columns.map (·.name) := by
    intro name sorted
    obtain ⟨other, found, rfl⟩ := Option.map_eq_some_iff.1 sorted
    obtain ⟨sortBy, -, known⟩ := Option.bind_eq_some_iff.1 found
    exact List.mem_map_of_mem (Tabular.Table.mem_of_column? known)
  have level : LevelOf s₁.names d.table made := {
    key := answer.known
    dataset := (draft.names.trans answer.names).lookup placed
    column := List.mem_map_of_mem hc
    keyColumns := rfl
    sortColumn := sorted }
  exact ⟨(draft.addLevel answer level rfl new).log noted, List.subset_append_left _ _, made,
    List.mem_append_right _ (List.mem_singleton_self _), rfl⟩

def addColumn (columns : List Column) (c : Column) : List Column :=
  if columns.any (·.name == c.name) then columns else columns ++ [c]

theorem addColumn_subset (columns : List Column) (c : Column) :
    addColumn columns c ⊆ columns ++ [c] := by
  rw [addColumn]
  split
  · exact List.subset_append_left _ _
  · exact List.Subset.refl _

theorem mem_names_addColumn {columns : List Column} {c : Column} {name : String} :
    name ∈ (addColumn columns c).map (·.name) ↔
      name ∈ columns.map (·.name) ∨ name = c.name := by
  rw [addColumn]
  split
  · rename_i twin
    obtain ⟨c', hc', same⟩ := List.any_eq_true.1 twin
    refine ⟨Or.inl, fun h => h.elim id ?_⟩
    rintro rfl
    exact List.mem_map.2 ⟨c', hc', eq_of_beq same⟩
  · rw [List.map_append, List.mem_append, List.map_singleton, List.mem_singleton]

theorem foldl_addColumn_subset (columns start : List Column) :
    columns.foldl addColumn start ⊆ start ++ columns := by
  induction columns generalizing start with
  | nil => exact List.subset_append_left _ _
  | cons c columns ih =>
    have first : addColumn start c ⊆ start ++ [c] ++ columns :=
      List.subset_append_of_subset_left _ (addColumn_subset start c)
    rw [List.append_cons]
    exact List.Subset.trans (ih _) (List.append_subset.2 ⟨first, List.subset_append_right _ _⟩)

theorem mem_names_foldl_addColumn {columns start : List Column} {name : String} :
    name ∈ (columns.foldl addColumn start).map (·.name) ↔
      name ∈ start.map (·.name) ∨ name ∈ columns.map (·.name) := by
  induction columns generalizing start with
  | nil => simp
  | cons c columns ih =>
    rw [List.foldl_cons, ih, mem_names_addColumn, List.map_cons, List.mem_cons, or_assoc]

theorem joinColumns_eq (source : Source) (t : Table) : joinColumns source t =
    ((activeJoins source t).filterMap fun r => t.column? r.toColumn).foldl addColumn [] :=
  rfl

theorem mem_joinColumns_iff {t : Table} {c : Column} : c ∈ joinColumns source t ↔
    ∃ r ∈ source.model.relationships, r.isActive = true ∧
      Text.equalFold r.toTable t.name = true ∧ t.column? r.toColumn = some c := by
  have named (d : Column) : d ∈ (activeJoins source t).filterMap (fun r => t.column? r.toColumn) ↔
      ∃ r ∈ source.model.relationships, r.isActive = true ∧
        Text.equalFold r.toTable t.name = true ∧ t.column? r.toColumn = some d := by
    simp only [activeJoins, List.mem_filterMap, List.mem_filter, Bool.and_eq_true, and_assoc]
  rw [← named, joinColumns_eq]
  refine ⟨fun hc => foldl_addColumn_subset _ [] hc, fun hc => ?_⟩
  -- Left out is only a column whose name is there already, and that is the same column.
  obtain ⟨c', hc', same⟩ := List.mem_map.1
    (mem_names_foldl_addColumn.2 (Or.inr (List.mem_map_of_mem (f := (·.name)) hc)) :
      c.name ∈ (List.foldl addColumn [] _).map (·.name))
  obtain ⟨r, -, known⟩ := List.mem_filterMap.1 hc
  obtain ⟨r', -, known'⟩ := List.mem_filterMap.1 (foldl_addColumn_subset _ [] hc')
  exact Table.eq_of_column? known known' same ▸ hc'

theorem joinColumns_subset (source : Source) (t : Table) : joinColumns source t ⊆ t.columns := by
  intro c hc
  obtain ⟨r, -, -, -, known⟩ := mem_joinColumns_iff.1 hc
  exact Tabular.Table.mem_of_column? known

theorem mem_of_mem_defaultColumns {t : Table} {joins : List Column} (inside : joins ⊆ t.columns)
    {c : Column} (h : c ∈ defaultColumns t joins) : c ∈ t.columns := by
  rw [defaultColumns] at h
  split at h
  · rcases Option.or_eq_some_iff.1 (Option.mem_toList.1 h) with keyed | ⟨-, shown⟩
    · exact List.mem_of_find?_eq_some keyed
    · exact List.mem_of_find?_eq_some shown
  · exact inside h

theorem mem_defaultColumns {t : Table} {joins : List Column} {c : Column} (h : c ∈ joins) :
    c ∈ defaultColumns t joins := by
  rw [defaultColumns, List.isEmpty_eq_false_iff.2 (List.ne_nil_of_mem h), if_neg Bool.false_ne_true]
  exact h

theorem used_concat {used used' : List String} {done : List Column}
    (h : used' = used ++ [lower c.name]) (before : ∀ c ∈ done, lower c.name ∈ used) :
    ∀ e ∈ done ++ [c], lower e.name ∈ used' := by
  rw [h]
  refine List.forall_mem_append.2 ⟨fun e he => List.mem_append_left _ (before e he), fun e he => ?_⟩
  rw [List.mem_singleton.1 he]
  exact List.mem_append_right _ (List.mem_singleton_self _)

section Hierarchies

variable (placed : s₀.names.lookup (Key.dataset d.table.name) = some d.dataset)
include placed

theorem addLevel_ok {h h' : HierarchyState} {label : String} {hidden : Bool}
    (work : Work d.table s₀ s found h) (hc : c ∈ d.table.columns)
    (added : (addLevel d h c label hidden).run s = .ok (h', s')) :
    Work d.table s₀ s' found h' ∧ h'.used = h.used ++ [lower c.name] := by
  obtain ⟨r, s₁, made, added⟩ := bind_ok added
  obtain ⟨rfl, rfl⟩ := pure_ok added
  obtain ⟨draft, more, a, inside, name⟩ := levelAttribute_ok work.draft hc placed made
  refine ⟨⟨draft, fun l hl => ?_, List.append_subset.2 ⟨?_, fun f hf => ?_⟩⟩, rfl⟩
  · rcases List.mem_append.1 hl with old | last
    · exact (work.levels l old).imp_left fun known => List.map_subset _ more known
    · rw [List.mem_singleton.1 last]
      exact ⟨List.mem_map.2 ⟨_, inside, name⟩, rfl⟩
  · exact List.Subset.trans work.used (List.map_subset _ more)
  · rw [List.mem_singleton.1 hf]
    exact List.mem_map_of_mem (f := Prod.fst) inside

theorem listedLevels_ok {hierarchy : Tabular.Hierarchy} {h h' : HierarchyState}
    (work : Work d.table s₀ s found h)
    (listed : (listedLevels d hierarchy h).run s = .ok (h', s')) :
    Work d.table s₀ s' found h' := by
  refine foldlM_ok (P := fun h s => Work d.table s₀ s found h) work
    (fun level _ h s h' s' turn work => ?_) listed
  split at turn
  · obtain ⟨_, s₁, noted, turn⟩ := bind_ok turn
    obtain ⟨rfl, rfl⟩ := pure_ok turn
    exact { work with draft := work.draft.log noted }
  · rename_i c known
    split at turn
    · obtain ⟨rfl, rfl⟩ := pure_ok turn
      exact work
    · exact (addLevel_ok placed work (Tabular.Table.mem_of_column? known) turn).1

theorem appendedLevels_ok {hierarchy : Tabular.Hierarchy} {joins : List Column}
    {h h' : HierarchyState} (inside : joins ⊆ d.table.columns)
    (work : Work d.table s₀ s found h)
    (appended : (appendedLevels d hierarchy joins h).run s = .ok (h', s')) :
    Work d.table s₀ s' found h' ∧ ∀ c ∈ joins, lower c.name ∈ h'.used := by
  let P (done : List Column) (h : HierarchyState) (s : State) : Prop :=
    Work d.table s₀ s found h ∧ ∀ c ∈ done, lower c.name ∈ h.used
  refine foldlM_steps (P := P) ⟨work, fun _ h => nomatch h⟩
    (fun c hc done h s h' s' turn before => ?_) appended
  obtain ⟨work, passed⟩ := before
  split at turn
  · rename_i used
    obtain ⟨rfl, rfl⟩ := pure_ok turn
    refine ⟨work, List.forall_mem_append.2 ⟨passed, fun e he => ?_⟩⟩
    rw [List.mem_singleton.1 he]
    exact List.contains_iff_mem.1 used
  · obtain ⟨_, s₁, noted, turn⟩ := bind_ok turn
    obtain ⟨work, used⟩ :=
      addLevel_ok placed { work with draft := work.draft.log noted } (inside hc) turn
    exact ⟨work, used_concat used passed⟩

theorem explicitHierarchy_ok {joins : List Column} {hierarchy : Tabular.Hierarchy}
    {r : Option Hierarchy × LevelTable} (inside : joins ⊆ d.table.columns)
    (draft : Draft d.table s₀ s levels found)
    (h : (explicitHierarchy d joins levels hierarchy).run s = .ok (r, s')) :
    Draft d.table s₀ s' r.2 (found ++ r.1.toList) ∧ (∀ k ∈ r.1, k.label = hierarchy.name) ∧
      ∀ c ∈ joins, lower c.name ∈ r.2.map Prod.fst := by
  obtain ⟨listed, s₁, list, h⟩ := bind_ok h
  obtain ⟨work, s₂, append, h⟩ := bind_ok h
  obtain ⟨done, passed⟩ :=
    appendedLevels_ok placed inside (listedLevels_ok placed (.start draft) list) append
  have joined : ∀ c ∈ joins, lower c.name ∈ work.attributes.map Prod.fst :=
    fun c hc => done.used (passed c hc)
  split at h
  · obtain ⟨_, s₃, noted, h⟩ := bind_ok h
    obtain ⟨rfl, rfl⟩ := pure_ok h
    refine ⟨?_, (fun _ h => nomatch h), joined⟩
    rw [Option.toList_none, List.append_nil]
    exact done.draft.log noted
  · obtain ⟨name, s₃, named, h⟩ := bind_ok h
    obtain ⟨rfl, rfl⟩ := pure_ok h
    have answer : Answered (Key.hierarchy d.table.name hierarchy.name) name s₂ s₃ :=
      uniqueName_answered named fun _ h => nomatch h
    exact ⟨done.draft.addHierarchy answer done.levels, (fun k hk => by
      rw [← Option.some.inj hk]), joined⟩

theorem defaultHierarchy_ok {joins : List Column} {r : Option Hierarchy × LevelTable}
    (inside : joins ⊆ d.table.columns) (draft : Draft d.table s₀ s levels [])
    (h : (defaultHierarchy d joins levels).run s = .ok (r, s')) :
    Draft d.table s₀ s' r.2 r.1.toList ∧ ∀ c ∈ joins, lower c.name ∈ r.2.map Prod.fst := by
  rw [defaultHierarchy] at h
  split at h
  · rename_i empty
    obtain ⟨_, s₁, noted, h⟩ := bind_ok h
    obtain ⟨rfl, rfl⟩ := pure_ok h
    refine ⟨draft.log noted, fun c hc => ?_⟩
    exact absurd (List.isEmpty_iff.1 empty) (List.ne_nil_of_mem (mem_defaultColumns hc))
  obtain ⟨work, s₁, filled, h⟩ := bind_ok h
  obtain ⟨name, s₂, named, h⟩ := bind_ok h
  obtain ⟨rfl, rfl⟩ := pure_ok h
  let P (done : List Column) (h : HierarchyState) (s : State) : Prop :=
    Work d.table s₀ s [] h ∧ ∀ c ∈ done, lower c.name ∈ h.used
  obtain ⟨done, passed⟩ : P (defaultColumns d.table joins) work s₁ := by
    refine foldlM_steps (P := P) ⟨.start draft, fun _ h => nomatch h⟩
      (fun c hc done h s h' s' turn before => ?_) filled
    obtain ⟨work, used⟩ :=
      addLevel_ok placed before.1 (mem_of_mem_defaultColumns inside hc) turn
    exact ⟨work, used_concat used before.2⟩
  have answer : Answered (Key.hierarchy d.table.name d.table.name) name s₁ s₂ :=
    uniqueName_answered named fun _ h => nomatch h
  exact ⟨done.draft.addHierarchy answer done.levels,
    fun c hc => done.used (passed c (mem_defaultColumns hc))⟩

/-- All hierarchies of a dimension. Their labels are names of hierarchies in the model, or there is
one for the whole table; either way the columns that joins lead to have become levels. -/
theorem hierarchies_ok {joins : List Column} {r : List Hierarchy × LevelTable}
    (inside : joins ⊆ d.table.columns) (draft : Draft d.table s₀ s [] [])
    (h : (hierarchies d joins).run s = .ok (r, s')) :
    Draft d.table s₀ s' r.2 r.1 ∧
      (d.table.HierarchiesApart → (r.1.map fun k => lower k.label).Nodup) ∧
      ∀ c ∈ joins, lower c.name ∈ r.2.map Prod.fst := by
  obtain ⟨⟨explicit, attributes⟩, s₁, folded, h⟩ := bind_ok h
  -- Empty hierarchies are left out, so the labels are only a part of the names gone through. One
  -- turn is enough for the join columns.
  let P (done : List Tabular.Hierarchy) (r : List Hierarchy × LevelTable) (s : State) : Prop :=
    Draft d.table s₀ s r.2 r.1 ∧
      (r.1.map fun k => lower k.label).Sublist (done.map fun k => lower k.name) ∧
      (r.1 ≠ [] → ∀ c ∈ joins, lower c.name ∈ r.2.map Prod.fst)
  have listed : P d.table.hierarchies (explicit, attributes) s₁ := by
    have start : P [] ([], []) s := ⟨draft, .slnil, fun some => absurd rfl some⟩
    refine foldlM_steps (P := P) start (fun hierarchy _ done r s r' s' turn before => ?_) folded
    obtain ⟨⟨resolved, attributes⟩, s₁, made, turn⟩ := bind_ok turn
    obtain ⟨rfl, rfl⟩ := pure_ok turn
    obtain ⟨draft, label, joined⟩ := explicitHierarchy_ok placed inside before.1 made
    refine ⟨draft, ?_, fun _ => joined⟩
    rw [List.map_append, List.map_append]
    refine before.2.1.append ?_
    cases resolved with
    | none => exact List.nil_sublist _
    | some k =>
      have same := label k rfl
      simp [same]
  dsimp only at h
  split at h
  · rename_i none
    obtain ⟨⟨resolved, attributes'⟩, s₂, made, h⟩ := bind_ok h
    obtain ⟨rfl, rfl⟩ := pure_ok h
    obtain rfl := List.isEmpty_iff.1 none
    obtain ⟨draft, joined⟩ := defaultHierarchy_ok placed inside listed.1 made
    refine ⟨draft, fun _ => ?_, joined⟩
    cases resolved with
    | none => exact .nil
    | some k => exact List.nodup_singleton _
  · rename_i some
    obtain ⟨rfl, rfl⟩ := pure_ok h
    exact ⟨listed.1, fun apart => listed.2.1.nodup apart,
      listed.2.2 fun none => some (List.isEmpty_iff.2 none)⟩

end Hierarchies

end SemanticLayer.Conversion
