import SemanticLayer.Proofs.Conversion.Levels

set_option autoImplicit false

namespace SemanticLayer.Conversion

open Identifier
open Tabular (Database Table Column)
open Text (lower)

variable {source : Source} {names : Registry} {t : Table} {d : Dimension}

/-- The level off which secondary attributes hang: the one over the key column, if the hierarchy has
it, or else the last. -/
def IsCarrier (t : Table) (d : Dimension) (levels : List Level) (l : Level) (after : List Level) :
    Prop :=
  (∃ c, t.keyColumn? = some c ∧ d.keyColumns? l = some [c.name]) ∨
    after = [] ∧ ∀ c, t.keyColumn? = some c → ∀ l ∈ levels, d.keyColumns? l ≠ some [c.name]

/-- A dimension keeps the columns of its table that are visible and no row numbers, each in one
place. -/
structure KeepsColumns (t : Table) (d : Dimension) : Prop where
  once : ∀ c ∈ t.columns, c.isHidden = false → c.kind ≠ .rowNumber →
    (d.levelAttributes.map (·.keyColumns)).count [c.name] +
      (d.secondaryAttributes.map (·.keyColumns)).count [c.name] = 1
  carrier : ∀ first others, d.hierarchies = first :: others →
    (∀ k ∈ others, ∀ l ∈ k.levels, l.secondaryAttributes = []) ∧
      ∃ before l after, first.levels = before ++ l :: after ∧
        (∀ l' ∈ before ++ after, l'.secondaryAttributes = []) ∧
          IsCarrier t d first.levels l after

section Carrier

variable {attributes : List LevelAttribute} {levels levels' : List Level}

theorem carrierPlace_congr (same : levels.map (·.uniqueName) = levels'.map (·.uniqueName)) :
    carrierPlace t attributes levels = carrierPlace t attributes levels' := by
  have length := congrArg List.length same
  rw [List.length_map, List.length_map] at length
  have place (name : String) : levels.findIdx? (·.uniqueName == name) =
      levels'.findIdx? (·.uniqueName == name) := by
    have both := congrArg (List.findIdx? (· == name)) same
    rwa [List.findIdx?_map, List.findIdx?_map] at both
  rw [carrierPlace, carrierPlace, length, funext place]

theorem carrierPlace_lt (some : levels ≠ []) :
    carrierPlace t attributes levels < levels.length := by
  rw [carrierPlace]
  cases found : (keyLevel? t attributes).bind fun name =>
      levels.findIdx? (·.uniqueName == name) with
  | none => exact Nat.sub_lt (List.length_pos_iff.2 some) Nat.one_pos
  | some n =>
    obtain ⟨name, -, found⟩ := Option.bind_eq_some_iff.1 found
    exact (List.findIdx?_eq_some_iff_findIdx_eq.1 found).1

theorem Hangs.split {first : Hierarchy} {others : List Hierarchy}
    (h : Hangs t attributes first others) (some : first.levels ≠ []) :
    ∃ before l after, first.levels = before ++ l :: after ∧
      before.length = carrierPlace t attributes first.levels ∧
        (∀ l' ∈ before ++ after, l'.secondaryAttributes = []) ∧
          l.secondaryAttributes.map (·.keyColumns) =
            (looseColumns t attributes).map fun c => [c.name] := by
  obtain ⟨levels, bare, loose, columns, made⟩ := h.first
  have names := map_modify_withAttributes loose (carrierPlace t attributes levels) levels
  rw [← made] at names
  have inside : carrierPlace t attributes levels < levels.length := by
    refine carrierPlace_lt fun none => some ?_
    rw [made, none, List.modify_nil]
  rw [List.modify_eq_take_cons_drop inside] at made
  refine ⟨_, _, _, made, ?_, fun l' hl' => ?_, ?_⟩
  · rw [carrierPlace_congr names, List.length_take, Nat.min_eq_left inside.le]
  · rcases List.mem_append.1 hl' with early | late
    · exact bare l' (List.mem_of_mem_take early)
    · exact bare l' (List.mem_of_mem_drop late)
  · rw [withAttributes, bare _ (List.getElem_mem inside)]
    exact columns

end Carrier

namespace DrawnFrom

variable (drawn : DrawnFrom source names t d)
include drawn

theorem hierarchies_ne_nil {c : Column} (hc : c ∈ t.columns) (shown : isShown c = true) :
    d.hierarchies ≠ [] := by
  intro none
  have paths := isEmpty_of_forall₂ drawn.hierarchies
  rw [none, List.isEmpty_nil, List.isEmpty_iff] at paths
  have unusable : usableHierarchies t (joinColumns source t) = [] := by
    by_contra some
    rw [drillPaths_of_usable some, List.map_eq_nil_iff] at paths
    exact some paths
  rw [drillPaths_of_unusable unusable, List.filter_eq_nil_iff] at paths
  have empty := paths _ (List.mem_singleton_self _)
  rw [DrillPath.isUsable, Bool.not_eq_true', Bool.not_eq_false, List.isEmpty_iff, defaultPath,
    List.map_eq_nil_iff, defaultColumns] at empty
  split at empty
  · rw [Option.toList_eq_nil_iff, Option.or_eq_none_iff, List.find?_eq_none] at empty
    exact empty.2 c hc shown
  · rename_i some
    exact some (empty ▸ rfl)

theorem attributes_keyColumns : d.levelAttributes.map (·.keyColumns) =
    (firstUses ((drillPaths t (joinColumns source t)).flatMap (·.uses))).map
      fun use => [use.column.name] := by
  have made := drawn.attributes
  generalize firstUses _ = uses, d.levelAttributes = attributes at made
  induction made with
  | nil => rfl
  | cons first _ ih => rw [List.map_cons, List.map_cons, ih, first.keyColumns]

theorem attributes_keyColumns_nodup : (d.levelAttributes.map (·.keyColumns)).Nodup := by
  have once := (nodup_firstUses ((drillPaths t (joinColumns source t)).flatMap (·.uses))).map
    List.singleton_injective
  rw [List.map_map] at once
  rw [drawn.attributes_keyColumns]
  refine List.Nodup.of_map (fun key => key.map lower) ?_
  rw [List.map_map]
  exact once

theorem secondaryAttributes_keyColumns {first : Hierarchy} {others : List Hierarchy}
    (listed : d.hierarchies = first :: others) : d.secondaryAttributes.map (·.keyColumns) =
      (looseColumns t d.levelAttributes).map fun c => [c.name] := by
  have hangs := drawn.hangs first others listed
  obtain ⟨before, l, after, split, -, bare, columns⟩ :=
    hangs.split (drawn.levels_ne_nil (listed ▸ List.mem_cons_self))
  have nothing : others.flatMap (fun k => k.levels.flatMap (·.secondaryAttributes)) = [] :=
    List.flatMap_eq_nil_iff.2 fun k hk => List.flatMap_eq_nil_iff.2 (hangs.others k hk)
  rw [Dimension.secondaryAttributes, listed, List.flatMap_cons, nothing, List.append_nil, split,
    List.flatMap_append, List.flatMap_cons,
    List.flatMap_eq_nil_iff.2 fun l' hl' => bare l' (List.mem_append_left _ hl'),
    List.flatMap_eq_nil_iff.2 fun l' hl' => bare l' (List.mem_append_right _ hl'),
    List.nil_append, List.append_nil, columns]

section Columns

variable (columns : t.ColumnsApart)
include columns

theorem attributeOver?_eq_some_iff {c : Column} (hc : c ∈ t.columns) {a : LevelAttribute} :
    attributeOver? d.levelAttributes c = some a ↔
      a ∈ d.levelAttributes ∧ a.keyColumns = [c.name] := by
  have once : (d.levelAttributes.map fun a => lower a.nameColumn).Nodup :=
    nodup_map_of_forall₂ drawn.attributes (nodup_firstUses _) fun _ _ _ _ made made' same => by
      rwa [made.nameColumn, made'.nameColumn] at same
  refine (find?_eq_some_iff_of_nodup once).trans (and_congr_right fun ha => ?_)
  obtain ⟨use, hu, made⟩ := exists_left_of_forall₂ drawn.attributes a ha
  rw [made.nameColumn, made.keyColumns, List.singleton_inj]
  refine ⟨fun folded => ?_, congrArg lower⟩
  rw [columns.eq_of_lower (mem_columns_of_use (firstUses_subset _ hu)) hc folded]

theorem mem_looseColumns_iff {c : Column} (hc : c ∈ t.columns) (shown : isShown c = true) :
    c ∈ looseColumns t d.levelAttributes ↔ [c.name] ∉ d.levelAttributes.map (·.keyColumns) := by
  simp only [looseColumns, List.mem_filter, hc, shown, true_and, Bool.true_and,
    Option.isNone_iff_eq_none, Option.eq_none_iff_forall_ne_some, List.mem_map, not_exists]
  exact forall_congr' fun a => not_congr (drawn.attributeOver?_eq_some_iff columns hc)

theorem keyColumns?_eq_iff (apart : names.Apart) (fresh : names.exhausted = []) {c : Column}
    (hc : c ∈ t.columns) {l : Level} : d.keyColumns? l = some [c.name] ↔
      (attributeOver? d.levelAttributes c).map (·.uniqueName) = some l.uniqueName := by
  simp only [Dimension.keyColumns?, Option.map_eq_some_iff,
    drawn.attributeOver?_eq_some_iff columns hc, drawn.levelAttribute?_eq_some_iff apart fresh]
  exact exists_congr fun a => and_right_comm

theorem count_keyColumns {c : Column} (hc : c ∈ t.columns) (shown : isShown c = true) :
    (d.levelAttributes.map (·.keyColumns)).count [c.name] +
      (d.secondaryAttributes.map (·.keyColumns)).count [c.name] = 1 := by
  obtain ⟨first, others, listed⟩ := List.exists_cons_of_ne_nil (drawn.hierarchies_ne_nil hc shown)
  have once : ((looseColumns t d.levelAttributes).map fun c => [c.name]).Nodup := by
    refine List.Nodup.map_on (fun c hc c' hc' same => ?_) (columns.of_map.filter _)
    exact columns.eq_of_lower (List.mem_of_mem_filter hc) (List.mem_of_mem_filter hc')
      (congrArg lower (List.singleton_inj.1 same))
  have loose : [c.name] ∈ (looseColumns t d.levelAttributes).map (fun c => [c.name]) ↔
      [c.name] ∉ d.levelAttributes.map (·.keyColumns) := by
    rw [← drawn.mem_looseColumns_iff columns hc shown]
    refine ⟨fun inside => ?_, List.mem_map_of_mem⟩
    obtain ⟨c', hc', same⟩ := List.mem_map.1 inside
    rwa [← columns.eq_of_lower (List.mem_of_mem_filter hc') hc
      (congrArg lower (List.singleton_inj.1 same))]
  rw [drawn.secondaryAttributes_keyColumns listed, once.count,
    drawn.attributes_keyColumns_nodup.count]
  by_cases level : [c.name] ∈ d.levelAttributes.map (·.keyColumns)
  · rw [if_pos level, if_neg (mt loose.1 (not_not.2 level))]
  · rw [if_neg level, if_pos (loose.2 level)]

end Columns

theorem isCarrier (apart : names.Apart) (fresh : names.exhausted = []) (columns : t.ColumnsApart)
    {before after : List Level} {l : Level}
    (place : before.length = carrierPlace t d.levelAttributes (before ++ l :: after)) :
    IsCarrier t d (before ++ l :: after) l after := by
  have keyed {c : Column} (known : t.keyColumn? = some c) (l : Level) :
      d.keyColumns? l = some [c.name] ↔ keyLevel? t d.levelAttributes = some l.uniqueName := by
    rw [drawn.keyColumns?_eq_iff columns apart fresh (List.mem_of_find?_eq_some known), keyLevel?,
      known, Option.bind_some]
  rw [carrierPlace] at place
  cases found : (keyLevel? t d.levelAttributes).bind fun name =>
      (before ++ l :: after).findIdx? (·.uniqueName == name) with
  | none =>
    rw [found, Option.getD_none, List.length_append, List.length_cons] at place
    refine Or.inr ⟨List.length_eq_zero_iff.1 (by omega), fun c known l' hl' same => ?_⟩
    rw [(keyed known l').1 same, Option.bind_some, List.findIdx?_eq_none_iff] at found
    exact absurd (found l' hl') (by simp)
  | some n =>
    rw [found, Option.getD_some] at place
    obtain ⟨name, key, found⟩ := Option.bind_eq_some_iff.1 found
    obtain ⟨c, known, -⟩ := Option.bind_eq_some_iff.1 (Option.map_eq_some_iff.1 key).choose_spec.1
    obtain ⟨inside, named, -⟩ := List.findIdx?_eq_some_iff_getElem.1 found
    have there : (before ++ l :: after)[n] = l := by simp [← place]
    rw [there, beq_iff_eq] at named
    exact Or.inl ⟨c, known, (keyed known l).2 (named ▸ key)⟩

theorem keepsColumns (apart : names.Apart) (fresh : names.exhausted = [])
    (columns : t.ColumnsApart) : KeepsColumns t d where
  once := fun _ hc visible data =>
    drawn.count_keyColumns columns hc (isShown_iff.2 ⟨visible, data⟩)
  carrier := fun first others listed => by
    have hangs := drawn.hangs first others listed
    obtain ⟨before, l, after, split, place, bare, -⟩ :=
      hangs.split (drawn.levels_ne_nil (listed ▸ List.mem_cons_self))
    refine ⟨hangs.others, before, l, after, split, bare, ?_⟩
    rw [split] at place ⊢
    exact drawn.isCarrier apart fresh columns place

end DrawnFrom

/-- Every shown column of a dimension is a level or an attribute of one, and never both. -/
theorem convertWith_keepsColumns [Sql.Parser] {settings : Settings} {database : Database}
    {connection : String} {c : Conversion} (distinct : database.model.TablesDistinct)
    (columns : ∀ t ∈ database.model.tables, t.ColumnsApart)
    (fresh : settings.NeverExhausted database connection)
    (h : convertWith settings database connection = .ok c) :
    ∀ d ∈ c.dimensions, ∃ t ∈ database.model.tables, d.label = t.name ∧ KeepsColumns t d := by
  obtain ⟨names, apart, free, drawn⟩ := convertWith_drawn distinct h
  intro d hd
  obtain ⟨t, ht, made⟩ := drawn d hd
  exact ⟨t, ht, made.label, made.keepsColumns apart (free fresh) (columns t ht)⟩

attribute [local instance] Sql.Parser.lenient

theorem convertWith_keepsColumns_shop : ∃ c, convertWith {} shop "warehouse" = .ok c ∧
    (c.dimensions.map fun d => (d.label, d.levelAttributes.map (·.keyColumns),
        d.secondaryAttributes.map (·.keyColumns))) =
      [("Product", [["Group"], ["Product"]], [["Color"], ["Maker"]]),
        ("Maker", [["Maker"]], [["Country"]])] ∧
    ∀ d ∈ c.dimensions, ∃ t ∈ shop.model.tables, d.label = t.name ∧ KeepsColumns t d := by
  have made : ∃ c, convertWith {} shop "warehouse" = .ok c ∧
      (c.dimensions.map fun d => (d.label, d.levelAttributes.map (·.keyColumns),
          d.secondaryAttributes.map (·.keyColumns))) =
        [("Product", [["Group"], ["Product"]], [["Color"], ["Maker"]]),
          ("Maker", [["Maker"]], [["Country"]])] :=
    exists_convertWith (by decide +kernel)
  obtain ⟨c, h, columns⟩ := made
  exact ⟨c, h, columns, convertWith_keepsColumns shop_tablesApart.distinct (by decide +kernel)
    shop_neverExhausted h⟩

end SemanticLayer.Conversion
