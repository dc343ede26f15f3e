import SemanticLayer.Proofs.Conversion.DrillPaths

set_option autoImplicit false

/-!
The levels of dimensions. While identifiers last, a level tells its column, so that hierarchies can
be compared with those of the model level by level.
-/
namespace SemanticLayer

open Identifier

def Dimension.keyColumns? (d : Dimension) (l : Level) : Option (List String) :=
  (d.levelAttribute? l.uniqueName).map (·.keyColumns)

/-- The key columns of the levels of a hierarchy, and which levels are hidden. -/
def Dimension.steps (d : Dimension) (k : Hierarchy) : List (Option (List String) × Bool) :=
  k.levels.map fun l => (d.keyColumns? l, l.isHidden)

namespace Conversion

open Tabular (Database Table Column)
open Text (lower)

variable {source : Source} {names : Registry} {t : Table} {d : Dimension}

/-- The columns of the levels that a hierarchy of the model lists, in the order of their ordinals;
each column where it comes first. -/
def levelColumns (t : Table) (h : Tabular.Hierarchy) : List Column :=
  (firstUses (listedUses t h)).map (·.column)

/-- The hierarchies of the model of which hierarchies are made. -/
def usableHierarchies (t : Table) (joins : List Column) : List Tabular.Hierarchy :=
  t.hierarchies.filter fun h => (sourcePath t joins h).isUsable

theorem key_eq_of_level_eq {use use' : LevelUse}
    (h : Key.level t.name use.column.name = Key.level t.name use'.column.name) :
    use.key = use'.key := by
  rw [Key.level, Key.level, Key.located_two, Key.located_two] at h
  exact (String.append_right_inj _).1 h

theorem mem_columns_of_use {use : LevelUse}
    (hu : use ∈ (drillPaths t (joinColumns source t)).flatMap (·.uses)) :
    use.column ∈ t.columns := by
  obtain ⟨p, hp, inside⟩ := List.mem_flatMap.1 hu
  exact column_mem_of_mem_drillPaths (joinColumns_subset source t) hp inside

namespace DrawnFrom

variable (drawn : DrawnFrom source names t d)
include drawn

theorem levels_ne_nil {k : Hierarchy} (hk : k ∈ d.hierarchies) : k.levels ≠ [] := by
  intro none
  obtain ⟨p, hp, follows⟩ := exists_left_of_forall₂ drawn.hierarchies k hk
  have usable := (cases_of_mem_drillPaths hp).1
  rw [DrillPath.isUsable, isEmpty_of_forall₂ follows.levels, none] at usable
  cases usable

theorem exists_attribute {use : LevelUse}
    (hu : use ∈ (drillPaths t (joinColumns source t)).flatMap (·.uses)) :
    ∃ a ∈ d.levelAttributes, ∃ use', use'.key = use.key ∧
      use' ∈ firstUses ((drillPaths t (joinColumns source t)).flatMap (·.uses)) ∧
      IsAttribute names t use' a := by
  obtain ⟨use', inside, same⟩ :=
    List.mem_map.1 (mem_keys_firstUses.2 (List.mem_map_of_mem (f := LevelUse.key) hu))
  obtain ⟨a, ha, made⟩ := exists_of_forall₂ drawn.attributes use' inside
  exact ⟨a, ha, use', same, inside, made⟩

section Apart

variable (apart : names.Apart) (fresh : names.exhausted = [])
include apart fresh

theorem attributes_nodup : (d.levelAttributes.map (·.uniqueName)).Nodup :=
  nodup_map_of_forall₂ drawn.attributes (nodup_firstUses _) fun _ _ _ _ made made' same =>
    key_eq_of_level_eq (Registry.key_eq_of_lookup apart fresh made.key made'.key
      (congrArg lower same))

theorem levels_nodup (columns : t.ColumnsApart) {k : Hierarchy} (hk : k ∈ d.hierarchies) :
    (k.levels.map (·.uniqueName)).Nodup := by
  obtain ⟨p, hp, follows⟩ := exists_left_of_forall₂ drawn.hierarchies k hk
  have once := nodup_of_mem_drillPaths (nodup_joinColumns columns) hp
  exact nodup_map_of_forall₂ follows.levels once fun _ _ _ _ made made' same =>
    key_eq_of_level_eq (Registry.key_eq_of_lookup apart fresh made.key made'.key
      (congrArg lower same))

theorem levelAttribute?_eq_some_iff {name : String} {a : LevelAttribute} :
    d.levelAttribute? name = some a ↔ a ∈ d.levelAttributes ∧ a.uniqueName = name :=
  find?_eq_some_iff_of_nodup (drawn.attributes_nodup apart fresh)

theorem keyColumns?_eq (columns : t.ColumnsApart) {use : LevelUse} {l : Level}
    (hu : use ∈ (drillPaths t (joinColumns source t)).flatMap (·.uses))
    (level : IsLevel names t use l) : d.keyColumns? l = some [use.column.name] := by
  obtain ⟨a, ha, use', same, hu', made⟩ := drawn.exists_attribute hu
  have key := made.key
  rw [use'.level_congr t.name same, level.key] at key
  have found : d.levelAttribute? l.uniqueName = some a :=
    (drawn.levelAttribute?_eq_some_iff apart fresh).2 ⟨ha, (Option.some.inj key).symm⟩
  have column := columns.eq_of_lower (mem_columns_of_use (firstUses_subset _ hu'))
    (mem_columns_of_use hu) same
  rw [Dimension.keyColumns?, found, Option.map_some, made.keyColumns, column]

theorem steps_eq (columns : t.ColumnsApart) {p : DrillPath} {k : Hierarchy}
    (hp : p ∈ drillPaths t (joinColumns source t)) (follows : Follows names t p k) :
    d.steps k = p.uses.map fun use => (some [use.column.name], use.isHidden) := by
  have inside (use : LevelUse) (hu : use ∈ p.uses) :
      use ∈ (drillPaths t (joinColumns source t)).flatMap (·.uses) :=
    List.mem_flatMap.2 ⟨p, hp, hu⟩
  have levels := follows.levels
  rw [Dimension.steps]
  generalize p.uses = uses, k.levels = made at inside levels
  induction levels with
  | nil => rfl
  | cons first _ ih =>
    rw [List.map_cons, List.map_cons, ih fun use hu => inside use (List.mem_cons_of_mem _ hu),
      drawn.keyColumns?_eq apart fresh columns (inside _ List.mem_cons_self) first, first.isHidden]

end Apart

end DrawnFrom

theorem sourcePaths_eq (t : Table) (joins : List Column) :
    sourcePaths t joins = (usableHierarchies t joins).map (sourcePath t joins) :=
  List.filter_map

theorem drillPaths_of_usable {joins : List Column} (h : usableHierarchies t joins ≠ []) :
    drillPaths t joins = (usableHierarchies t joins).map (sourcePath t joins) := by
  have some : ¬(sourcePaths t joins).isEmpty = true := by simpa [sourcePaths_eq] using h
  rw [drillPaths, if_neg some, sourcePaths_eq]

theorem drillPaths_of_unusable {joins : List Column} (h : usableHierarchies t joins = []) :
    drillPaths t joins = [defaultPath t joins].filter DrillPath.isUsable := by
  have none : (sourcePaths t joins).isEmpty = true := by simp [sourcePaths_eq, h]
  rw [drillPaths, if_pos none]

section Joins

variable {joins : List Column} (columns : t.ColumnsApart)
include columns

theorem key_mem_listedUses_iff {h : Tabular.Hierarchy} {c : Column} (hc : c ∈ t.columns) :
    lower c.name ∈ (listedUses t h).map LevelUse.key ↔ c ∈ levelColumns t h := by
  rw [← mem_keys_firstUses, levelColumns, List.mem_map, List.mem_map]
  refine exists_congr fun use => and_congr_right fun listed => ⟨fun same => ?_, fun same => ?_⟩
  · exact columns.eq_of_lower (column_mem_of_mem_listedUses (firstUses_subset _ listed)).1 hc same
  · rw [LevelUse.key, same]

theorem sourcePath_uses (inside : joins ⊆ t.columns)
    (once : (joins.map fun c => lower c.name).Nodup) (h : Tabular.Hierarchy) :
    (sourcePath t joins h).uses =
      firstUses (listedUses t h) ++ joinUses (joins.filter (· ∉ levelColumns t h)) := by
  have joined : firstUses (joinUses joins) = joinUses joins :=
    firstUses_of_nodup (keys_joinUses joins ▸ once)
  rw [sourcePath, firstUses_append, joined, joinUses, joinUses, List.filter_map]
  refine congrArg (_ ++ List.map _ ·) (List.filter_congr fun c hc => ?_)
  exact decide_eq_decide.2 (not_congr (key_mem_listedUses_iff columns (inside hc)))

end Joins

/-- A hierarchy that a hierarchy of the model became: first the levels over the columns that the
latter lists, then hidden ones over the join columns that it does not list. -/
structure BuiltFrom (source : Source) (t : Table) (d : Dimension) (h : Tabular.Hierarchy)
    (k : Hierarchy) : Prop where
  label : k.label = h.name
  steps : d.steps k = (levelColumns t h).map (fun c => (some [c.name], false)) ++
    ((joinColumns source t).filter (· ∉ levelColumns t h)).map fun c => (some [c.name], true)

/-- The levels of a dimension are arranged as the hierarchies of its table and the joins have it. -/
structure Arranged (source : Source) (t : Table) (d : Dimension) : Prop where
  nonempty : ∀ k ∈ d.hierarchies, k.levels ≠ []
  levelsOnce : ∀ k ∈ d.hierarchies, (k.levels.map (·.uniqueName)).Nodup
  attributesUsed : ∀ a ∈ d.levelAttributes, ∃ k ∈ d.hierarchies,
    a.uniqueName ∈ k.levels.map (·.uniqueName)
  /-- Every hierarchy has a level over every column that active relationships join on. -/
  joined : ∀ r ∈ source.model.relationships, r.isActive = true →
    source.model.table? r.toTable = some t → ∀ c, t.column? r.toColumn = some c →
      ∀ k ∈ d.hierarchies, ∃ l ∈ k.levels, d.keyColumns? l = some [c.name]
  built : usableHierarchies t (joinColumns source t) ≠ [] → List.Forall₂ (BuiltFrom source t d)
    (usableHierarchies t (joinColumns source t)) d.hierarchies
  /-- Without any usable hierarchy of the model there is at most one. -/
  default : usableHierarchies t (joinColumns source t) = [] → ∀ k ∈ d.hierarchies,
    d.hierarchies = [k] ∧ k.label = t.name ∧ d.steps k =
      (defaultColumns t (joinColumns source t)).map fun c => (some [c.name], false)

theorem DrawnFrom.exists_path (drawn : DrawnFrom source names t d) {k : Hierarchy}
    (hk : k ∈ d.hierarchies) :
    ∃ p ∈ drillPaths t (joinColumns source t), Follows names t p k :=
  exists_left_of_forall₂ drawn.hierarchies k hk

theorem DrawnFrom.attribute_used (drawn : DrawnFrom source names t d) {a : LevelAttribute}
    (ha : a ∈ d.levelAttributes) :
    ∃ k ∈ d.hierarchies, a.uniqueName ∈ k.levels.map (·.uniqueName) := by
  obtain ⟨use, hu, made⟩ := exists_left_of_forall₂ drawn.attributes a ha
  obtain ⟨p, hp, inside⟩ := List.mem_flatMap.1 (firstUses_subset _ hu)
  obtain ⟨k, hk, follows⟩ := exists_of_forall₂ drawn.hierarchies p hp
  obtain ⟨l, hl, level⟩ := exists_of_forall₂ follows.levels use inside
  have name := Option.some.inj (level.key.symm.trans made.key)
  exact ⟨k, hk, name ▸ List.mem_map_of_mem hl⟩

section Arranged

variable (drawn : DrawnFrom source names t d) (apart : names.Apart)
  (fresh : names.exhausted = []) (columns : t.ColumnsApart)
include drawn apart fresh columns

theorem DrawnFrom.level_over_join {c : Column} (hc : c ∈ joinColumns source t) {k : Hierarchy}
    (hk : k ∈ d.hierarchies) : ∃ l ∈ k.levels, d.keyColumns? l = some [c.name] := by
  obtain ⟨p, hp, follows⟩ := drawn.exists_path hk
  obtain ⟨use, hu, folded⟩ := List.mem_map.1 (key_mem_of_mem_joins hc hp)
  obtain ⟨l, hl, level⟩ := exists_of_forall₂ follows.levels use hu
  have uses := List.mem_flatMap.2 ⟨p, hp, hu⟩
  have column : use.column = c :=
    columns.eq_of_lower (mem_columns_of_use uses) (joinColumns_subset source t hc) folded
  exact ⟨l, hl, column ▸ drawn.keyColumns?_eq apart fresh columns uses level⟩

theorem DrawnFrom.built (some : usableHierarchies t (joinColumns source t) ≠ []) :
    List.Forall₂ (BuiltFrom source t d) (usableHierarchies t (joinColumns source t))
      d.hierarchies := by
  have once : ((joinColumns source t).map fun c => lower c.name).Nodup := nodup_joinColumns columns
  have paths := drillPaths_of_usable some
  have follow := drawn.hierarchies
  rw [paths, List.forall₂_map_left_iff] at follow
  have member : ∀ h ∈ usableHierarchies t (joinColumns source t),
      sourcePath t (joinColumns source t) h ∈ drillPaths t (joinColumns source t) :=
    fun h hh => paths ▸ List.mem_map_of_mem hh
  refine ((List.forall₂_and_left _ _).2 ⟨member, follow⟩).imp fun h k made =>
    ⟨made.2.label, ?_⟩
  have listed (use : LevelUse) (hu : use ∈ firstUses (listedUses t h)) : use.isHidden = false :=
    (column_mem_of_mem_listedUses (firstUses_subset _ hu)).2
  rw [drawn.steps_eq apart fresh columns made.1 made.2,
    sourcePath_uses columns (joinColumns_subset source t) once, List.map_append, levelColumns,
    List.map_map, joinUses, List.map_map]
  refine congrArg₂ (· ++ ·) (List.map_congr_left fun use hu => ?_) rfl
  rw [listed use hu]
  rfl

theorem DrawnFrom.default (none : usableHierarchies t (joinColumns source t) = [])
    {k : Hierarchy} (hk : k ∈ d.hierarchies) :
    d.hierarchies = [k] ∧ k.label = t.name ∧ d.steps k =
      (defaultColumns t (joinColumns source t)).map fun c => (some [c.name], false) := by
  obtain ⟨p, hp, follows⟩ := drawn.exists_path hk
  have paths := drillPaths_of_unusable none
  have chosen := hp
  rw [paths] at chosen
  obtain ⟨listed, usable⟩ := List.mem_filter.1 chosen
  obtain rfl := List.mem_singleton.1 listed
  have one := drawn.hierarchies.length_eq
  rw [paths, List.filter_singleton, usable] at one
  obtain ⟨k', only⟩ := List.length_eq_one_iff.1 one.symm
  rw [only] at hk
  obtain rfl := List.mem_singleton.1 hk
  refine ⟨only, follows.label, ?_⟩
  rw [drawn.steps_eq apart fresh columns hp follows, defaultPath, List.map_map]
  rfl

theorem DrawnFrom.arranged : Arranged source t d where
  nonempty _ hk := drawn.levels_ne_nil hk
  levelsOnce _ hk := drawn.levels_nodup apart fresh columns hk
  attributesUsed _ ha := drawn.attribute_used ha
  joined _ hr active toTable _ known _ hk :=
    drawn.level_over_join apart fresh columns (mem_joinColumns_iff.2
      ⟨_, hr, active, Tabular.Model.equalFold_of_table? toTable, known⟩) hk
  built some := drawn.built apart fresh columns some
  default none _ hk := drawn.default apart fresh columns none hk

end Arranged

theorem convertWith_drawn [Sql.Parser] {settings : Settings} {database : Database}
    {connection : String} {c : Conversion} (distinct : database.model.TablesDistinct)
    (h : convertWith settings database connection = .ok c) :
    ∃ names : Registry, names.Apart ∧
      (settings.NeverExhausted database connection → names.exhausted = []) ∧
      ∀ d ∈ c.dimensions, ∃ t ∈ database.model.tables,
        DrawnFrom ⟨database.model, settings⟩ names t d := by
  obtain ⟨catalog, m, s, ran, rfl⟩ := convertWith_ok h
  obtain ⟨apart, drawn⟩ := run_drawn ⟨database.model, settings⟩ distinct ran
  exact ⟨s.names, apart, fun fresh => fresh _ s ran, drawn⟩

/-- Every dimension is arranged as the hierarchies of its table and the joins to it have it. -/
theorem convertWith_arranged [Sql.Parser] {settings : Settings} {database : Database}
    {connection : String} {c : Conversion} (distinct : database.model.TablesDistinct)
    (columns : ∀ t ∈ database.model.tables, t.ColumnsApart)
    (fresh : settings.NeverExhausted database connection)
    (h : convertWith settings database connection = .ok c) :
    ∀ d ∈ c.dimensions, ∃ t ∈ database.model.tables, d.label = t.name ∧
      Arranged ⟨database.model, settings⟩ t d := by
  obtain ⟨names, apart, free, drawn⟩ := convertWith_drawn distinct h
  intro d hd
  obtain ⟨t, ht, made⟩ := drawn d hd
  exact ⟨t, ht, made.label, made.arranged apart (free fresh) (columns t ht)⟩

attribute [local instance] Sql.Parser.lenient

/-- Products have a listed level and one for their key. Makers have no hierarchy in the model. -/
theorem convertWith_arranged_shop : ∃ c, convertWith {} shop "warehouse" = .ok c ∧
    (c.dimensions.map fun d => (d.label, d.hierarchies.map (·.label))) =
      [("Product", ["Products"]), ("Maker", ["Maker"])] ∧
    (c.dimensions.map fun d => d.hierarchies.map d.steps) =
      [[[(some ["Group"], false), (some ["Product"], true)]], [[(some ["Maker"], false)]]] ∧
    ∀ d ∈ c.dimensions, ∃ t ∈ shop.model.tables, d.label = t.name ∧
      Arranged ⟨shop.model, {}⟩ t d := by
  have made : ∃ c, convertWith {} shop "warehouse" = .ok c ∧
      (c.dimensions.map fun d => (d.label, d.hierarchies.map (·.label))) =
        [("Product", ["Products"]), ("Maker", ["Maker"])] ∧
      (c.dimensions.map fun d => d.hierarchies.map d.steps) =
        [[[(some ["Group"], false), (some ["Product"], true)]], [[(some ["Maker"], false)]]] :=
    exists_convertWith (by decide +kernel)
  obtain ⟨c, h, labels, levels⟩ := made
  exact ⟨c, h, labels, levels, convertWith_arranged shop_tablesApart.distinct (by decide +kernel)
    shop_neverExhausted h⟩

end Conversion

end SemanticLayer
