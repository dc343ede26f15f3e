import SemanticLayer.Proofs.Conversion.Described
import SemanticLayer.Proofs.Conversion.LevelUses
import SemanticLayer.Proofs.Elementwise

set_option autoImplicit false

namespace SemanticLayer.Conversion

open Identifier
open Tabular (Table Column)
open Text (lower)

variable {source : Source} {names names' : Registry} {t : Table} {use : LevelUse}
  {s s' : State} {u : Unit}

theorem LevelUse.level_congr {use' : LevelUse} (table : String) (h : use.key = use'.key) :
    Key.level table use.column.name = Key.level table use'.column.name :=
  Key.located_congr "level" (congrArg (fun key => [lower table, key]) h)

structure IsLevel (names : Registry) (t : Table) (use : LevelUse) (l : Level) : Prop where
  key : names.lookup (Key.level t.name use.column.name) = some l.uniqueName
  isHidden : l.isHidden = use.isHidden

/-- The level attribute of a column that was first put to this use. -/
structure IsAttribute (names : Registry) (t : Table) (use : LevelUse) (a : LevelAttribute) :
    Prop where
  key : names.lookup (Key.level t.name use.column.name) = some a.uniqueName
  label : a.label = use.label
  keyColumns : a.keyColumns = [use.column.name]
  nameColumn : a.nameColumn = use.column.name
  sortColumn : a.sortColumn = (sortColumn? t use.column).map (·.name)
  isHidden : a.isHidden = (use.isHidden || use.column.isHidden)

/-- An entry in the memo of level attributes. Units of time are not known yet. -/
structure IsEntry (names : Registry) (t : Table) (use : LevelUse) (e : String × LevelAttribute) :
    Prop extends IsAttribute names t use e.2 where
  folded : e.1 = use.key
  timeUnit : e.2.timeUnit = none

structure Follows (names : Registry) (t : Table) (p : DrillPath) (k : Hierarchy) : Prop where
  key : names.lookup (Key.hierarchy t.name p.label) = some k.uniqueName
  label : k.label = p.label
  folder : k.folder = p.folder
  levels : List.Forall₂ (IsLevel names t) p.uses k.levels

section Mono

variable (later : ∀ key name, names.lookup key = some name → names'.lookup key = some name)
include later

theorem IsLevel.mono {l : Level} (h : IsLevel names t use l) : IsLevel names' t use l :=
  { h with key := later _ _ h.key }

theorem IsAttribute.mono {a : LevelAttribute} (h : IsAttribute names t use a) :
    IsAttribute names' t use a :=
  { h with key := later _ _ h.key }

theorem forall₂_isLevel_mono {uses : List LevelUse} {levels : List Level}
    (h : List.Forall₂ (IsLevel names t) uses levels) :
    List.Forall₂ (IsLevel names' t) uses levels :=
  h.imp fun _ _ made => made.mono later

theorem forall₂_isEntry_mono {uses : List LevelUse} {levels : LevelTable}
    (h : List.Forall₂ (IsEntry names t) uses levels) :
    List.Forall₂ (IsEntry names' t) uses levels :=
  h.imp fun _ _ made => { made with key := later _ _ made.key }

theorem Follows.mono {p : DrillPath} {k : Hierarchy} (h : Follows names t p k) :
    Follows names' t p k :=
  { h with key := later _ _ h.key, levels := forall₂_isLevel_mono later h.levels }

theorem forall₂_follows_mono {paths : List DrillPath} {found : List Hierarchy}
    (h : List.Forall₂ (Follows names t) paths found) :
    List.Forall₂ (Follows names' t) paths found :=
  h.imp fun _ _ made => made.mono later

end Mono

structure Walked (names : Registry) (t : Table) (before uses : List LevelUse)
    (h : HierarchyState) : Prop where
  used : h.used = uses.map LevelUse.key
  levels : List.Forall₂ (IsLevel names t) uses h.levels
  attributes : List.Forall₂ (IsEntry names t) (firstUses (before ++ uses)) h.attributes

theorem Walked.mono {before uses : List LevelUse} {h : HierarchyState}
    (walked : Walked names t before uses h)
    (later : ∀ key name, names.lookup key = some name → names'.lookup key = some name) :
    Walked names' t before uses h where
  used := walked.used
  levels := forall₂_isLevel_mono later walked.levels
  attributes := forall₂_isEntry_mono later walked.attributes

theorem Walked.start {before : List LevelUse} {attributes : LevelTable}
    (h : List.Forall₂ (IsEntry names t) (firstUses before) attributes) :
    Walked names t before [] { attributes } where
  used := rfl
  levels := .nil
  attributes := (List.append_nil before).symm ▸ h

variable {d : DimensionSource} {uses before : List LevelUse} {levels : LevelTable}

/-- The first use of a column makes its level attribute, later ones find it. -/
theorem levelAttribute_uses {r : String × LevelTable}
    (known : List.Forall₂ (IsEntry s.names d.table) (firstUses uses) levels)
    (h : (levelAttribute d levels use.column use.label use.isHidden).run s = .ok (r, s')) :
    s'.names.lookup (Key.level d.table.name use.column.name) = some r.1 ∧
      List.Forall₂ (IsEntry s'.names d.table) (firstUses (uses ++ [use])) r.2 := by
  have asks : Asks s s' := (Light.levelAttribute _ _ _ _ _).keeps _ _ _ h
  rw [levelAttribute] at h
  dsimp only at h
  split at h
  · rename_i a listed
    obtain ⟨rfl, rfl⟩ := pure_ok h
    obtain ⟨other, inside, entry⟩ :=
      exists_left_of_forall₂ known _ (mem_of_lookup listed)
    have same : use.key = other.key := entry.folded
    refine ⟨use.level_congr d.table.name same ▸ entry.key, ?_⟩
    rwa [firstUses_concat_of_mem (same ▸ List.mem_map_of_mem inside)]
  · rename_i absent
    have new : use.key ∉ (firstUses uses).map LevelUse.key := fun inside => by
      obtain ⟨other, listed, same⟩ := List.mem_map.1 inside
      obtain ⟨e, he, entry⟩ := exists_of_forall₂ known other listed
      have missing := List.lookup_eq_none_iff.1 (Option.eq_none_iff_forall_ne_some.2 absent) e he
      rw [entry.folded, same] at missing
      exact bne_iff_ne.1 missing rfl
    obtain ⟨name, s₁, named, h⟩ := bind_ok h
    obtain ⟨_, s₂, noted, h⟩ := bind_ok h
    obtain ⟨rfl, rfl⟩ := pure_ok h
    have answer := uniqueName_answered named fun _ h => absurd h (Option.not_mem_none _)
    have key := (log_onlyNames noted).2 ▸ answer.known
    rw [firstUses_concat_of_not_mem new]
    refine ⟨key, List.rel_append (forall₂_isEntry_mono asks.lookup known) (.cons ?_ .nil)⟩
    exact ⟨⟨key, rfl, rfl, rfl, rfl, rfl⟩, rfl, rfl⟩

theorem addLevel_uses {h h' : HierarchyState} (walked : Walked s.names d.table before uses h)
    (added : (addLevel d h use.column use.label use.isHidden).run s = .ok (h', s')) :
    Walked s'.names d.table before (uses ++ [use]) h' := by
  have asks : Asks s s' := (Light.addLevel _ _ _ _ _).keeps _ _ _ added
  obtain ⟨r, s₁, made, added⟩ := bind_ok added
  obtain ⟨rfl, rfl⟩ := pure_ok added
  obtain ⟨key, attributes⟩ := levelAttribute_uses walked.attributes made
  have levels := forall₂_isLevel_mono asks.lookup walked.levels
  exact {
    used := by rw [walked.used, List.map_append]; rfl
    levels := List.rel_append levels (.cons ⟨key, rfl⟩ .nil)
    attributes := List.append_assoc before uses [use] ▸ attributes }

theorem Walked.pass {h : HierarchyState} (walked : Walked names t before (firstUses uses) h)
    (used : h.used.contains use.key = true) :
    Walked names t before (firstUses (uses ++ [use])) h := by
  rw [firstUses_concat_of_mem (walked.used ▸ List.contains_iff_mem.1 used)]
  exact walked

theorem Walked.add {h h' : HierarchyState}
    (walked : Walked s.names d.table before (firstUses uses) h)
    (unused : ¬h.used.contains use.key = true)
    (added : (addLevel d h use.column use.label use.isHidden).run s = .ok (h', s')) :
    Walked s'.names d.table before (firstUses (uses ++ [use])) h' := by
  have new : use.key ∉ (firstUses uses).map LevelUse.key := fun inside =>
    unused (List.contains_iff_mem.2 (walked.used ▸ inside))
  rw [firstUses_concat_of_not_mem new]
  exact addLevel_uses walked added

theorem Walked.log {entries : List Diagnostic} {h : HierarchyState}
    (walked : Walked s.names t before uses h)
    (noted : (Conversion.log entries).run s = .ok (u, s')) : Walked s'.names t before uses h := by
  rwa [(log_onlyNames noted).2]

theorem listedLevels_uses {hierarchy : Tabular.Hierarchy} {h h' : HierarchyState}
    (walked : Walked s.names d.table before [] h)
    (listed : (listedLevels d hierarchy h).run s = .ok (h', s')) :
    Walked s'.names d.table before (firstUses (listedUses d.table hierarchy)) h' := by
  rw [listedLevels, sortByRank_eq_mergeSort] at listed
  let usesOf (done : List Tabular.Level) : List LevelUse := done.filterMap fun level =>
    (d.table.column? level.column).map fun c => { column := c, label := level.name }
  refine foldlM_steps
    (P := fun done h s => Walked s.names d.table before (firstUses (usesOf done)) h) walked
    (fun level _ done h s h' s' turn walked => ?_) listed
  have next : usesOf (done ++ [level]) = usesOf done ++ usesOf [level] := List.filterMap_append
  split at turn
  · rename_i unknown
    obtain ⟨_, s₁, noted, turn⟩ := bind_ok turn
    obtain ⟨rfl, rfl⟩ := pure_ok turn
    have nothing : usesOf [level] = [] := by simp [usesOf, unknown]
    rw [next, nothing, List.append_nil]
    exact walked.log noted
  · rename_i c known
    have one : usesOf [level] = [{ column := c, label := level.name }] := by simp [usesOf, known]
    rw [next, one]
    split at turn
    · rename_i used
      obtain ⟨rfl, rfl⟩ := pure_ok turn
      exact walked.pass used
    · rename_i unused
      exact walked.add unused turn

theorem appendedLevels_uses {hierarchy : Tabular.Hierarchy} {joins : List Column}
    {h h' : HierarchyState} (walked : Walked s.names d.table before (firstUses uses) h)
    (appended : (appendedLevels d hierarchy joins h).run s = .ok (h', s')) :
    Walked s'.names d.table before (firstUses (uses ++ joinUses joins)) h' := by
  have start : Walked s.names d.table before (firstUses (uses ++ joinUses [])) h :=
    (List.append_nil uses).symm ▸ walked
  refine foldlM_steps
    (P := fun done h s => Walked s.names d.table before (firstUses (uses ++ joinUses done)) h) start
    (fun c _ done h s h' s' turn walked => ?_) appended
  have next : uses ++ joinUses (done ++ [c]) = uses ++ joinUses done ++ joinUses [c] := by
    rw [joinUses, List.map_append, List.append_assoc]
    rfl
  rw [next]
  split at turn
  · rename_i used
    obtain ⟨rfl, rfl⟩ := pure_ok turn
    exact walked.pass used
  · rename_i unused
    obtain ⟨_, s₁, noted, turn⟩ := bind_ok turn
    exact (walked.log noted).add unused turn

theorem Walked.hierarchy {h : HierarchyState} {p : DrillPath} {k : Hierarchy}
    (walked : Walked s.names t before p.uses h)
    (answer : Answered (Key.hierarchy t.name p.label) k.uniqueName s s') (label : k.label = p.label)
    (folder : k.folder = p.folder) (levels : k.levels = h.levels) :
    Follows s'.names t p k where
  key := answer.known
  label := label
  folder := folder
  levels := levels ▸ forall₂_isLevel_mono answer.toOnlyNames.asks.lookup walked.levels

theorem explicitHierarchy_follows {joins : List Column} {hierarchy : Tabular.Hierarchy}
    {r : Option Hierarchy × LevelTable}
    (known : List.Forall₂ (IsEntry s.names d.table) (firstUses before) levels)
    (h : (explicitHierarchy d joins levels hierarchy).run s = .ok (r, s')) :
    List.Forall₂ (Follows s'.names d.table)
        ([sourcePath d.table joins hierarchy].filter DrillPath.isUsable) r.1.toList ∧
      List.Forall₂ (IsEntry s'.names d.table)
        (firstUses (before ++ (sourcePath d.table joins hierarchy).uses)) r.2 := by
  obtain ⟨h₁, s₁, listed, h⟩ := bind_ok h
  obtain ⟨h₂, s₂, appended, h⟩ := bind_ok h
  have walked : Walked s₂.names d.table before (sourcePath d.table joins hierarchy).uses h₂ :=
    appendedLevels_uses (listedLevels_uses (.start known) listed) appended
  rw [List.filter_singleton, DrillPath.isUsable, isEmpty_of_forall₂ walked.levels]
  split at h
  · rename_i empty
    obtain ⟨_, s₃, noted, h⟩ := bind_ok h
    obtain ⟨rfl, rfl⟩ := pure_ok h
    rw [empty]
    exact ⟨.nil, (walked.log noted).attributes⟩
  · rename_i some
    obtain ⟨name, s₃, named, h⟩ := bind_ok h
    obtain ⟨rfl, rfl⟩ := pure_ok h
    have answer := uniqueName_answered named fun _ h => absurd h (Option.not_mem_none _)
    rw [Bool.eq_false_iff.2 some]
    exact ⟨.cons (walked.hierarchy answer rfl rfl rfl) .nil,
      (walked.mono answer.toOnlyNames.asks.lookup).attributes⟩

theorem defaultHierarchy_follows {joins : List Column} {r : Option Hierarchy × LevelTable}
    (known : List.Forall₂ (IsEntry s.names d.table) (firstUses before) levels)
    (h : (defaultHierarchy d joins levels).run s = .ok (r, s')) :
    List.Forall₂ (Follows s'.names d.table)
        ([defaultPath d.table joins].filter DrillPath.isUsable) r.1.toList ∧
      List.Forall₂ (IsEntry s'.names d.table)
        (firstUses (before ++ (defaultPath d.table joins).uses)) r.2 := by
  let usesOf (done : List Column) : List LevelUse :=
    done.map fun c => { column := c, label := c.name }
  have uses : (defaultPath d.table joins).uses = usesOf (defaultColumns d.table joins) := rfl
  rw [defaultHierarchy] at h
  rw [List.filter_singleton, DrillPath.isUsable, uses]
  split at h
  · rename_i empty
    obtain ⟨_, s₁, noted, h⟩ := bind_ok h
    obtain ⟨rfl, rfl⟩ := pure_ok h
    rw [List.isEmpty_iff.1 empty, (log_onlyNames noted).2]
    exact ⟨.nil, (List.append_nil before).symm ▸ known⟩
  · rename_i some
    obtain ⟨h₁, s₁, filled, h⟩ := bind_ok h
    obtain ⟨name, s₂, named, h⟩ := bind_ok h
    obtain ⟨rfl, rfl⟩ := pure_ok h
    have answer := uniqueName_answered named fun _ h => absurd h (Option.not_mem_none _)
    have walked : Walked s₁.names d.table before (usesOf (defaultColumns d.table joins)) h₁ := by
      refine foldlM_steps (P := fun done h s => Walked s.names d.table before (usesOf done) h)
        (.start known) (fun c _ done h s h' s' turn walked => ?_) filled
      rw [show usesOf (done ++ [c]) = usesOf done ++ usesOf [c] from List.map_append]
      exact addLevel_uses walked turn
    have usable : (!(usesOf (defaultColumns d.table joins)).isEmpty) = true := by
      simpa [usesOf] using some
    rw [usable]
    exact ⟨.cons (walked.hierarchy (p := defaultPath d.table joins) answer rfl rfl rfl) .nil,
      (walked.mono answer.toOnlyNames.asks.lookup).attributes⟩

theorem flatMap_usable (p : DrillPath) :
    ([p].filter DrillPath.isUsable).flatMap (·.uses) = p.uses := by
  rw [List.filter_singleton]
  cases usable : p.isUsable with
  | false => exact (List.isEmpty_iff.1 (by simpa [DrillPath.isUsable] using usable)).symm
  | true => exact List.append_nil _

theorem hierarchies_follow {joins : List Column} {r : List Hierarchy × LevelTable}
    (h : (hierarchies d joins).run s = .ok (r, s')) :
    List.Forall₂ (Follows s'.names d.table) (drillPaths d.table joins) r.1 ∧
      List.Forall₂ (IsEntry s'.names d.table)
        (firstUses ((drillPaths d.table joins).flatMap (·.uses))) r.2 := by
  obtain ⟨⟨explicit, attributes⟩, s₁, folded, h⟩ := bind_ok h
  let pathsOf (done : List Tabular.Hierarchy) : List DrillPath :=
    (done.map (sourcePath d.table joins)).filter DrillPath.isUsable
  let P (done : List Tabular.Hierarchy) (r : List Hierarchy × LevelTable) (s : State) : Prop :=
    List.Forall₂ (Follows s.names d.table) (pathsOf done) r.1 ∧
      List.Forall₂ (IsEntry s.names d.table) (firstUses ((pathsOf done).flatMap (·.uses))) r.2
  obtain ⟨listed, known⟩ : P d.table.hierarchies (explicit, attributes) s₁ := by
    have start : P [] ([], []) s := ⟨.nil, .nil⟩
    refine foldlM_steps (P := P) start (fun hierarchy _ done r s r' s' turn before => ?_) folded
    obtain ⟨⟨resolved, attributes⟩, s₁, made, turn⟩ := bind_ok turn
    obtain ⟨rfl, rfl⟩ := pure_ok turn
    have asks : Asks s s₁ := (Light.explicitHierarchy _ _ _ _).keeps _ _ _ made
    obtain ⟨follows, known⟩ := explicitHierarchy_follows before.2 made
    have next : pathsOf (done ++ [hierarchy]) =
        pathsOf done ++ [sourcePath d.table joins hierarchy].filter DrillPath.isUsable := by
      change ((done ++ [hierarchy]).map (sourcePath d.table joins)).filter _ = _
      rw [List.map_append, List.filter_append]
      rfl
    refine ⟨next ▸ List.rel_append (forall₂_follows_mono asks.lookup before.1) follows, ?_⟩
    rw [next, List.flatMap_append, flatMap_usable]
    exact known
  have none : (sourcePaths d.table joins).isEmpty = explicit.isEmpty := isEmpty_of_forall₂ listed
  dsimp only at h
  rw [drillPaths, none]
  split at h
  · rename_i empty
    obtain ⟨⟨resolved, attributes'⟩, s₂, made, h⟩ := bind_ok h
    obtain ⟨rfl, rfl⟩ := pure_ok h
    have nothing : pathsOf d.table.hierarchies = [] := List.isEmpty_iff.1 (none.trans empty)
    rw [nothing] at known
    rw [if_pos empty, flatMap_usable]
    exact defaultHierarchy_follows known made
  · rename_i some
    obtain ⟨rfl, rfl⟩ := pure_ok h
    rw [if_neg some]
    exact ⟨listed, known⟩

/-- The attribute over a column, whatever the case of its name. -/
def attributeOver? (attributes : List LevelAttribute) (c : Column) : Option LevelAttribute :=
  attributes.find? fun a => lower a.nameColumn == lower c.name

theorem lookup_eq_attributeOver? (c : Column)
    (h : List.Forall₂ (IsEntry names t) uses levels) :
    levels.lookup (lower c.name) = attributeOver? (levels.map Prod.snd) c := by
  induction h with
  | nil => rfl
  | @cons use e uses levels made _ ih =>
    have folded : e.1 = lower e.2.nameColumn := made.folded.trans (made.nameColumn ▸ rfl)
    rw [List.lookup_cons, ih, folded, BEq.comm, attributeOver?, attributeOver?, List.map_cons,
      List.find?_cons]

def looseColumns (t : Table) (attributes : List LevelAttribute) : List Column :=
  t.columns.filter fun c => isShown c && (attributeOver? attributes c).isNone

def keyLevel? (t : Table) (attributes : List LevelAttribute) : Option String :=
  (t.keyColumn?.bind (attributeOver? attributes)).map (·.uniqueName)

/-- The place of the level that carries the secondary attributes, which is that of the key column,
if it is there, or else the last. -/
def carrierPlace (t : Table) (attributes : List LevelAttribute) (levels : List Level) : Nat :=
  ((keyLevel? t attributes).bind fun name => levels.findIdx? (·.uniqueName == name)).getD
    (levels.length - 1)

section Entries

variable (entries : List.Forall₂ (IsEntry names t) uses levels)
include entries

theorem secondaryColumns_eq : secondaryColumns t levels = looseColumns t (levels.map Prod.snd) :=
  List.filter_congr fun c _ => by rw [lookup_eq_attributeOver? c entries]

theorem designatedPosition_eq (bare : List Level) :
    designatedPosition t levels bare = carrierPlace t (levels.map Prod.snd) bare := by
  have same : (fun c : Column => levels.lookup (lower c.name)) =
      attributeOver? (levels.map Prod.snd) := funext fun c => lookup_eq_attributeOver? c entries
  rw [designatedPosition, carrierPlace, keyLevel?, same, Option.bind_map]
  rfl

end Entries

/-- The loose columns hang as attributes off one level of the first hierarchy, and nothing off any
other level. -/
structure Hangs (t : Table) (attributes : List LevelAttribute) (first : Hierarchy)
    (others : List Hierarchy) : Prop where
  first : ∃ levels : List Level, (∀ l ∈ levels, l.secondaryAttributes = []) ∧
    ∃ loose : List SecondaryAttribute,
      loose.map (·.keyColumns) = (looseColumns t attributes).map (fun c => [c.name]) ∧
        first.levels = levels.modify (carrierPlace t attributes levels) (withAttributes loose)
  others : ∀ k ∈ others, ∀ l ∈ k.levels, l.secondaryAttributes = []

theorem attachSecondaryAttributes_hangs {found found' : List Hierarchy} {paths : List DrillPath}
    (placed : s.names.lookup (Key.dataset d.table.name) = some d.dataset)
    (plain : ∀ k ∈ found, ∀ l ∈ k.levels, l.secondaryAttributes = [])
    (follow : List.Forall₂ (Follows s.names d.table) paths found)
    (entries : List.Forall₂ (IsEntry s.names d.table) uses levels)
    (h : (attachSecondaryAttributes d levels found).run s = .ok (found', s')) :
    List.Forall₂ (Follows s'.names d.table) paths found' ∧
      ∀ first others, found' = first :: others →
        Hangs d.table (levels.map Prod.snd) first others := by
  have asks : Asks s s' := (Light.attachSecondaryAttributes _ _ _).keeps _ _ _ h
  have later := forall₂_follows_mono asks.lookup follow
  cases later with
  | nil =>
    obtain ⟨rfl, rfl⟩ := pure_ok h
    exact ⟨.nil, fun _ _ same => nomatch same⟩
  | @cons p first paths others made rest =>
    obtain ⟨loose, s₁, hung, h⟩ := bind_ok h
    obtain ⟨rfl, rfl⟩ := pure_ok h
    obtain ⟨-, -, columns, attributes⟩ :=
      secondaryAttributes_ok List.filter_sublist.subset placed hung
    have kept (a : LevelUse) (b : Level) (level : IsLevel s₁.names d.table a b) :
        IsLevel s₁.names d.table a (withAttributes loose b) := ⟨level.key, level.isHidden⟩
    refine ⟨.cons { made with levels := forall₂_modify made.levels kept _ } rest,
      fun _ _ same => ?_⟩
    obtain ⟨rfl, rfl⟩ := List.cons.inj same
    refine ⟨⟨first.levels, plain first List.mem_cons_self, loose, ?_, ?_⟩,
      fun k hk => plain k (List.mem_cons_of_mem first hk)⟩
    · rw [← secondaryColumns_eq entries]
      calc
        loose.map (·.keyColumns) = loose.map fun a => [a.nameColumn] :=
          List.map_congr_left fun a ha => (attributes a ha).keyColumns
        _ = (loose.map (·.nameColumn)).map fun name => [name] := by rw [List.map_map]; rfl
        _ = (secondaryColumns d.table levels).map fun c => [c.name] := by
          rw [columns, List.map_map]
          rfl
    · rw [← designatedPosition_eq entries]
      rfl

theorem Hangs.timed {attributes : List LevelAttribute} {first : Hierarchy}
    {others : List Hierarchy} (h : Hangs t attributes first others)
    (unit : LevelAttribute → Option TimeUnit) :
    Hangs t (attributes.map fun a => { a with timeUnit := unit a }) first others := by
  let timed (a : LevelAttribute) : LevelAttribute := { a with timeUnit := unit a }
  have kept : attributeOver? (attributes.map timed) =
      Option.map timed ∘ attributeOver? attributes := funext fun c => List.find?_map
  have columns : looseColumns t (attributes.map timed) = looseColumns t attributes :=
    List.filter_congr fun c _ => by rw [kept, Function.comp_apply, Option.isNone_map]
  have keyed : keyLevel? t (attributes.map timed) = keyLevel? t attributes := by
    rw [keyLevel?, keyLevel?, kept, ← Option.map_bind, Option.map_map]
    rfl
  obtain ⟨levels, bare, loose, made, place⟩ := h.first
  refine ⟨⟨levels, bare, loose, columns ▸ made, ?_⟩, h.others⟩
  rw [carrierPlace, keyed]
  exact place

/-- A dimension that is as the columns of its table and the joins to them have it. -/
structure DrawnFrom (source : Source) (names : Registry) (t : Table) (d : Dimension) : Prop where
  label : d.label = t.name
  hierarchies : List.Forall₂ (Follows names t) (drillPaths t (joinColumns source t)) d.hierarchies
  attributes : List.Forall₂ (IsAttribute names t)
    (firstUses ((drillPaths t (joinColumns source t)).flatMap (·.uses))) d.levelAttributes
  hangs : ∀ first others, d.hierarchies = first :: others →
    Hangs t d.levelAttributes first others

theorem DrawnFrom.mono {d : Dimension} (h : DrawnFrom source names t d)
    (later : ∀ key name, names.lookup key = some name → names'.lookup key = some name) :
    DrawnFrom source names' t d :=
  { h with
    hierarchies := forall₂_follows_mono later h.hierarchies
    attributes := h.attributes.imp fun _ _ made => made.mono later }

theorem describeDimension_drawn {d : Dimension}
    (h : (describeDimension source t).run s = .ok (d, s')) : DrawnFrom source s'.names t d := by
  obtain @⟨_, dataset, _, _, levels, _, _, s₃, s₄, s₅, named, noted, placed, drafted, hung,
    timed⟩ := description_of_ok h
  have place := (datasetName_answered placed).known
  obtain ⟨draft, -⟩ :=
    hierarchies_ok (d := ⟨t, dataset⟩) place (joinColumns_subset source t) (.start t s₃) drafted
  obtain ⟨follow, entries⟩ := hierarchies_follow (d := ⟨t, dataset⟩) drafted
  have asks : Asks s₄ s₅ := (Light.attachSecondaryAttributes _ _ _).keeps _ _ _ hung
  obtain ⟨follow, hangs⟩ := attachSecondaryAttributes_hangs (d := ⟨t, dataset⟩)
    (draft.names.lookup place) draft.plain follow entries hung
  obtain ⟨unit, typed⟩ := timeTyped_ok source.settings t (levels.map Prod.snd)
  rw [(log_onlyNames timed).2]
  refine {
    label := rfl
    hierarchies := follow
    attributes := ?_
    hangs := fun first others same => typed ▸ (hangs first others same).timed unit }
  change List.Forall₂ _ _ (timeTyped source.settings t (levels.map Prod.snd)).2
  rw [typed, List.forall₂_map_right_iff, List.forall₂_map_right_iff]
  exact entries.imp fun _ _ made => { made.toIsAttribute.mono asks.lookup with }

theorem resolveDimensions_drawn (none : s.output.dimensions = [])
    (h : (resolveDimensions source).run s = .ok (u, s')) :
    ∀ d ∈ s'.output.dimensions, ∃ t ∈ source.model.tables, DrawnFrom source s'.names t d := by
  let P (_ : List Table) (s : State) : Prop :=
    ∀ d ∈ s.output.dimensions, ∃ t ∈ source.model.tables, DrawnFrom source s.names t d
  have start : P [] s := by simp [P, none]
  refine resolveDimensions_steps (P := P) start
    (fun t ht done s₁ s₂ d _ _ before described _ => ?_) h
  have asks : Asks s₁ s₂ := (Light.describeDimension source t).keeps _ _ _ described
  have drawn := describeDimension_drawn described
  intro e he
  rcases List.mem_append.1 he with old | new
  · obtain ⟨t', ht', drawn⟩ := before e old
    exact ⟨t', ht', drawn.mono asks.lookup⟩
  · rw [List.mem_singleton.1 new]
    exact ⟨t, ht, drawn⟩

def joinlessDimensions (o : Output) : List Dimension :=
  o.dimensions.map fun d => { d with relationships := [] }

theorem Spares.addNestedJoin (owner : String) (r : Relationship) :
    Admits (Spares joinlessDimensions) (·.addNestedJoin owner r) := fun s o added => by
  obtain ⟨rfl, -⟩ := Output.addNestedJoin_ok added
  change (s.output.dimensions.map (Output.withJoin owner r)).map _ = s.output.dimensions.map _
  rw [List.map_map]
  refine List.map_congr_left fun d _ => ?_
  rw [Function.comp_apply, Output.withJoin]
  split <;> rfl

abbrev KeepsNames : State → State → Prop := Gives (fun _ => []) fun _ => False

/-- All that comes after the dimensions leaves them as they were drawn. -/
theorem run_drawn (source : Source) {settings : Settings} {database : Tabular.Database}
    {connection : String} {catalog : Catalog} {m : Model}
    (distinct : source.model.TablesDistinct)
    (h : (run source database connection).run (.initial settings) = .ok ((catalog, m), s)) :
    s.names.Apart ∧
      ∀ d ∈ s.output.dimensions, ∃ t ∈ source.model.tables, DrawnFrom source s.names t d := by
  obtain ⟨made, s₀, s₁, -, before, after, only, finishing⟩ := reclassified_ok distinct h
  obtain ⟨_, s₂, described, finishing⟩ := bind_ok finishing
  have describing : KeepsNames s₁ s₂ := Keeps.resolveDimensions source (fun _ _ _ _ _ =>
    .of_output rfl) _ _ _ described
  have rest : KeepsNames s₂ s := Keeps.afterDimensions (fun _ _ _ _ _ => .of_output rfl)
    (fun _ _ _ _ => .of_output rfl) (fun _ _ => .of_output rfl) (fun _ _ _ _ => .of_output rfl)
    (fun _ _ _ _ _ => .of_output rfl) source made _ _ _ _ finishing
  have spared : joinlessDimensions s.output = joinlessDimensions s₂.output :=
    Keeps.afterDimensions (R := Spares joinlessDimensions) (fun _ _ => .addMetric rfl)
      (fun _ => .addPerspective rfl) (fun _ _ => rfl) (fun _ => .addJoin rfl) Spares.addNestedJoin
      source made _ _ _ _ finishing
  refine ⟨rest.apart (describing.apart (after.names.apart .nil)), fun d hd => ?_⟩
  have listed : { d with relationships := [] } ∈ joinlessDimensions s₂.output :=
    spared ▸ List.mem_map_of_mem hd
  obtain ⟨d₂, hd₂, same⟩ := List.mem_map.1 listed
  have none : s₁.output.dimensions = [] := by rw [only.output, before.dimensionless]
  obtain ⟨t, ht, drawn⟩ := resolveDimensions_drawn none described d₂ hd₂
  have here : DrawnFrom source s.names t { d₂ with relationships := [] } :=
    { drawn.mono rest.lookup with }
  rw [same] at here
  exact ⟨t, ht, { here with }⟩

end SemanticLayer.Conversion
