import SemanticLayer.Proofs.Conversion.Drafts

set_option autoImplicit false

namespace SemanticLayer.Conversion

open Identifier
open Tabular (Table Column)
open Text (lower)

variable {source : Source} {s s₀ s' : State} {u : Unit}

/-- What secondary attributes do not change in a hierarchy. -/
def outline (k : Hierarchy) : String × String × List String :=
  (k.uniqueName, k.label, k.levels.map (·.uniqueName))

theorem secondaryAttributes_ok {d : DimensionSource} {columns : List Column}
    {made : List SecondaryAttribute} (inside : columns ⊆ d.table.columns)
    (placed : s.names.lookup (Key.dataset d.table.name) = some d.dataset)
    (h : (columns.mapM (secondaryAttribute d)).run s = .ok (made, s')) :
    OnlyNames s s' ∧ Quiet s s' ∧ made.map (·.nameColumn) = columns.map (·.name) ∧
      ∀ a ∈ made, SecondaryOf s'.names d.table a := by
  induction columns generalizing s made with
  | nil =>
    obtain ⟨rfl, rfl⟩ := pure_ok h
    exact ⟨.refl s, .of_eq rfl, rfl, fun _ h => nomatch h⟩
  | cons c columns ih =>
    rw [List.mapM_cons] at h
    obtain ⟨first, s₁, new, h⟩ := bind_ok h
    obtain ⟨others, s₂, rest, h⟩ := bind_ok h
    obtain ⟨rfl, rfl⟩ := pure_ok h
    obtain ⟨name, s₃, named, new⟩ := bind_ok new
    obtain ⟨rfl, rfl⟩ := pure_ok new
    have kind := Key.word_secondaryAttribute d.table.name c.name
    have answer : Answered (Key.secondaryAttribute d.table.name c.name) name s s₃ :=
      uniqueName_answered named fun _ h => nomatch h
    have quiet : Quiet s s₃ := answer.quiet (by rw [kind]; decide) (by rw [kind]; decide)
    obtain ⟨only, later, columns, attributes⟩ :=
      ih (List.subset_of_cons_subset inside) (answer.names.lookup placed) rest
    refine ⟨answer.toOnlyNames.trans only, Quiet.trans quiet later, ?_, fun a ha => ?_⟩
    · rw [List.map_cons, List.map_cons, columns]
    · rcases List.mem_cons.1 ha with rfl | old
      · exact {
          key := only.names.lookup answer.known
          dataset := only.names.lookup (answer.names.lookup placed)
          column := List.mem_map_of_mem (inside List.mem_cons_self)
          keyColumns := rfl }
      · exact attributes a old

def withAttributes (more : List SecondaryAttribute) (level : Level) : Level :=
  { level with secondaryAttributes := level.secondaryAttributes ++ more }

theorem map_modify_withAttributes (more : List SecondaryAttribute) (n : Nat)
    (levels : List Level) :
    (levels.modify n (withAttributes more)).map (·.uniqueName) = levels.map (·.uniqueName) := by
  induction levels generalizing n with
  | nil => cases n <;> rfl
  | cons level levels ih =>
    cases n with
    | zero => rfl
    | succ n =>
      rw [List.modify_succ_cons, List.map_cons, List.map_cons, ih]

theorem flatMap_modify_withAttributes (more : List SecondaryAttribute) (n : Nat)
    {levels : List Level} (plain : ∀ l ∈ levels, l.secondaryAttributes = []) :
    ((levels.modify n (withAttributes more)).flatMap (·.secondaryAttributes)).Sublist more := by
  have none {levels : List Level} (plain : ∀ l ∈ levels, l.secondaryAttributes = []) :
      levels.flatMap (·.secondaryAttributes) = [] := List.flatMap_eq_nil_iff.2 plain
  induction levels generalizing n with
  | nil => cases n <;> exact List.nil_sublist _
  | cons level levels ih =>
    have others := fun l hl => plain l (List.mem_cons_of_mem level hl)
    have first := plain level List.mem_cons_self
    cases n with
    | zero =>
      rw [List.modify_zero_cons, List.flatMap_cons, none others, List.append_nil, withAttributes,
        first]
      exact .refl _
    | succ n =>
      rw [List.modify_succ_cons, List.flatMap_cons, first]
      exact ih n others

theorem attachSecondaryAttributes_ok {d : DimensionSource} {levels : LevelTable}
    {found found' : List Hierarchy}
    (placed : s.names.lookup (Key.dataset d.table.name) = some d.dataset)
    (plain : ∀ k ∈ found, ∀ l ∈ k.levels, l.secondaryAttributes = [])
    (h : (attachSecondaryAttributes d levels found).run s = .ok (found', s')) :
    OnlyNames s s' ∧ Quiet s s' ∧ found'.map outline = found.map outline ∧
      ∃ more : List SecondaryAttribute,
        (found'.flatMap fun k => k.levels.flatMap (·.secondaryAttributes)).Sublist more ∧
          (∀ a ∈ more, SecondaryOf s'.names d.table a) ∧
          (d.table.ColumnsApart → (more.map fun a => lower a.nameColumn).Nodup) := by
  cases found with
  | nil =>
    obtain ⟨rfl, rfl⟩ := pure_ok h
    exact ⟨.refl s, .of_eq rfl, rfl, [], .slnil, (fun _ h => nomatch h), fun _ => .nil⟩
  | cons first others =>
    obtain ⟨more, s₁, made, h⟩ := bind_ok h
    obtain ⟨rfl, rfl⟩ := pure_ok h
    obtain ⟨only, quiet, columns, attributes⟩ :=
      secondaryAttributes_ok List.filter_sublist.subset placed made
    have rest : (others.flatMap fun k => k.levels.flatMap (·.secondaryAttributes)) = [] :=
      List.flatMap_eq_nil_iff.2 fun k hk =>
        List.flatMap_eq_nil_iff.2 (plain k (List.mem_cons_of_mem first hk))
    refine ⟨only, quiet, ?_, more, ?_, attributes, fun apart => ?_⟩
    · rw [List.map_cons, List.map_cons, outline, outline]
      exact congrArg (fun names => (first.uniqueName, first.label, names) :: others.map outline)
        (map_modify_withAttributes more _ first.levels)
    · rw [List.flatMap_cons, rest, List.append_nil]
      exact flatMap_modify_withAttributes more _ (plain first List.mem_cons_self)
    · have names : (more.map fun a => lower a.nameColumn) =
          (secondaryColumns d.table levels).map fun c => lower c.name := by
        have both := congrArg (List.map lower) columns
        rwa [List.map_map, List.map_map] at both
      rw [names]
      exact (List.filter_sublist.map _).nodup apart

theorem timeTyped_ok (settings : Settings) (t : Table) (attributes : List LevelAttribute) :
    ∃ unit : LevelAttribute → Option TimeUnit, (timeTyped settings t attributes).2 =
      attributes.map fun a => { a with timeUnit := unit a } := by
  rw [timeTyped]
  split
  · exact ⟨_, rfl⟩
  · exact ⟨(·.timeUnit), (List.map_id _).symm⟩

def HasDimension (s : State) (table : String) : Prop :=
  ∃ d ∈ s.output.dimensions, s.names.lookup (Key.dimension table) = some d.uniqueName

theorem HasDimension.mono {table : String} (h : HasDimension s table) (grows : Grows s s') :
    HasDimension s' table := by
  obtain ⟨d, hd, key⟩ := h
  obtain ⟨d', hd', same⟩ := grows.dimensions d hd
  exact ⟨d', hd', same.1 ▸ grows.names.lookup key⟩

def HasJoinLevels (source : Source) (s : State) (t : Table) : Prop :=
  ∀ c ∈ joinColumns source t, s.names.lookup (Key.level t.name c.name) ≠ none

theorem HasJoinLevels.mono {t : Table} (h : HasJoinLevels source s t)
    (names : s.names.Reaches s'.names) : HasJoinLevels source s' t := fun c hc => by
  obtain ⟨name, known⟩ := Option.ne_none_iff_exists'.1 (h c hc)
  exact Option.ne_none_iff_exists'.2 ⟨name, names.lookup known⟩

theorem Draft.lookup_level {t : Table} {levels : LevelTable} {found : List Hierarchy} {c : Column}
    (draft : Draft t s₀ s levels found) (h : lower c.name ∈ levels.map Prod.fst) :
    s.names.lookup (Key.level t.name c.name) ≠ none := by
  obtain ⟨e, he, same⟩ := List.mem_map.1 h
  obtain ⟨level, folded⟩ := draft.attributes e he
  have key : Key.level t.name c.name = Key.level t.name e.2.nameColumn :=
    congrArg (fun folded => "level" ++ ":" ++ lower t.name ++ ":" ++ folded)
      (same.symm.trans folded)
  rw [key, level.key]
  exact Option.some_ne_none _

theorem Indexed.addDimension {t : Table} {s₁ : State} {levels : LevelTable}
    {found : List Hierarchy} {d : Dimension} (indexed : Indexed source s₀)
    (apart : source.model.TablesApart) (ht : t ∈ source.model.tables)
    (draft : Draft t s₀ s levels found) (only : OnlyNames s s₁) (quiet : Quiet s s₁)
    (key : s₁.names.lookup (Key.dimension t.name) = some d.uniqueName)
    (attributes : d.levelAttributes.map (·.uniqueName) = levelNames levels)
    (outlines : d.hierarchies.map outline = found.map outline) :
    Indexed source
      { s₁ with output := { s₁.output with dimensionMap := s₁.output.dimensionMap.insert d } } := by
  have all := draft.toOnlyNames.trans only
  have earlier {t' : Table} (d' : Dimension) (hd' : d' ∈ s₀.output.dimensions)
      (known : s₀.names.lookup (Key.dimension t'.name) = some d'.uniqueName) :
      d' ∈ s₁.output.dimensions ++ [d] ∧
        s₁.names.lookup (Key.dimension t'.name) = some d'.uniqueName :=
    ⟨List.mem_append_left _ (all.output ▸ hd'), all.names.lookup known⟩
  have last : d ∈ s₁.output.dimensions ++ [d] :=
    List.mem_append_right _ (List.mem_singleton_self d)
  have noted (k name : String) (known : s₁.names.lookup k = some name) :
      s₀.names.lookup k = some name ∨ (Key.word k ≠ "level" ∧ Key.word k ≠ "hierarchy") ∨
        (∃ e ∈ levels, k = Key.level t.name e.2.nameColumn ∧ name = e.2.uniqueName) ∨
        ∃ h ∈ found, k = Key.hierarchy t.name h.label ∧ name = h.uniqueName := by
    rcases quiet k name known with old | other
    · exact draft.noted k name old
    · exact Or.inr (Or.inl other)
  have plain := apart.plain
  -- A level or a hierarchy that is known was known before or is one of the draft; keys of the two
  -- kinds differ in their first word.
  constructor
  · intro t' ht' column name known
    rcases noted _ _ known with old | ⟨other, -⟩ | ⟨e, he, same, rfl⟩ | ⟨h, -, same, -⟩
    · obtain ⟨d', hd', known, inside⟩ := indexed.levels t' ht' column name old
      obtain ⟨member, known⟩ := earlier d' hd' known
      exact ⟨d', member, known, inside⟩
    · exact absurd (Key.word_level t'.name column) other
    · have table := (Key.level_inj (plain t' ht') (plain t ht) same).1
      obtain rfl := apart.eq_of_lower ht' ht table
      exact ⟨d, last, key, attributes ▸ List.mem_map_of_mem he⟩
    · have words := congrArg Key.word same
      rw [Key.word_level, Key.word_hierarchy] at words
      exact absurd words (by decide)
  · intro t' ht' label name known
    rcases noted _ _ known with old | ⟨-, other⟩ | ⟨e, -, same, -⟩ | ⟨h, hh, same, rfl⟩
    · obtain ⟨d', hd', known, inside⟩ := indexed.hierarchies t' ht' label name old
      obtain ⟨member, known⟩ := earlier d' hd' known
      exact ⟨d', member, known, inside⟩
    · exact absurd (Key.word_hierarchy t'.name label) other
    · have words := congrArg Key.word same
      rw [Key.word_level, Key.word_hierarchy] at words
      exact absurd words (by decide)
    · have table := (Key.hierarchy_inj (plain t' ht') (plain t ht) same).1
      obtain rfl := apart.eq_of_lower ht' ht table
      have listed : outline h ∈ d.hierarchies.map outline := outlines ▸ List.mem_map_of_mem hh
      obtain ⟨k, hk, same⟩ := List.mem_map.1 listed
      exact ⟨d, last, key, List.mem_map.2 ⟨k, hk, congrArg Prod.fst same⟩⟩

theorem DimensionFor.of_draft {t : Table} {s₁ : State} {levels : LevelTable}
    {found : List Hierarchy} {more : List SecondaryAttribute} {d : Dimension}
    {unit : LevelAttribute → Option TimeUnit} (ht : t ∈ source.model.tables)
    (draft : Draft t s₀ s levels found) (only : OnlyNames s s₁) (label : d.label = t.name)
    (key : s₁.names.lookup (Key.dimension t.name) = some d.uniqueName)
    (joined : HasDataset s₁ t.name)
    (attributes : d.levelAttributes =
      (levels.map Prod.snd).map fun a => { a with timeUnit := unit a })
    (outlines : d.hierarchies.map outline = found.map outline)
    (labels : t.HierarchiesApart → (found.map fun k => lower k.label).Nodup)
    (inside : d.secondaryAttributes.Sublist more)
    (secondary : ∀ a ∈ more, SecondaryOf s₁.names t a)
    (secondaryApart : t.ColumnsApart → (more.map fun a => lower a.nameColumn).Nodup) :
    DimensionFor source s₁ t d where
  mem := ht
  label := label
  key := key
  dataset := joined
  levels a ha := by
    rw [attributes] at ha
    obtain ⟨b, hb, rfl⟩ := List.mem_map.1 ha
    obtain ⟨e, he, rfl⟩ := List.mem_map.1 hb
    have level := (draft.attributes e he).1.mono only.names
    exact ⟨level.key, level.dataset, level.column, level.keyColumns, level.sortColumn⟩
  levelsApart := by
    have names : (d.levelAttributes.map fun a => lower a.nameColumn) = levels.map Prod.fst := by
      rw [attributes, List.map_map, List.map_map]
      exact List.map_congr_left fun e he => (draft.attributes e he).2.symm
    exact names ▸ draft.apart
  hierarchies k hk := by
    have listed : outline k ∈ found.map outline := outlines ▸ List.mem_map_of_mem hk
    obtain ⟨k', hk', same⟩ := List.mem_map.1 listed
    obtain ⟨name, rest⟩ := Prod.mk.inj same
    obtain ⟨label, levelNames⟩ := Prod.mk.inj rest
    have made := (draft.hierarchies k' hk').mono only.names
    refine ⟨label ▸ name ▸ made.key, fun l hl => ?_⟩
    have listed : l.uniqueName ∈ k'.levels.map (·.uniqueName) :=
      levelNames ▸ List.mem_map_of_mem hl
    obtain ⟨l', hl', same⟩ := List.mem_map.1 listed
    rw [attributes, List.map_map, ← same]
    exact made.levels l' hl'
  hierarchiesApart apart := by
    have names : (d.hierarchies.map fun k => lower k.label) =
        found.map fun k => lower k.label := by
      have both := congrArg (List.map fun o => lower o.2.1) outlines
      rwa [List.map_map, List.map_map] at both
    exact names ▸ labels apart
  secondary a ha := secondary a (inside.subset ha)
  secondaryApart apart := (inside.map _).nodup (secondaryApart apart)

theorem resolveDimension_ok {t : Table} (apart : source.model.TablesApart)
    (ht : t ∈ source.model.tables) (joined : HasDataset s t.name)
    (h : (resolveDimension source t).run s = .ok (u, s')) :
    Moves source .joins s s' ∧ HasDimension s' t.name ∧ HasJoinLevels source s' t := by
  obtain ⟨name, s₁, named, h⟩ := bind_ok h
  obtain ⟨_, s₂, noted, h⟩ := bind_ok h
  obtain ⟨dataset, s₃, placed, h⟩ := bind_ok h
  obtain ⟨⟨found, levels⟩, s₄, drafted, h⟩ := bind_ok h
  obtain ⟨found', s₅, attached, h⟩ := bind_ok h
  obtain ⟨_, s₆, timed, h⟩ := bind_ok h
  have moved : Moves source .joins s₁ s₃ := (log_moves noted).trans (datasetName_moves placed)
  have before : Moves source .joins s s₃ := (dimensionName_moves named).trans moved
  have place := (datasetName_answered placed).known
  obtain ⟨draft, labels, joins⟩ :=
    hierarchies_ok (d := ⟨t, dataset⟩) place (joinColumns_subset source t) (.start t s₃) drafted
  obtain ⟨only, quiet, outlines, more, inside, secondary, secondaryApart⟩ :=
    attachSecondaryAttributes_ok (d := ⟨t, dataset⟩) (draft.names.lookup place) draft.plain attached
  obtain ⟨onlyLog, names⟩ := log_onlyNames timed
  have later := only.trans onlyLog
  have quietly : Quiet s₄ s₆ := Quiet.trans quiet (.of_eq names)
  have all := draft.toOnlyNames.trans later
  obtain ⟨o, added, rfl⟩ := store_ok h
  obtain ⟨unit, typed⟩ := timeTyped_ok source.settings t (levels.map Prod.snd)
  let d : Dimension := {
    uniqueName := name
    label := t.name
    type := (timeTyped source.settings t (levels.map Prod.snd)).1
    description := t.description
    hierarchies := found'
    levelAttributes := (timeTyped source.settings t (levels.map Prod.snd)).2 }
  have result : { s₆.output with dimensionMap := s₆.output.dimensionMap.insert d } = o ∧
      (s₆.output.Distinct → o.Distinct) := Output.addDimension_ok added rfl
  obtain ⟨rfl, distinct⟩ := result
  have grown : Grows s s₆ := before.extension.toGrows.trans (all.extends .joins).toGrows
  have key : s₆.names.lookup (Key.dimension t.name) = some name :=
    all.names.lookup (moved.extension.names.lookup (dimensionName_answered named).known)
  -- The dimension is described before it is stored, and the description carries over.
  have describes : DimensionFor source s₆ t d := .of_draft ht draft later rfl key
    (joined.mono grown) typed outlines labels inside (names ▸ secondary) secondaryApart
  have ext : Extends .joins s₆
      { s₆ with output := { s₆.output with dimensionMap := s₆.output.dimensionMap.insert d } } :=
    .of_output (List.Subset.refl _) (fun e he => ⟨e, List.mem_append_left _ he, .refl e⟩) rfl rfl
  have new : Additions source s₆
      { s₆ with output := { s₆.output with dimensionMap := s₆.output.dimensionMap.insert d } } := {
    dimensions := fun e he => by
      rcases List.mem_append.1 he with old | last
      · exact Or.inl ⟨e, old, .refl e⟩
      · rw [List.mem_singleton.1 last]
        exact Or.inr ⟨t, describes.mono ext.toGrows (.refl d)⟩
    joins := fun r hr => by
      have plain : d.relationships = [] := rfl
      exact Or.inl (Output.allJoins_insert s₆.output plain ▸ hr)
    distinct }
  have total := (all.extends .joins).trans ext
  have levelled : HasJoinLevels source s₄ t := fun c hc => draft.lookup_level (joins c hc)
  refine ⟨before.trans ⟨total, fun fresh sound => ?_⟩,
    ⟨d, List.mem_append_right _ (List.mem_singleton_self d), key⟩, levelled.mono later.names⟩
  refine sound.extend total.toGrows (all.before_additions new) ?_
  refine sound.indexed.addDimension apart ht draft later quietly key ?_ outlines
  change (timeTyped source.settings t (levels.map Prod.snd)).2.map (·.uniqueName) = _
  rw [typed, List.map_map, List.map_map]
  rfl

theorem resolveDimensions_ok (apart : source.model.TablesApart)
    (joined : ∀ t ∈ source.model.tables, t.name ∈ s.tables.dimension → HasDataset s t.name)
    (h : (resolveDimensions source).run s = .ok (u, s')) :
    Moves source .joins s s' ∧
      ∀ t ∈ source.model.tables, t.name ∈ s.tables.dimension →
        HasDimension s' t.name ∧ HasJoinLevels source s' t := by
  obtain ⟨_, s₁, loop, h⟩ := bind_ok h
  obtain ⟨-, rfl⟩ := pure_ok h
  refine forIn_all (P := Moves source .joins s)
    (Q := fun t s' => t.name ∈ s.tables.dimension →
      HasDimension s' t.name ∧ HasJoinLevels source s' t) (.refl _ _ _)
    (fun t ht s₂ s₃ r turn before => ?_) loop
  obtain ⟨_, _, got, turn⟩ := bind_ok turn
  obtain ⟨rfl, rfl⟩ := get_ok got
  rw [before.extension.tables] at turn
  split at turn
  · rename_i isDimension
    obtain ⟨_, s₄, made, turn⟩ := bind_ok turn
    obtain ⟨rfl, rfl⟩ := pure_ok turn
    have place := (joined t ht (List.contains_iff_mem.1 isDimension)).mono before.extension.toGrows
    obtain ⟨moves, dimension⟩ := resolveDimension_ok apart ht place made
    exact ⟨rfl, before.trans moves, fun _ => dimension,
      fun y known isDimension => (known isDimension).imp (·.mono moves.extension.toGrows)
        (·.mono moves.extension.names)⟩
  · rename_i other
    obtain ⟨rfl, rfl⟩ := pure_ok turn
    exact ⟨rfl, before, fun isDimension => absurd (List.contains_iff_mem.2 isDimension) other,
      fun _ known => known⟩

end SemanticLayer.Conversion
