import SemanticLayer.Conversion.Perspectives
import SemanticLayer.Proofs.Conversion.Exposed
import SemanticLayer.Proofs.Conversion.Joins

set_option autoImplicit false

namespace SemanticLayer.Conversion

open Identifier
open Relation (ReflTransGen)
open Tabular (Table PerspectiveTable)

variable {source : Source} {phase : Phase} {s s' : State} {u : Unit}

theorem Sound.mem_of_nested (sound : Sound source s) {outer inner : String}
    (known : outer ∈ s.output.dimensions.map (·.uniqueName))
    (path : ReflTransGen (Nests s.output.dimensions) outer inner) :
    inner ∈ s.output.dimensions.map (·.uniqueName) := by
  rcases path.cases_tail with rfl | ⟨_, -, d, hd, -, r, hr, same⟩
  · exact known
  · have nested := List.mem_append_right s.output.relationships (List.mem_flatMap.2 ⟨d, hd, hr⟩)
    obtain ⟨d', hd', name, -⟩ := (sound.joins r nested).target
    exact List.mem_map.2 ⟨d', hd', name.trans same⟩

theorem modelDimensions_mem {exposed : List String} (sound : Sound source s)
    (h : modelDimensions source s = .ok exposed) :
    ∀ name ∈ exposed, name ∈ s.output.dimensions.map (·.uniqueName) := by
  intro name hn
  obtain ⟨target, ht, path⟩ := ((exposes_of_exposedDimensions h).mem name).1 hn
  obtain ⟨r, hr, rfl⟩ := List.mem_map.1 ht
  obtain ⟨d, hd, same, -⟩ := (sound.joins r (List.mem_append_left _ hr)).target
  exact sound.mem_of_nested (List.mem_map.2 ⟨d, hd, same⟩) path

theorem lists_insert {dimensions : List Dimension} {name : String} {hierarchies : List String}
    {all : List PerspectiveDimension} (distinct : (dimensions.map (·.uniqueName)).Nodup)
    (known : ∀ p ∈ all, Lists dimensions p) {d : Dimension} (hd : d ∈ dimensions)
    (same : d.uniqueName = name)
    (inside : ∀ h ∈ hierarchies, h ∈ d.hierarchies.map (·.uniqueName)) :
    ∀ p ∈ includeDimension name hierarchies all, Lists dimensions p := by
  induction all with
  | nil =>
    intro p hp
    rw [List.mem_singleton.1 hp]
    refine ⟨d, hd, same, fun h hh => inside h ?_⟩
    exact (mem_foldl_insertName.1 hh).resolve_left List.not_mem_nil
  | cons q rest ih =>
    have first := known q List.mem_cons_self
    have others := fun p hp => known p (List.mem_cons_of_mem q hp)
    intro p hp
    rw [includeDimension] at hp
    split at hp
    · rename_i merged
      rcases List.mem_cons.1 hp with rfl | old
      · obtain ⟨d', hd', name', listed⟩ := first
        obtain rfl :=
          List.inj_on_of_nodup_map distinct hd hd' (same.trans (name'.trans merged).symm)
        exact ⟨d, hd, name', fun h hh => (mem_foldl_insertName.1 hh).elim (listed h) (inside h)⟩
      · exact others p old
    · rcases List.mem_cons.1 hp with rfl | old
      · exact first
      · exact ih others p old

theorem withNestedDimensions_lists {maxDepth : Nat} {dimensions all : List PerspectiveDimension}
    (sound : Sound source s) (known : ∀ p ∈ dimensions, Lists s.output.dimensions p)
    (h : withNestedDimensions (.ofDimensions s.output.dimensions) maxDepth dimensions = .ok all) :
    ∀ p ∈ all, Lists s.output.dimensions p := by
  have distinct := sound.distinct.dimensions
  refine foldlM_except_ok (P := fun all => ∀ p ∈ all, Lists s.output.dimensions p) known
    (fun p hp all all' turn before => ?_) h
  obtain ⟨more, reached, rfl⟩ := map_except_ok turn
  obtain ⟨own, made, label, -⟩ := known p hp
  have emitted : ∀ name ∈ more, name ∈ s.output.dimensions.map (·.uniqueName) := fun name hn =>
    sound.mem_of_nested (List.mem_map.2 ⟨own, made, label⟩)
      ((mem_reachableFrom reached).1 (Or.inr hn))
  clear reached turn
  induction more generalizing all with
  | nil => exact before
  | cons name more ih =>
    obtain ⟨d, hd, same⟩ := List.mem_map.1 (emitted name List.mem_cons_self)
    exact ih _ (lists_insert distinct before hd same fun _ h => nomatch h)
      fun n hn => emitted n (List.mem_cons_of_mem name hn)

structure Listed (s : State) (content : PerspectiveContent) : Prop where
  metrics : ∀ m ∈ content.metrics, m ∈ s.output.measureNames
  dimensions : ∀ p ∈ content.dimensions, Lists s.output.dimensions p

theorem Listed.mono {content : PerspectiveContent} (h : Listed s content) (grows : Grows s s') :
    Listed s' content where
  metrics m hm := grows.measureNames (h.metrics m hm)
  dimensions p hp := (h.dimensions p hp).mono grows

theorem listedMetrics_subset {resolved : List (String × String)} {t : Table}
    {names listed metrics : List String} (emitted : ∀ e ∈ resolved, e.2 ∈ names)
    (known : metrics ⊆ names) :
    listedMetrics resolved t listed metrics ⊆ names := by
  intro m hm
  rcases mem_foldl_insertName.1 hm with old | new
  · exact known old
  · obtain ⟨name, -, found⟩ := List.mem_filterMap.1 new
    exact emitted _ (mem_of_lookup found)

/-- An entry shows a dimension table of which it lists a column or a hierarchy. -/
structure Shows (source : Source) (s : State) (entry : PerspectiveTable) (t : Table) : Prop where
  found : source.model.table? entry.name = some t
  isDimension : t.name ∈ s.tables.dimension
  lists : entry.columns ≠ [] ∨ entry.hierarchies ≠ []

/-- What a step does that adds an entry to a perspective. -/
inductive Adding (source : Source) (s : State) (content : PerspectiveContent)
    (entry : PerspectiveTable) : PerspectiveContent → State → Prop
  | unknown {entries : List Diagnostic} {s' : State}
    (missing : source.model.table? entry.name = none)
    (noted : (log entries).run s = .ok (⟨⟩, s')) : Adding source s content entry content s'
  | hidden {t : Table} {entries : List Diagnostic} {s' : State}
    (found : source.model.table? entry.name = some t) (out : ¬Shows source s entry t)
    (noted : (log entries).run s = .ok (⟨⟩, s')) :
    Adding source s content entry { content with
      metrics := listedMetrics s.measures.resolved t entry.measures content.metrics } s'
  | shown {t : Table} {dimension : String} {entries entries' : List Diagnostic} {s₁ s₂ s' : State}
    (shows : Shows source s entry t) (noted : (log entries).run s = .ok (⟨⟩, s₁))
    (named : (dimensionName t.name).run s₁ = .ok (dimension, s₂))
    (noted' : (log entries').run s₂ = .ok (⟨⟩, s')) :
    Adding source s content entry {
      metrics := listedMetrics s.measures.resolved t entry.measures content.metrics
      dimensions := includeDimension dimension (listedHierarchies s₂.names t entry.hierarchies)
        content.dimensions } s'

theorem adding_of_addPerspectiveTable {perspective : String} {content content' : PerspectiveContent}
    {entry : PerspectiveTable}
    (h : (addPerspectiveTable source perspective content entry).run s = .ok (content', s')) :
    Adding source s content entry content' s' := by
  rw [addPerspectiveTable] at h
  split at h
  · rename_i missing
    obtain ⟨_, s₁, noted, h⟩ := bind_ok h
    obtain ⟨rfl, rfl⟩ := pure_ok h
    exact .unknown missing noted
  rename_i t found
  obtain ⟨_, _, got, h⟩ := bind_ok h
  obtain ⟨rfl, rfl⟩ := get_ok got
  obtain ⟨_, s₁, noted, h⟩ := bind_ok h
  dsimp only at h
  split at h
  · rename_i out
    obtain ⟨rfl, rfl⟩ := pure_ok h
    refine .hidden found (fun shows => ?_) noted
    have isDimension := List.contains_iff_mem.2 shows.isDimension
    simp only [isDimension, Bool.not_true, Bool.false_or, Bool.and_eq_true,
      List.isEmpty_iff] at out
    exact shows.lists.elim (· out.1) (· out.2)
  · rename_i inside
    obtain ⟨dimension, s₂, named, h⟩ := bind_ok h
    obtain ⟨_, _, got, h⟩ := bind_ok h
    obtain ⟨rfl, rfl⟩ := get_ok got
    obtain ⟨_, s₃, noted', h⟩ := bind_ok h
    obtain ⟨rfl, rfl⟩ := pure_ok h
    simp only [Bool.or_eq_true, Bool.not_eq_true', Bool.and_eq_true, List.isEmpty_iff, not_or,
      Bool.not_eq_false, not_and_or] at inside
    exact .shown ⟨found, List.contains_iff_mem.1 inside.1, inside.2⟩ noted named noted'

theorem addPerspectiveTable_ok {perspective : String} {content content' : PerspectiveContent}
    {entry : PerspectiveTable}
    (complete : ∀ t ∈ source.model.tables, t.name ∈ s.tables.dimension → HasDimension s t.name)
    (h : (addPerspectiveTable source perspective content entry).run s = .ok (content', s')) :
    Moves source phase s s' ∧ (s'.names.exhausted = [] → Sound source s → Listed s content →
      Listed s' content') := by
  have metrics {t : Table} (sound : Sound source s) (listed : Listed s content) :
      ∀ m ∈ listedMetrics s.measures.resolved t entry.measures content.metrics,
        m ∈ s.output.measureNames :=
    listedMetrics_subset (fun e he => (sound.resolved e he).1) listed.metrics
  cases adding_of_addPerspectiveTable h with
  | unknown missing noted =>
    have moves : Moves source phase s s' := log_moves noted
    exact ⟨moves, fun _ _ listed => listed.mono moves.extension.toGrows⟩
  | hidden found out noted =>
    have moves : Moves source phase s s' := log_moves noted
    exact ⟨moves, fun _ sound listed =>
      Listed.mono ⟨metrics sound listed, listed.dimensions⟩ moves.extension.toGrows⟩
  | @shown t dimension _ _ s₁ s₂ _ shows noted named noted' =>
    have first : Moves source phase s s₁ := log_moves noted
    have second : Moves source phase s s₂ := first.trans (dimensionName_moves named)
    have last : Moves source phase s₂ s' := log_moves noted'
    refine ⟨second.trans last, fun fresh sound listed => Listed.mono ?_ last.extension.toGrows⟩
    have known := listed.mono second.extension.toGrows
    have mid := second.sound (last.extension.names.exhausted fresh) sound
    have answer := (dimensionName_answered named).known
    have member := Tabular.Model.mem_of_table? shows.found
    -- The dimension of the table and the one with the listed hierarchies have one identifier.
    obtain ⟨d, hd, key⟩ := (complete t member shows.isDimension).mono second.extension.toGrows
    have same : d.uniqueName = dimension := Option.some.inj (key.symm.trans answer)
    have distinct := mid.distinct.dimensions
    refine ⟨fun m hm => second.extension.measureNames (metrics sound listed m hm), ?_⟩
    refine lists_insert distinct known.dimensions hd same fun h hh => ?_
    obtain ⟨label, -, listed⟩ := List.mem_filterMap.1 hh
    obtain ⟨d', hd', key', inside⟩ := mid.indexed.hierarchies t member label h listed
    have twin : d.uniqueName = d'.uniqueName := Option.some.inj (key.symm.trans key')
    obtain rfl := List.inj_on_of_nodup_map distinct hd hd' twin
    exact inside

/-- A perspective is made of its entries and of what is nested in the dimensions that they show. -/
theorem resolvePerspective_steps {p : Tabular.Perspective}
    (h : (resolvePerspective source p).run s = .ok (u, s')) :
    ∃ content s₁ dimensions name s₂,
      (p.tables.foldlM (addPerspectiveTable source p.name) {}).run s = .ok (content, s₁) ∧
      withNestedDimensions (.ofDimensions s₁.output.dimensions)
        source.settings.relationships.maxDepth content.dimensions = .ok dimensions ∧
      (uniqueName {
        candidate := p.name, key := Key.perspective p.name, kind := .perspective }).run s₁ =
          .ok (name, s₂) ∧
      (store (·.addPerspective ⟨name, p.name, content.metrics, dimensions⟩)).run s₂ =
        .ok (u, s') := by
  obtain ⟨content, s₁, folded, h⟩ := bind_ok h
  obtain ⟨_, _, got, h⟩ := bind_ok h
  obtain ⟨rfl, rfl⟩ := get_ok got
  obtain ⟨dimensions, _, lifted, h⟩ := bind_ok h
  obtain ⟨nested, rfl⟩ := lift_ok lifted
  obtain ⟨name, s₂, named, stored⟩ := bind_ok h
  exact ⟨content, s₁, dimensions, name, s₂, folded, nested, named, stored⟩

theorem resolvePerspective_moves {p : Tabular.Perspective}
    (complete : ∀ t ∈ source.model.tables, t.name ∈ s.tables.dimension → HasDimension s t.name)
    (h : (resolvePerspective source p).run s = .ok (u, s')) : Moves source phase s s' := by
  obtain ⟨content, s₁, dimensions, name, s₂, folded, nested, named, stored⟩ :=
    resolvePerspective_steps h
  let P (content : PerspectiveContent) (s' : State) : Prop := Moves source phase s s' ∧
    (s'.names.exhausted = [] → Sound source s → Listed s' content)
  have start : P {} s := ⟨.refl _ _ _, fun _ _ => ⟨(fun _ h => nomatch h), fun _ h => nomatch h⟩⟩
  have filled : P content s₁ := by
    refine foldlM_ok (P := P) start (fun entry _ content s₃ content' s₄ turn before => ?_) folded
    obtain ⟨moves, listed⟩ := addPerspectiveTable_ok
      (fun t ht isDimension => (complete t ht (before.1.extension.tables ▸ isDimension)).mono
        before.1.extension.toGrows) turn
    refine ⟨before.1.trans moves, fun fresh sound => ?_⟩
    have earlier := moves.extension.names.exhausted fresh
    exact listed fresh (before.1.sound earlier sound) (before.2 earlier sound)
  obtain ⟨moves, listed⟩ := filled
  have kind := Key.word_perspective p.name
  have answer : Answered (Key.perspective p.name) name s₁ s₂ :=
    uniqueName_answered named fun _ h => nomatch h
  have asked : Moves source phase s₁ s₂ :=
    answer.moves (by rw [kind]; decide) (by rw [kind]; decide)
  refine (moves.trans asked).addPerspective stored fun fresh sound _ => ?_
  have earlier := asked.extension.names.exhausted fresh
  have known := listed earlier sound
  exact {
    key := ⟨_, kind, answer.known⟩
    metrics := fun m hm => asked.extension.measureNames (known.metrics m hm)
    dimensions := fun q hq => (withNestedDimensions_lists (moves.sound earlier sound)
      known.dimensions nested q hq).mono asked.extension.toGrows }

theorem resolvePerspectives_moves
    (complete : ∀ t ∈ source.model.tables, t.name ∈ s.tables.dimension → HasDimension s t.name)
    (h : (resolvePerspectives source).run s = .ok (u, s')) : Moves source phase s s' := by
  obtain ⟨_, s₁, loop, h⟩ := bind_ok h
  obtain ⟨-, rfl⟩ := pure_ok h
  refine forIn_ok (P := Moves source phase s) (.refl _ _ _) (fun p _ s₂ s₃ _ turn before => ?_) loop
  obtain ⟨_, s₄, resolved, turn⟩ := bind_ok turn
  obtain ⟨-, rfl⟩ := pure_ok turn
  exact before.trans (resolvePerspective_moves (fun t ht isDimension =>
    (complete t ht (before.extension.tables ▸ isDimension)).mono before.extension.toGrows) resolved)

end SemanticLayer.Conversion
