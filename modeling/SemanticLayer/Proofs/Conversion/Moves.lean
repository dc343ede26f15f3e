import SemanticLayer.Proofs.Conversion.Provenance

set_option autoImplicit false

namespace SemanticLayer.Conversion

open Identifier (Registry Request)
open Identifier
open Output (withJoin)

variable {source : Source} {phase : Phase} {s s' : State} {u : Unit}

def Quiet (s s' : State) : Prop :=
  ∀ key name, s'.names.lookup key = some name → s.names.lookup key = some name ∨
    Key.word key ≠ "level" ∧ Key.word key ≠ "hierarchy"

theorem Indexed.mono (h : Indexed source s) (grows : Grows s s') (quiet : Quiet s s') :
    Indexed source s' where
  levels t ht column name known := by
    rcases quiet _ _ known with old | ⟨other, -⟩
    · obtain ⟨d, hd, key, level⟩ := h.levels t ht column name old
      obtain ⟨d', hd', same⟩ := grows.dimensions d hd
      exact ⟨d', hd', same.1 ▸ grows.names.lookup key, same.2.2.2 ▸ level⟩
    · exact absurd (Key.word_level t.name column) other
  hierarchies t ht label name known := by
    rcases quiet _ _ known with old | ⟨-, other⟩
    · obtain ⟨d, hd, key, hierarchy⟩ := h.hierarchies t ht label name old
      obtain ⟨d', hd', same⟩ := grows.dimensions d hd
      exact ⟨d', hd', same.1 ▸ grows.names.lookup key, same.2.2.1 ▸ hierarchy⟩
    · exact absurd (Key.word_hierarchy t.name label) other

/-- Growth that keeps a result sound, unless identifiers have run out. -/
structure Moves (source : Source) (phase : Phase) (s s' : State) : Prop where
  extension : Extends phase s s'
  sound : s'.names.exhausted = [] → Sound source s → Sound source s'

theorem Moves.refl (source : Source) (phase : Phase) (s : State) : Moves source phase s s :=
  ⟨.refl phase s, fun _ => id⟩

theorem Moves.trans {s'' : State} (h : Moves source phase s s') (h' : Moves source phase s' s'') :
    Moves source phase s s'' :=
  ⟨h.extension.trans h'.extension, fun fresh sound =>
    h'.sound fresh (h.sound (h'.extension.names.exhausted fresh) sound)⟩

instance : IsPreorder State (Moves source phase) where
  refl := .refl source phase
  trans _ _ _ := .trans

/-- Whatever is new in a result is where it should come from. -/
structure Additions (source : Source) (s s' : State) : Prop where
  connections : ∀ c ∈ s'.output.connections, c ∈ s.output.connections ∨
    ∃ key, Key.word key = "connection" ∧ s'.names.lookup key = some c.uniqueName := by
      exact fun _ h => Or.inl h
  datasets : ∀ d ∈ s'.output.datasets, d ∈ s.output.datasets ∨
    DatasetOf source s'.names d := by exact fun _ h => Or.inl h
  metrics : ∀ m ∈ s'.output.metrics, m ∈ s.output.metrics ∨ MetricOf source s' m := by
    exact fun _ h => Or.inl h
  origins : ∀ m ∈ s'.output.metrics, m ∈ s.output.metrics ∨
    MetricOrigin source s'.names s'.measures.helpers m := by exact fun _ h => Or.inl h
  metricCalcs : ∀ e ∈ s'.output.metricCalcs, e ∈ s.output.metricCalcs ∨
    ∃ t m, MeasureImage source s'.names t m e.uniqueName e.label := by exact fun _ h => Or.inl h
  dimensions : ∀ d' ∈ s'.output.dimensions, (∃ d ∈ s.output.dimensions, d.SameShape d') ∨
    ∃ t, DimensionFor source s' t d' := by exact fun d h => Or.inl ⟨d, h, .refl d⟩
  joins : ∀ r ∈ s'.output.allJoins, r ∈ s.output.allJoins ∨ JoinOf source s' r := by
    exact fun _ h => Or.inl h
  perspectives : ∀ p ∈ s'.output.perspectives, p ∈ s.output.perspectives ∨
    PerspectiveOf s' p := by exact fun _ h => Or.inl h
  aggregates : ∀ e ∈ s'.measures.aggregates, e ∈ s.measures.aggregates ∨
    Recalled source s' e := by exact fun _ h => Or.inl h
  shared : ∀ m ∈ s'.output.metrics, m ∈ s.output.metrics ∨
    (∃ t e, MeasureImage source s'.names t e m.uniqueName m.label) ∨
      ∃ a, AggregateOf source s' a m := by exact fun _ h => Or.inl h
  resolved : ∀ e ∈ s'.measures.resolved, e ∈ s.measures.resolved ∨
    e.2 ∈ s'.output.measureNames ∧ s'.names.lookup e.1 = some e.2 := by
      exact fun _ h => Or.inl h
  backing : ∀ e ∈ s'.measures.metricTables, e ∈ s.measures.metricTables ∨
    ∃ t ∈ source.model.tables, t.name = e.2 := by exact fun _ h => Or.inl h
  distinct : s.output.Distinct → s'.output.Distinct := by exact id

theorem Sound.extend (sound : Sound source s) (grows : Grows s s')
    (new : Additions source s s') (indexed : Indexed source s') : Sound source s' where
  registry := grows.names.apart sound.registry
  indexed := indexed
  connections c hc := by
    rcases new.connections c hc with old | made
    · obtain ⟨key, kind, known⟩ := sound.connections c old
      exact ⟨key, kind, grows.names.lookup known⟩
    · exact made
  datasets d hd := (new.datasets d hd).elim (fun old => (sound.datasets d old).mono grows) id
  metrics m hm := (new.metrics m hm).elim (fun old => (sound.metrics m old).mono grows) id
  origins m hm := (new.origins m hm).elim
    (fun old => (sound.origins m old).mono grows.names grows.helpers) id
  metricCalcs e he := by
    rcases new.metricCalcs e he with old | made
    · obtain ⟨t, m, image⟩ := sound.metricCalcs e old
      exact ⟨t, m, image.mono grows.names⟩
    · exact made
  dimensions d' hd' := by
    rcases new.dimensions d' hd' with ⟨d, hd, same⟩ | made
    · obtain ⟨t, known⟩ := sound.dimensions d hd
      exact ⟨t, known.mono grows same⟩
    · exact made
  joins r hr := (new.joins r hr).elim (fun old => (sound.joins r old).mono grows) id
  perspectives p hp :=
    (new.perspectives p hp).elim (fun old => (sound.perspectives p old).mono grows) id
  aggregates e he := (new.aggregates e he).elim (fun old => (sound.aggregates e old).mono grows) id
  shared m hm := by
    rcases new.shared m hm with old | made
    · rcases sound.shared m old with ⟨t, e, image⟩ | ⟨a, known⟩
      · exact Or.inl ⟨t, e, image.mono grows.names⟩
      · exact Or.inr ⟨a, known.mono grows (.refl m)⟩
    · exact made
  resolved e he := (new.resolved e he).elim
    (fun old => (sound.resolved e old).imp (grows.measureNames ·) grows.names.lookup) id
  backing e he := (new.backing e he).elim (sound.backing e) id
  distinct := new.distinct sound.distinct

theorem Moves.add {s₁ : State} (before : Moves source phase s s₁) (ext : Extends phase s₁ s')
    (new : s'.names.exhausted = [] → Sound source s → Sound source s₁ → Additions source s₁ s')
    (quiet : Quiet s₁ s') : Moves source phase s s' := by
  refine ⟨before.extension.trans ext, fun fresh sound => ?_⟩
  have mid := before.sound (ext.names.exhausted fresh) sound
  exact mid.extend ext.toGrows (new fresh sound mid) (mid.indexed.mono ext.toGrows quiet)

theorem Moves.of_additions (ext : Extends phase s s') (new : Additions source s s')
    (quiet : Quiet s s') : Moves source phase s s' :=
  (Moves.refl source phase s).add ext (fun _ _ _ => new) quiet

theorem OnlyNames.additions (h : OnlyNames s s') : Additions source s s' where
  connections _ hc := Or.inl (h.output ▸ hc)
  datasets _ hd := Or.inl (h.output ▸ hd)
  metrics _ hm := Or.inl (h.output ▸ hm)
  origins _ hm := Or.inl (h.output ▸ hm)
  metricCalcs _ he := Or.inl (h.output ▸ he)
  dimensions d hd := Or.inl ⟨d, h.output ▸ hd, .refl d⟩
  joins _ hr := Or.inl (h.output ▸ hr)
  perspectives _ hp := Or.inl (h.output ▸ hp)
  aggregates _ he := Or.inl (h.measures ▸ he)
  shared _ hm := Or.inl (h.output ▸ hm)
  resolved _ he := Or.inl (h.measures ▸ he)
  backing _ he := Or.inl (h.measures ▸ he)
  distinct distinct := h.output ▸ distinct

theorem OnlyNames.before_additions {s₁ : State} (h : OnlyNames s s₁)
    (new : Additions source s₁ s') : Additions source s s' where
  connections c hc := h.output ▸ new.connections c hc
  datasets d hd := h.output ▸ new.datasets d hd
  metrics m hm := h.output ▸ new.metrics m hm
  origins m hm := h.output ▸ new.origins m hm
  metricCalcs e he := h.output ▸ new.metricCalcs e he
  dimensions d hd := h.output ▸ new.dimensions d hd
  joins r hr := h.output ▸ new.joins r hr
  perspectives p hp := h.output ▸ new.perspectives p hp
  aggregates e he := h.measures ▸ new.aggregates e he
  shared m hm := h.output ▸ new.shared m hm
  resolved e he := h.measures ▸ new.resolved e he
  backing e he := h.measures ▸ new.backing e he
  distinct := h.output ▸ new.distinct

theorem Quiet.of_eq (h : s'.names = s.names) : Quiet s s' :=
  fun _ _ known => Or.inl (h ▸ known)

theorem Quiet.trans {s'' : State} (h : Quiet s s') (h' : Quiet s' s'') : Quiet s s'' := by
  intro key name known
  rcases h' key name known with old | other
  · exact h key name old
  · exact Or.inr other

/-- A step that only answers for a key. -/
structure Answered (key name : String) (s s' : State) : Prop extends OnlyNames s s' where
  known : s'.names.lookup key = some name
  others : ∀ k n, s'.names.lookup k = some n → k = key ∨ s.names.lookup k = some n

theorem Answered.quiet {key name : String} (h : Answered key name s s')
    (level : Key.word key ≠ "level") (hierarchy : Key.word key ≠ "hierarchy") : Quiet s s' := by
  intro k n known
  rcases h.others k n known with rfl | old
  · exact Or.inr ⟨level, hierarchy⟩
  · exact Or.inl old

theorem Answered.moves {key name : String} (h : Answered key name s s')
    (level : Key.word key ≠ "level") (hierarchy : Key.word key ≠ "hierarchy") :
    Moves source phase s s' :=
  .of_additions (h.extends phase) h.toOnlyNames.additions (h.quiet level hierarchy)

theorem uniqueName_answered {q : Request} {name : String}
    (h : (uniqueName q).run s = .ok (name, s'))
    (suffix : ∀ suffix ∈ q.suffix, Identifier.IsWord suffix) : Answered q.key name s s' := by
  obtain ⟨rfl, rfl⟩ := uniqueName_ok h
  refine ⟨⟨.allocate .refl q suffix, rfl, rfl, rfl⟩, Registry.lookup_allocate_key s.names q, ?_⟩
  intro k n known
  change (s.names.allocate q).2.lookup k = some n at known
  rw [Registry.lookup_allocate] at known
  split at known
  · rename_i same
    exact Or.inl same
  · exact Or.inr known

theorem datasetName_answered {table name : String}
    (h : (datasetName table).run s = .ok (name, s')) :
    Answered (Key.dataset table) name s s' :=
  uniqueName_answered h fun _ h => nomatch h

theorem datasetName_moves {table name : String}
    (h : (datasetName table).run s = .ok (name, s')) : Moves source phase s s' := by
  have kind := Key.word_dataset table
  exact (datasetName_answered h).moves (by rw [kind]; decide) (by rw [kind]; decide)

theorem dimensionName_answered {table name : String}
    (h : (dimensionName table).run s = .ok (name, s')) :
    Answered (Key.dimension table) name s s' :=
  uniqueName_answered h fun _ h => nomatch h

theorem dimensionName_moves {table name : String}
    (h : (dimensionName table).run s = .ok (name, s')) : Moves source phase s s' := by
  have kind := Key.word_dimension table
  exact (dimensionName_answered h).moves (by rw [kind]; decide) (by rw [kind]; decide)

theorem log_onlyNames {entries : List Diagnostic} (h : (log entries).run s = .ok (u, s')) :
    OnlyNames s s' ∧ s'.names = s.names := by
  obtain rfl := log_ok h
  exact ⟨⟨.refl, rfl, rfl, rfl⟩, rfl⟩

theorem log_moves {entries : List Diagnostic} (h : (log entries).run s = .ok (u, s')) :
    Moves source phase s s' := by
  obtain ⟨only, names⟩ := log_onlyNames h
  exact .of_additions (only.extends phase) only.additions (.of_eq names)

theorem Extends.of_output {o : Output} (datasets : s.output.datasets ⊆ o.datasets)
    (dimensions : ∀ d ∈ s.output.dimensions, ∃ d' ∈ o.dimensions, d.SameShape d')
    (metrics : o.metrics.map (·.uniqueName) = s.output.metrics.map (·.uniqueName))
    (metricCalcs : o.metricCalcs = s.output.metricCalcs)
    (kept : ∀ m ∈ s.output.metrics, ∃ m' ∈ o.metrics, m.SameShape m' := by
      exact fun m hm => ⟨m, hm, .refl m⟩) :
    Extends phase s { s with output := o } where
  names := .refl
  tables := rfl
  datasets := datasets
  dimensions := dimensions
  metrics := kept
  measureNames := by
    rw [Output.measureNames, Output.measureNames, metrics, metricCalcs]
    exact List.Subset.refl _
  metricTables := List.Subset.refl _
  helpers := List.Subset.refl _
  aggregates _ _ known := known
  resolved _ known := known
  newMetrics _ found := Or.inl (metrics ▸ found)
  newCalcs _ found := Or.inl (metricCalcs ▸ found)
  newTables _ _ found := Or.inl found

theorem addConnection_moves {c : Connection} (h : (store (·.addConnection c)).run s = .ok (u, s'))
    (made : ∃ key, Key.word key = "connection" ∧ s.names.lookup key = some c.uniqueName) :
    Moves source phase s s' := by
  obtain ⟨o, added, rfl⟩ := store_ok h
  obtain ⟨rfl, distinct⟩ := Output.addConnection_ok added
  refine .of_additions (.of_output (List.Subset.refl _) (fun d hd => ⟨d, hd, .refl d⟩) rfl rfl) {
    connections := fun e he => (List.mem_append.1 he).imp_right fun new => ?_
    distinct } (.of_eq rfl)
  rwa [List.mem_singleton.1 new]

theorem addDataset_moves {d : Dataset} (h : (store (·.addDataset d)).run s = .ok (u, s'))
    (made : DatasetOf source s.names d) :
    Moves source phase s s' ∧ d ∈ s'.output.datasets ∧ s'.names = s.names ∧
      s'.measures = s.measures := by
  obtain ⟨o, added, rfl⟩ := store_ok h
  obtain ⟨rfl, distinct⟩ := Output.addDataset_ok added
  refine ⟨.of_additions (.of_output (List.subset_append_left _ _)
    (fun d hd => ⟨d, hd, .refl d⟩) rfl rfl) {
      datasets := fun e he => (List.mem_append.1 he).imp_right fun new => ?_
      distinct } (.of_eq rfl), List.mem_append_right _ (List.mem_singleton_self d), rfl, rfl⟩
  rwa [List.mem_singleton.1 new]

theorem Moves.addJoin {s₁ : State} {r : Relationship} (before : Moves source phase s s₁)
    (h : (store (·.addJoin r)).run s₁ = .ok (u, s'))
    (made : s₁.names.exhausted = [] → Sound source s → Sound source s₁ → JoinOf source s₁ r) :
    Moves source phase s s' := by
  obtain ⟨o, added, rfl⟩ := store_ok h
  obtain ⟨rfl, distinct⟩ := Output.addJoin_ok added
  have ext : Extends phase s₁
      { s₁ with output := { s₁.output with relationshipMap := s₁.output.relationshipMap.insert r } } :=
    .of_output (List.Subset.refl _) (fun d hd => ⟨d, hd, .refl d⟩) rfl rfl
  refine before.add ext (fun fresh sound mid => {
    joins := fun q hq => ?_
    distinct }) (.of_eq rfl)
  rcases List.mem_append.1 hq with own | nested
  · rcases List.mem_append.1 own with old | new
    · exact Or.inl (List.mem_append_left _ old)
    · rw [List.mem_singleton.1 new]
      exact Or.inr ((made fresh sound mid).mono ext.toGrows)
  · exact Or.inl (List.mem_append_right _ nested)

theorem Moves.addNestedJoin {s₁ : State} {owner : String} {r : Relationship}
    (before : Moves source phase s s₁)
    (h : (store (·.addNestedJoin owner r)).run s₁ = .ok (u, s'))
    (made : s₁.names.exhausted = [] → Sound source s → Sound source s₁ → JoinOf source s₁ r) :
    Moves source phase s s' := by
  obtain ⟨o, added, rfl⟩ := store_ok h
  obtain ⟨rfl, -, distinct⟩ := Output.addNestedJoin_ok added
  have ext : Extends phase s₁ { s₁ with output := s₁.output.nest owner r } :=
    .of_output (List.Subset.refl _) (fun d hd => ⟨withJoin owner r d, List.mem_map_of_mem hd,
      Output.withJoin_shape owner r d⟩) rfl rfl
  refine before.add ext (fun fresh sound mid => {
    dimensions := fun d' hd' => ?_
    joins := fun q hq => ?_
    distinct }) (.of_eq rfl)
  · obtain ⟨d, hd, rfl⟩ := List.mem_map.1 hd'
    exact Or.inl ⟨d, hd, Output.withJoin_shape owner r d⟩
  · rcases List.mem_append.1 hq with own | nested
    · exact Or.inl (List.mem_append_left _ own)
    · obtain ⟨d', hd', inside⟩ := List.mem_flatMap.1 nested
      obtain ⟨d, hd, rfl⟩ := List.mem_map.1 hd'
      have old (h : q ∈ d.relationships) : q ∈ s₁.output.allJoins :=
        List.mem_append_right _ (List.mem_flatMap.2 ⟨d, hd, h⟩)
      unfold withJoin at inside
      split at inside
      · rcases List.mem_append.1 inside with known | new
        · exact Or.inl (old known)
        · rw [List.mem_singleton.1 new]
          exact Or.inr ((made fresh sound mid).mono ext.toGrows)
      · exact Or.inl (old inside)

theorem Moves.addPerspective {s₁ : State} {p : Perspective} (before : Moves source phase s s₁)
    (h : (store (·.addPerspective p)).run s₁ = .ok (u, s'))
    (made : s₁.names.exhausted = [] → Sound source s → Sound source s₁ → PerspectiveOf s₁ p) :
    Moves source phase s s' := by
  obtain ⟨o, added, rfl⟩ := store_ok h
  obtain ⟨rfl, distinct⟩ := Output.addPerspective_ok added
  have ext : Extends phase s₁
      { s₁ with output := { s₁.output with perspectiveMap := s₁.output.perspectiveMap.insert p } } :=
    .of_output (List.Subset.refl _) (fun d hd => ⟨d, hd, .refl d⟩) rfl rfl
  refine before.add ext (fun fresh sound mid => {
    perspectives := fun q hq => (List.mem_append.1 hq).imp_right fun new => ?_
    distinct }) (.of_eq rfl)
  rw [List.mem_singleton.1 new]
  exact (made fresh sound mid).mono ext.toGrows

end SemanticLayer.Conversion
