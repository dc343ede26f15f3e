import SemanticLayer.Proofs.Conversion.Closed

set_option autoImplicit false

namespace SemanticLayer

open Text (lower)

def Dimension.hierarchyNames (d : Dimension) : List String := d.hierarchies.map (·.uniqueName)

def Dimension.levelNames (d : Dimension) : List String := d.levelAttributes.map (·.uniqueName)

def Dimension.secondaryNames (d : Dimension) : List String :=
  d.secondaryAttributes.map (·.uniqueName)

namespace Conversion

open Identifier
open Tabular (Database Table)

def identifiers (c : Conversion) : List String :=
  [c.catalog.uniqueName] ++ c.models.map (·.uniqueName) ++ c.connections.map (·.uniqueName) ++
    c.datasetNames ++ c.measureNames ++ c.dimensionNames ++
    c.dimensions.flatMap (·.hierarchyNames) ++ c.dimensions.flatMap (·.levelNames) ++
    c.dimensions.flatMap (·.secondaryNames) ++ c.joins.map (·.uniqueName) ++
    c.models.flatMap fun m => m.perspectives.map (·.uniqueName)

structure Named (names : Registry) (kind : String → Prop) (identifiers : List String) : Prop where
  answers : ∀ name ∈ identifiers, ∃ key, kind key ∧ names.lookup key = some name
  distinct : (identifiers.map lower).Nodup

section Named

variable {names : Registry} {kind kind' : String → Prop} {identifiers more : List String}

theorem Named.of_nodup (apart : names.Apart) (fresh : names.exhausted = [])
    (answers : ∀ name ∈ identifiers, ∃ key, kind key ∧ names.lookup key = some name)
    (distinct : identifiers.Nodup) : Named names kind identifiers where
  answers := answers
  distinct := by
    refine distinct.map_on fun a ha b hb same => ?_
    obtain ⟨key, -, known⟩ := answers a ha
    obtain ⟨key', -, known'⟩ := answers b hb
    obtain rfl := Registry.key_eq_of_lookup apart fresh known known' same
    exact Option.some.inj (known.symm.trans known')

theorem Named.singleton {key name : String} (known : names.lookup key = some name)
    (h : kind key) : Named names kind [name] where
  answers n hn := ⟨key, h, by rwa [List.mem_singleton.1 hn]⟩
  distinct := List.nodup_singleton _

theorem Named.append (apart : names.Apart) (fresh : names.exhausted = [])
    (h : Named names kind identifiers) (h' : Named names kind' more)
    (other : ∀ key, kind key → ¬kind' key) :
    Named names (fun key => kind key ∨ kind' key) (identifiers ++ more) where
  answers name hn := by
    rcases List.mem_append.1 hn with first | second
    · obtain ⟨key, hk, known⟩ := h.answers name first
      exact ⟨key, Or.inl hk, known⟩
    · obtain ⟨key, hk, known⟩ := h'.answers name second
      exact ⟨key, Or.inr hk, known⟩
  distinct := by
    rw [List.map_append]
    -- Answers that are equal up to case answer the same key, and no key is of both kinds.
    refine h.distinct.append h'.distinct fun folded first second => ?_
    obtain ⟨a, ha, rfl⟩ := List.mem_map.1 first
    obtain ⟨b, hb, same⟩ := List.mem_map.1 second
    obtain ⟨key, hk, known⟩ := h.answers a ha
    obtain ⟨key', hk', known'⟩ := h'.answers b hb
    obtain rfl := Registry.key_eq_of_lookup apart fresh known known' same.symm
    exact other _ hk hk'

theorem Named.flatten (apart : names.Apart) (fresh : names.exhausted = [])
    {words parts : List (List String)}
    (h : List.Forall₂ (fun ws part => Named names (Key.word · ∈ ws) part) words parts)
    (distinct : words.flatten.Nodup) :
    Named names (Key.word · ∈ words.flatten) parts.flatten := by
  induction h with
  | nil => exact ⟨fun _ h => (List.not_mem_nil h).elim, List.nodup_nil⟩
  | cons first _ ih =>
    rw [List.flatten_cons] at distinct
    have both := first.append apart fresh (ih distinct.of_append_right) fun key here later =>
      (List.disjoint_of_nodup_append distinct) here later
    refine ⟨fun name hn => ?_, both.distinct⟩
    obtain ⟨key, kind, known⟩ := both.answers name hn
    exact ⟨key, List.mem_append.2 kind, known⟩

end Named

variable {source : Source} {s : State}

/-- Parts of dimensions under keys of their tables, each with a label of its own in its table. -/
theorem Sound.named_parts {A : Type} {items : Dimension → List A} {name label : A → String}
    {key : String → String → String} {word : String} (sound : Sound source s)
    (fresh : s.names.exhausted = []) (apart : source.model.TablesApart)
    (kind : ∀ table label, Key.word (key table label) = word)
    (inj : ∀ {a b c d : String}, Key.Plain a → Key.Plain c → key a b = key c d →
      lower a = lower c ∧ lower b = lower d)
    (known : ∀ t d, DimensionFor source s t d → ∀ a ∈ items d,
      s.names.lookup (key t.name (label a)) = some (name a))
    (labels : ∀ t d, DimensionFor source s t d → ((items d).map fun a => lower (label a)).Nodup) :
    Named s.names (Key.word · ∈ [word])
      (s.output.dimensions.flatMap fun d => (items d).map name) := by
  have keys {t t' : Table} {d d' : Dimension} (made : DimensionFor source s t d)
      (made' : DimensionFor source s t' d') {a a' : A} (ha : a ∈ items d) (ha' : a' ∈ items d')
      (same : name a = name a') : t = t' ∧ lower (label a) = lower (label a') := by
    have twin := Registry.key_eq_of_lookup sound.registry fresh (known t d made a ha)
      (known t' d' made' a' ha') (congrArg lower same)
    obtain ⟨table, inner⟩ := inj (apart.plain t made.mem) (apart.plain t' made'.mem) twin
    exact ⟨apart.eq_of_lower made.mem made'.mem table, inner⟩
  refine .of_nodup sound.registry fresh (fun n hn => ?_) ?_
  · obtain ⟨d, hd, inside⟩ := List.mem_flatMap.1 hn
    obtain ⟨a, ha, rfl⟩ := List.mem_map.1 inside
    obtain ⟨t, made⟩ := sound.dimensions d hd
    exact ⟨_, List.mem_singleton.2 (kind _ _), known t d made a ha⟩
  -- Within a dimension the labels tell parts apart, between dimensions the tables do.
  · refine List.nodup_flatMap.2 ⟨fun d hd => ?_, ?_⟩
    · obtain ⟨t, made⟩ := sound.dimensions d hd
      have inner := List.pairwise_map.1 (labels t d made)
      refine List.pairwise_map.2 (inner.imp_of_mem fun ha hb differ same => differ ?_)
      exact (keys made made ha hb same).2
    · refine (List.pairwise_map.1 sound.distinct.dimensions).imp_of_mem
        fun {d d'} hd hd' differ n first second => ?_
      obtain ⟨t, made⟩ := sound.dimensions d hd
      obtain ⟨t', made'⟩ := sound.dimensions d' hd'
      obtain ⟨a, ha, rfl⟩ := List.mem_map.1 first
      obtain ⟨a', ha', same⟩ := List.mem_map.1 second
      obtain rfl := (keys made made' ha ha' same.symm).1
      exact differ (Option.some.inj (made.key.symm.trans made'.key))

/-- Metrics belong to aggregations or to measures resolved early, calculated metrics to others. -/
theorem Outcome.named_measures {settings : Settings} {database : Database} {catalog : Catalog}
    {m : Model} (outcome : Outcome source settings database catalog m s)
    (fresh : s.names.exhausted = []) :
    Named s.names (Key.word · ∈ ["aggregate", "measure"]) s.output.measureNames := by
  have registry := (outcome.sound fresh).registry
  have distinct := (outcome.sound fresh).distinct
  -- Metrics and calculated metrics share the keys of measures. `early` is the set of those that
  -- were resolved before any calculated metric, and it keeps them apart.
  obtain ⟨early, metrics, computed⟩ := outcome.keys
  have first : Named s.names (fun key => Key.word key = "aggregate" ∨
      Key.word key = "measure" ∧ early key) (s.output.metrics.map (·.uniqueName)) :=
    .of_nodup registry fresh (fun name hn => by
      obtain ⟨key, known, kind⟩ := metrics name hn
      exact ⟨key, kind, known⟩) distinct.metrics
  have second : Named s.names (fun key => Key.word key = "measure" ∧ ¬early key)
      (s.output.metricCalcs.map (·.uniqueName)) :=
    .of_nodup registry fresh (fun name hn => by
      obtain ⟨key, known, kind⟩ := computed name hn
      exact ⟨key, kind, known⟩) distinct.metricCalcs
  have both := first.append registry fresh second fun key known late => by
    rcases known with kind | ⟨-, soon⟩
    · rw [kind] at late
      exact absurd late.1 (by decide)
    · exact late.2 soon
  refine ⟨fun name hn => ?_, both.distinct⟩
  obtain ⟨key, (kind | ⟨kind, -⟩) | ⟨kind, -⟩, known⟩ := both.answers name hn
  · exact ⟨key, by simp [kind], known⟩
  · exact ⟨key, by simp [kind], known⟩
  · exact ⟨key, by simp [kind], known⟩

theorem Outcome.named_identifiers [Sql.Parser] {settings : Settings} {database : Database}
    {catalog : Catalog}
    {m : Model} (outcome : Outcome source settings database catalog m s)
    (fresh : s.names.exhausted = []) (apart : source.model.TablesApart)
    (columns : ∀ t ∈ source.model.tables, t.ColumnsApart)
    (hierarchies : ∀ t ∈ source.model.tables, t.HierarchiesApart) :
    ∃ kind, Named s.names kind (ofOutput catalog m s).identifiers := by
  have sound := outcome.sound fresh
  have registry := sound.registry
  have distinct := sound.distinct
  have single (word : String) {names : List String} (nodup : names.Nodup)
      (answers : ∀ name ∈ names, ∃ key, Key.word key = word ∧ s.names.lookup key = some name) :
      Named s.names (Key.word · ∈ [word]) names :=
    .of_nodup registry fresh (fun name hn => by
      obtain ⟨key, kind, known⟩ := answers name hn
      exact ⟨key, List.mem_singleton.2 kind, known⟩) nodup
  have catalogs : Named s.names (Key.word · ∈ ["catalog"]) [catalog.uniqueName] :=
    .singleton outcome.catalog (List.mem_singleton.2 (Key.word_catalog _))
  have models : Named s.names (Key.word · ∈ ["model"]) [m.uniqueName] := by
    obtain ⟨label, known⟩ := outcome.model.key
    exact .singleton known (List.mem_singleton.2 (Key.word_model label))
  have connections := single "connection" distinct.connections fun name hn => by
    obtain ⟨e, he, rfl⟩ := List.mem_map.1 hn
    exact sound.connections e he
  have datasets := single "dataset" distinct.datasets fun name hn => by
    obtain ⟨d, hd, rfl⟩ := List.mem_map.1 hn
    obtain ⟨t, -, known, -⟩ := sound.datasets d hd
    exact ⟨_, Key.word_dataset t.name, known⟩
  have dimensions := single "dimension" distinct.dimensions fun name hn => by
    obtain ⟨d, hd, rfl⟩ := List.mem_map.1 hn
    obtain ⟨t, made⟩ := sound.dimensions d hd
    exact ⟨_, Key.word_dimension t.name, made.key⟩
  have hierarchyNames : Named s.names (Key.word · ∈ ["hierarchy"])
      (s.output.dimensions.flatMap (·.hierarchyNames)) :=
    sound.named_parts fresh apart Key.word_hierarchy Key.hierarchy_inj
      (fun t d made a ha => (made.hierarchies a ha).key)
      fun t d made => made.hierarchiesApart (hierarchies t made.mem)
  have levelNames : Named s.names (Key.word · ∈ ["level"])
      (s.output.dimensions.flatMap (·.levelNames)) :=
    sound.named_parts fresh apart Key.word_level Key.level_inj
      (fun t d made a ha => (made.levels a ha).key) fun t d made => made.levelsApart
  have secondaryNames : Named s.names (Key.word · ∈ ["attribute"])
      (s.output.dimensions.flatMap (·.secondaryNames)) :=
    sound.named_parts fresh apart Key.word_secondaryAttribute Key.secondaryAttribute_inj
      (fun t d made a ha => (made.secondary a ha).key)
      fun t d made => made.secondaryApart (columns t made.mem)
  have joins := single "relationship" distinct.joins fun name hn => by
    obtain ⟨r, hr, rfl⟩ := List.mem_map.1 hn
    exact (sound.joins r hr).key
  have perspectives := single "perspective" distinct.perspectives fun name hn => by
    obtain ⟨p, hp, rfl⟩ := List.mem_map.1 hn
    exact (sound.perspectives p hp).key
  have all := Named.flatten registry fresh (.cons catalogs <| .cons models <|
    .cons connections <| .cons datasets <| .cons (outcome.named_measures fresh) <|
    .cons dimensions <| .cons hierarchyNames <| .cons levelNames <| .cons secondaryNames <|
    .cons joins <| .cons perspectives .nil) (by decide)
  have found : ∃ kind, Named s.names kind _ := ⟨_, all⟩
  rw [identifiers, outcome.model.joins_ofOutput]
  convert found using 3
  simp [ofOutput, measureNames, Output.measureNames, datasetNames, dimensionNames,
    outcome.model.perspectives]

/-- The identifiers of a conversion differ whatever their case, and they are words that fit. -/
theorem convertWith_identifiers [Sql.Parser] {settings : Settings} {database : Database}
    {connection : String} {c : Conversion} (apart : database.model.TablesApart)
    (columns : ∀ t ∈ database.model.tables, t.ColumnsApart)
    (hierarchies : ∀ t ∈ database.model.tables, t.HierarchiesApart)
    (room : 1 + (toString settings.naming.maxSuffix).length ≤ settings.naming.maxLength)
    (fresh : settings.NeverExhausted database connection)
    (h : convertWith settings database connection = .ok c) :
    (c.identifiers.map lower).Nodup ∧ ∀ name ∈ c.identifiers,
      IsWord name ∧ name ≠ "" ∧ name.length ≤ settings.naming.maxLength := by
  obtain ⟨catalog, m, s, ran, rfl⟩ := convertWith_ok h
  have free := fresh _ s ran
  have outcome := run_ok ⟨database.model, settings⟩ apart ran
  obtain ⟨kind, named⟩ := outcome.named_identifiers free apart columns hierarchies
  refine ⟨named.distinct, fun name hn => ?_⟩
  obtain ⟨key, -, known⟩ := named.answers name hn
  obtain ⟨g, held, -, rfl⟩ := Registry.mem_held_of_lookup free known
  exact outcome.names.valid room (fun _ h => nomatch h) g held

attribute [local instance] Sql.Parser.lenient

theorem convertWith_identifiers_shop : ∃ c, convertWith {} shop "warehouse" = .ok c ∧
    (c.identifiers.map lower).Nodup ∧ ∀ name ∈ c.identifiers,
      IsWord name ∧ name ≠ "" ∧ name.length ≤ 63 :=
  exists_convertWith_shop.imp fun _ h => ⟨h, convertWith_identifiers shop_tablesApart
    (by decide +kernel) (by decide +kernel) (by decide) shop_neverExhausted h⟩

end Conversion

end SemanticLayer
