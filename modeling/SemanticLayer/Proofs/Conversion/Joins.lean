import SemanticLayer.Conversion.Joins
import SemanticLayer.Proofs.Conversion.Datasets
import SemanticLayer.Proofs.Conversion.Dimensions

set_option autoImplicit false

namespace SemanticLayer.Conversion

open Identifier
open Tabular (Table Column)

variable {source : Source} {phase : Phase} {s s' : State} {u : Unit}

theorem joinEnds_ok {model : Tabular.Model} {r : Tabular.Relationship} {ends : JoinEnds}
    (h : joinEnds model r = .ok ends) : ends.fromTable ∈ model.tables ∧
      ends.toTable ∈ model.tables ∧ ends.fromColumn ∈ ends.fromTable.columns := by
  rw [joinEnds] at h
  split at h
  · cases h
  split at h
  · rename_i fromTable toTable first second
    split at h
    · rename_i fromColumn toColumn third fourth
      cases h
      exact ⟨Tabular.Model.mem_of_table? first, Tabular.Model.mem_of_table? second,
        Tabular.Table.mem_of_column? third⟩
    · cases h
  · cases h

section Named

variable {s₁ s₂ : State} {join : JoinSource} {target : JoinTarget} {key name : String}
  (before : Moves source phase s s₁)
  (joins : s₁.names.exhausted = [] → Sound source s → Joins source s₁ join target)
include before joins

theorem named_join (answer : Answered key name s₁ s₂) (kind : Key.word key = "relationship") :
    Moves source phase s s₂ ∧ (s₂.names.exhausted = [] → Sound source s →
      JoinOf source s₂ ⟨name, join, target⟩) := by
  have moves : Moves source phase s₁ s₂ :=
    answer.moves (by rw [kind]; decide) (by rw [kind]; decide)
  refine ⟨before.trans moves, fun fresh sound => ⟨?_, key, kind, answer.known⟩⟩
  exact (joins (answer.names.exhausted fresh) sound).mono moves.extension.toGrows

theorem Moves.nameJoin (answer : Answered key name s₁ s₂) (kind : Key.word key = "relationship")
    (h : (store (·.addJoin ⟨name, join, target⟩)).run s₂ = .ok (u, s')) :
    Moves source phase s s' := by
  obtain ⟨named, made⟩ := named_join before joins answer kind
  exact named.addJoin h fun fresh sound _ => made fresh sound

theorem Moves.nameNestedJoin {s₃ : State} {table owner : String} (answer : Answered key name s₁ s₂)
    (kind : Key.word key = "relationship") (owned : (dimensionName table).run s₂ = .ok (owner, s₃))
    (h : (store (·.addNestedJoin owner ⟨name, join, target⟩)).run s₃ = .ok (u, s')) :
    Moves source phase s s' := by
  obtain ⟨named, made⟩ := named_join before joins answer kind
  have asked : Moves source phase s₂ s₃ := dimensionName_moves owned
  refine (named.trans asked).addNestedJoin h fun fresh sound _ => ?_
  exact (made (asked.extension.names.exhausted fresh) sound).mono asked.extension.toGrows

end Named

theorem storeJoin_moves {ends : JoinEnds} {join : JoinSource} {target : JoinTarget}
    (joins : s.names.exhausted = [] → Sound source s → Joins source s join target)
    (h : (storeJoin ends join target).run s = .ok (u, s')) : Moves source phase s s' := by
  rw [storeJoin_eq] at h
  obtain ⟨_, _, got, h⟩ := bind_ok h
  obtain ⟨rfl, rfl⟩ := get_ok got
  obtain ⟨_, s₁, direct, nested⟩ := bind_ok h
  have first : Moves source phase s s₁ := by
    unfold directJoin at direct
    split at direct
    · obtain ⟨name, s₂, named, stored⟩ := bind_ok direct
      exact (Moves.refl source phase s).nameJoin joins
        (uniqueName_answered named fun _ h => nomatch h) (Key.word_relationship _ _ _ _) stored
    · obtain ⟨-, rfl⟩ := pure_ok direct
      exact .refl _ _ _
  unfold nestedJoin at nested
  split at nested
  · obtain ⟨name, s₂, named, nested⟩ := bind_ok nested
    obtain ⟨owner, s₃, owned, stored⟩ := bind_ok nested
    refine first.nameNestedJoin (fun fresh sound => ?_)
      (uniqueName_answered named fun _ h => nomatch h) (Key.word_embeddedRelationship _ _ _ _)
      owned stored
    exact (joins (first.extension.names.exhausted fresh) sound).mono first.extension.toGrows
  · obtain ⟨-, rfl⟩ := pure_ok nested
    exact first

theorem resolveRelationship_moves {r : Tabular.Relationship}
    (h : (resolveRelationship source r).run s = .ok (u, s')) : Moves source phase s s' := by
  rw [resolveRelationship] at h
  cases ended : joinEnds source.model r with
  | error reason =>
    rw [ended] at h
    exact log_moves h
  | ok ends =>
    obtain ⟨ht, ht', hc⟩ := joinEnds_ok ended
    rw [ended] at h
    obtain ⟨_, _, got, h⟩ := bind_ok h
    obtain ⟨rfl, rfl⟩ := get_ok got
    dsimp only at h
    split at h
    · exact log_moves h
    rename_i level known
    obtain ⟨dimension, s₁, named, h⟩ := bind_ok h
    obtain ⟨dataset, s₂, placed, h⟩ := bind_ok h
    obtain ⟨_, _, got, h⟩ := bind_ok h
    obtain ⟨rfl, rfl⟩ := get_ok got
    have before : Moves source phase s s₂ :=
      (dimensionName_moves named).trans (datasetName_moves placed)
    have place := datasetName_answered placed
    split at h
    · rename_i both
      refine before.trans (storeJoin_moves (fun fresh sound => ?_) h)
      obtain ⟨d, hd, key, inside⟩ := sound.indexed.levels ends.toTable ht' ends.toColumn.name level
        (before.extension.names.lookup known)
      have same := place.names.lookup (dimensionName_answered named).known
      exact {
        columns := ⟨ends.fromTable, ht, place.known, fun c hc' => by
          rw [List.mem_singleton.1 hc']
          exact List.mem_map_of_mem hc⟩
        dataset := by
          obtain ⟨e, he, name⟩ := List.find?_isSome.1 (Bool.and_eq_true_iff.1 both).2
          exact List.mem_map.2 ⟨e, he, eq_of_beq name⟩
        target := ⟨d, hd, Option.some.inj (key.symm.trans same), inside⟩ }
    · exact before.trans (log_moves h)

theorem selfJoinTarget_ok {t : Table} {d : Dimension} {column level : String}
    (sound : Sound source s) (fresh : s.names.exhausted = []) (apart : source.model.TablesApart)
    (ht : t ∈ source.model.tables) (hd : d ∈ s.output.dimensions)
    (key : s.names.lookup (Key.dimension t.name) = some d.uniqueName)
    (h : selfJoinTarget s.names t d = some (column, level)) :
    column ∈ t.columns.map (·.name) ∧ ∃ d' ∈ s.output.dimensions, d'.uniqueName = d.uniqueName ∧
      level ∈ d'.levelAttributes.map (·.uniqueName) := by
  rw [selfJoinTarget] at h
  rcases Option.or_eq_some_iff.1 h with onKey | ⟨-, onLeaf⟩
  · obtain ⟨c, keyed, found⟩ := Option.bind_eq_some_iff.1 onKey
    obtain ⟨name, known, same⟩ := Option.map_eq_some_iff.1 found
    cases same
    obtain ⟨d', hd', key', inside⟩ := sound.indexed.levels t ht c.name _ known
    exact ⟨List.mem_map_of_mem (List.mem_of_find?_eq_some keyed), d', hd',
      Option.some.inj (key'.symm.trans key), inside⟩
  · obtain ⟨k, first, onLeaf⟩ := Option.bind_eq_some_iff.1 onLeaf
    obtain ⟨leaf, last, onLeaf⟩ := Option.bind_eq_some_iff.1 onLeaf
    obtain ⟨keyed, found, onLeaf⟩ := Option.bind_eq_some_iff.1 onLeaf
    obtain ⟨c, head, same⟩ := Option.bind_eq_some_iff.1 onLeaf
    cases same
    have listed : keyed ∈ d.levelAttributes := List.mem_of_find?_eq_some found
    have name : keyed.uniqueName = leaf.uniqueName := eq_of_beq (List.find?_some
      (p := fun a : LevelAttribute => a.uniqueName == leaf.uniqueName) found)
    obtain ⟨t', made⟩ := sound.dimensions d hd
    have table := Registry.key_eq_of_lookup sound.registry fresh key made.key rfl
    obtain rfl := apart.eq_of_lower ht made.mem (Key.dimension_inj table)
    have shape := made.levels keyed listed
    rw [shape.keyColumns] at head
    cases head
    exact ⟨shape.column, d, hd, rfl, name ▸ List.mem_map_of_mem listed⟩

theorem addSelfJoin_moves {table : String} (apart : source.model.TablesApart)
    (based : Based source s table) (h : (addSelfJoin source table).run s = .ok (u, s')) :
    Moves source phase s s' := by
  obtain ⟨_, _, got, h⟩ := bind_ok h
  obtain ⟨rfl, rfl⟩ := get_ok got
  split at h
  · obtain ⟨-, rfl⟩ := pure_ok h
    exact .refl _ _ _
  split at h
  swap
  · obtain ⟨-, rfl⟩ := pure_ok h
    exact .refl _ _ _
  rename_i t found
  obtain ⟨dimension, s₁, named, h⟩ := bind_ok h
  obtain ⟨_, _, got, h⟩ := bind_ok h
  obtain ⟨rfl, rfl⟩ := get_ok got
  have asked : Moves source phase s s₁ := dimensionName_moves named
  split at h
  swap
  · obtain ⟨-, rfl⟩ := pure_ok h
    exact asked
  rename_i d known
  split at h
  · exact asked.trans (log_moves h)
  rename_i column level target
  obtain ⟨dataset, s₂, placed, h⟩ := bind_ok h
  obtain ⟨name, s₃, joined, h⟩ := bind_ok h
  obtain ⟨_, s₄, stored, h⟩ := bind_ok h
  have before : Moves source phase s₁ s₂ := datasetName_moves placed
  have place := datasetName_answered placed
  have answer := uniqueName_answered joined fun _ h => nomatch h
  -- The target was chosen in a dimension of `s₁`; the later ones are known to be of the same shape.
  refine (asked.trans (before.nameJoin (fun fresh sound => ?_) answer
    (Key.word_selfRelationship table) stored)).trans (log_moves h)
  have member := Tabular.Model.mem_of_table? found
  have hd : d ∈ s₁.output.dimensions := List.mem_of_find?_eq_some known
  have same : d.uniqueName = dimension :=
    eq_of_beq (List.find?_some (p := fun e : Dimension => e.uniqueName == dimension) known)
  obtain ⟨inside, d', hd', twin, listed⟩ := selfJoinTarget_ok sound
    (before.extension.names.exhausted fresh) apart member hd
    (same ▸ (dimensionName_answered named).known) target
  obtain ⟨d'', hd'', shape⟩ := before.extension.dimensions d' hd'
  exact {
    columns := ⟨t, member, place.known, fun c hc => by rwa [List.mem_singleton.1 hc]⟩
    dataset := by
      obtain ⟨known, key, made⟩ := (based t found).mono (asked.trans before).extension.toGrows
      rwa [Option.some.inj (key.symm.trans place.known)] at made
    target := ⟨d'', hd'', shape.1.trans (twin.trans same), shape.2.2.2 ▸ listed⟩ }

theorem warnAmbiguousPaths_moves (h : (warnAmbiguousPaths source).run s = .ok (u, s')) :
    Moves source phase s s' := by
  obtain ⟨_, _, got, h⟩ := bind_ok h
  obtain ⟨rfl, rfl⟩ := get_ok got
  obtain ⟨entries, s₁, found, h⟩ := bind_ok h
  obtain ⟨-, rfl⟩ := lift_ok found
  exact log_moves h

theorem resolveRelationships_moves (apart : source.model.TablesApart)
    (based : ∀ name ∈ s.tables.fact, Based source s name)
    (h : (resolveRelationships source).run s = .ok (u, s')) : Moves source phase s s' := by
  obtain ⟨_, s₁, first, h⟩ := bind_ok h
  obtain ⟨_, _, got, h⟩ := bind_ok h
  obtain ⟨rfl, rfl⟩ := get_ok got
  obtain ⟨_, s₂, second, h⟩ := bind_ok h
  have joined : Moves source phase s s₁ := by
    refine forIn_ok (P := Moves source phase s) (.refl _ _ _)
      (fun r _ s₃ s₄ _ turn before => ?_) first
    obtain ⟨_, s₅, resolved, turn⟩ := bind_ok turn
    obtain ⟨-, rfl⟩ := pure_ok turn
    exact before.trans (resolveRelationship_moves resolved)
  have own : Moves source phase s s₂ := by
    refine forIn_ok (P := Moves source phase s) joined (fun name hn s₃ s₄ _ turn before => ?_)
      second
    obtain ⟨_, s₅, added, turn⟩ := bind_ok turn
    obtain ⟨-, rfl⟩ := pure_ok turn
    rw [joined.extension.tables] at hn
    have fact := List.mem_of_mem_filter hn
    exact before.trans
      (addSelfJoin_moves apart ((based name fact).mono before.extension.toGrows) added)
  exact own.trans (warnAmbiguousPaths_moves h)

theorem repeatMetric_sameShape (dataset : String) (m : Metric) :
    m.SameShape (repeatMetric dataset m) := by
  unfold repeatMetric
  split
  · exact ⟨_, rfl⟩
  · exact .refl m

theorem repeatMetrics_metrics (dataset : String) (o : Output) :
    (repeatMetrics dataset o).metrics = o.metrics.map (repeatMetric dataset) :=
  rfl

theorem map_repeatMetrics (dataset : String) (o : Output) :
    (repeatMetrics dataset o).metrics.map (·.uniqueName) = o.metrics.map (·.uniqueName) := by
  rw [repeatMetrics_metrics, List.map_map]
  exact List.map_congr_left fun m _ => uniqueName_repeatMetric dataset m

theorem repeatMetrics_moves {dataset : String}
    (h : (modify fun s => { s with output := repeatMetrics dataset s.output } : Run Unit).run s =
      .ok (u, s')) : Moves source phase s s' := by
  obtain rfl := modify_ok h
  have names := map_repeatMetrics dataset s.output
  have ext : Extends phase s { s with output := repeatMetrics dataset s.output } :=
    .of_output (List.Subset.refl _) (fun d hd => ⟨d, hd, .refl d⟩) names rfl fun m hm =>
      ⟨_, List.mem_map_of_mem hm, repeatMetric_sameShape dataset m⟩
  have origin (m' : Metric) (hm' : m' ∈ (repeatMetrics dataset s.output).metrics) :
      ∃ m ∈ s.output.metrics, m.SameShape m' := by
    obtain ⟨m, hm, rfl⟩ := List.mem_map.1 hm'
    exact ⟨m, hm, repeatMetric_sameShape dataset m⟩
  refine (Moves.refl source phase s).add ext (fun fresh sound _ => {
      metrics := fun m' hm' => ?_
      origins := fun m' hm' => ?_
      shared := fun m' hm' => ?_
      distinct := fun distinct => { distinct with metrics := names ▸ distinct.metrics } })
    (.of_eq rfl)
  all_goals
    obtain ⟨m, hm, same⟩ := origin m' hm'
    refine Or.inr ?_
  · obtain ⟨_, rfl⟩ := same
    exact sound.metrics m hm
  · obtain ⟨_, rfl⟩ := same
    exact (sound.origins m hm).with_unrelatedDimensions _
  · rcases sound.shared m hm with ⟨t, e, image⟩ | ⟨a, known⟩
    · obtain ⟨_, rfl⟩ := same
      exact Or.inl ⟨t, e, image⟩
    · exact Or.inr ⟨a, known.mono ext.toGrows same⟩

/-- A table is joined to itself, unless it is already, before its metrics repeat. -/
theorem backfillTable_ok {table : String}
    (h : (backfillTable source table).run s = .ok (u, s')) :
    ∃ dataset dimension s₁ s₂ s₃ u₃ s₄ entries,
      (datasetName table).run s = .ok (dataset, s₁) ∧
      (dimensionName table).run s₁ = .ok (dimension, s₂) ∧
      (s₂ = s₃ ∨ (addSelfJoin source table).run s₂ = .ok (⟨⟩, s₃)) ∧
      (modify fun s => { s with output := repeatMetrics dataset s.output } : Run Unit).run s₃ =
        .ok (u₃, s₄) ∧
      (log entries).run s₄ = .ok (u, s') := by
  obtain ⟨dataset, s₁, placed, h⟩ := bind_ok h
  obtain ⟨dimension, s₂, named, h⟩ := bind_ok h
  obtain ⟨_, _, got, h⟩ := bind_ok h
  obtain ⟨rfl, rfl⟩ := get_ok got
  dsimp only at h
  split at h
  · obtain ⟨_, _, got, h⟩ := bind_ok h
    obtain ⟨rfl, rfl⟩ := get_ok got
    obtain ⟨_, s₄, repeats, h⟩ := bind_ok h
    exact ⟨dataset, dimension, s₁, s₂, s₂, _, s₄, _, placed, named, Or.inl rfl, repeats, h⟩
  · obtain ⟨_, s₃, added, h⟩ := bind_ok h
    obtain ⟨_, _, got, h⟩ := bind_ok h
    obtain ⟨rfl, rfl⟩ := get_ok got
    obtain ⟨_, s₄, repeats, h⟩ := bind_ok h
    exact ⟨dataset, dimension, s₁, s₂, s₃, _, s₄, _, placed, named, Or.inr added, repeats, h⟩

theorem backfillTable_moves {table : String} (apart : source.model.TablesApart)
    (based : Based source s table) (h : (backfillTable source table).run s = .ok (u, s')) :
    Moves source phase s s' := by
  obtain ⟨dataset, dimension, s₁, s₂, s₃, _, s₄, entries, placed, named, joined, repeats, noted⟩ :=
    backfillTable_ok h
  have before : Moves source phase s s₂ :=
    (datasetName_moves placed).trans (dimensionName_moves named)
  have joining : Moves source phase s₂ s₃ := by
    rcases joined with rfl | added
    · exact .refl _ _ _
    · exact addSelfJoin_moves apart (based.mono before.extension.toGrows) added
  exact (before.trans joining).trans ((repeatMetrics_moves repeats).trans (log_moves noted))

theorem backfillRelationships_moves (apart : source.model.TablesApart) (backed : Backed source s)
    (h : (backfillRelationships source).run s = .ok (u, s')) : Moves source phase s s' := by
  obtain ⟨_, _, got, h⟩ := bind_ok h
  obtain ⟨rfl, rfl⟩ := get_ok got
  obtain ⟨_, s₁, loop, h⟩ := bind_ok h
  obtain ⟨-, rfl⟩ := pure_ok h
  refine forIn_ok (P := Moves source phase s) (.refl _ _ _) (fun name hn s₂ s₃ _ turn before => ?_)
    loop
  obtain ⟨_, s₄, filled, turn⟩ := bind_ok turn
  obtain ⟨-, rfl⟩ := pure_ok turn
  have backing := mem_metricTables.1 (List.mem_of_mem_filter hn)
  exact before.trans
    (backfillTable_moves apart ((backed name backing).mono before.extension.toGrows) filled)

end SemanticLayer.Conversion
