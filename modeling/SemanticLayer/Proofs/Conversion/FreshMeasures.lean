import SemanticLayer.Proofs.Conversion.Progress
import SemanticLayer.Proofs.Conversion.Resolution

set_option autoImplicit false

namespace SemanticLayer

open Text (lower)
open Identifier

def Output.metricNames (o : Output) : List String := o.metrics.map (·.uniqueName)

def Output.metricCalcNames (o : Output) : List String := o.metricCalcs.map (·.uniqueName)

namespace Conversion

open Formula (AggregateCall AggregateFunction MeasureSource Reference)
open Identifier (Registry Request)
open Tabular (Table Measure Column)

variable {source : Source} {deep : Prop} {s s' : State} {u : Unit}

theorem nodup_measureKeys {model : Tabular.Model} (apart : model.TablesApart)
    (measures : ∀ t ∈ model.tables, t.MeasuresApart) : (measureKeys model).Nodup := by
  refine List.nodup_flatMap.2 ⟨fun t ht => ?_, ?_⟩
  · refine List.pairwise_map.2 ((List.pairwise_map.1 (measures t ht)).imp fun differ same => ?_)
    exact differ (Key.measure_inj (apart.plain t ht) (apart.plain t ht) same).2
  · refine (List.pairwise_map.1 apart.distinct).imp_of_mem
      fun {t t'} ht ht' differ key here there => ?_
    obtain ⟨m, -, rfl⟩ := List.mem_map.1 here
    obtain ⟨m', -, same⟩ := List.mem_map.1 there
    exact differ (Key.measure_inj (apart.plain t' ht') (apart.plain t ht) same).1.symm

theorem Safe.ensureDataset (t : Table) : Safe deep (ensureDataset source t) s := by
  refine ((Light.datasetName _).safe s).bind fun name s₁ named => ?_
  refine .get_bind ?_
  split
  · exact (Light.pure _).safe _
  rename_i missing
  refine ((Light.log _).safe _).bind fun _ s₂ noted => ?_
  obtain rfl := log_ok noted
  refine (Safe.store fun _ => Output.Shelf.datasets.exists_insert (fun found => missing ?_)).bind
    fun _ s₃ _ => (Light.pure _).safe s₃
  obtain ⟨d, hd, same⟩ := List.mem_map.1 found
  exact List.find?_isSome.2 ⟨d, hd, beq_iff_eq.2 same⟩

section Metrics

theorem Adds.registerMetric {s₁ : State} {keys : List String} {m : Metric} {own table key : String}
    (free : Free (·.metricNames) own s) (mine : own ∈ keys) (only : OnlyNames s s₁)
    (known : s₁.names.lookup own = some m.uniqueName) :
    Adds deep (·.metricNames) keys (registerMetric m table key) s₁ := by
  refine .bind (.store free mine only.asks known Output.Shelf.metrics.exists_insert
    fun o made n hn => ?_) fun _ _ _ => .modify rfl rfl _
  obtain ⟨rfl, -⟩ := Output.addMetric_ok made
  exact NamedMap.mem_names_insert.1 hn

theorem Adds.simpleMeasure {owner : Table} {measure : Measure} {call : AggregateCall}
    (free : Free (·.metricNames) (Key.measure owner.name measure.name) s) :
    Adds deep (·.metricNames) [Key.measure owner.name measure.name]
      (simpleMeasure source owner measure call) s := by
  refine .bind (.light (.aggregateTarget? _ _ _) _) fun target s₁ asked => ?_
  obtain ⟨-, only, -⟩ := aggregateTarget?_ok .aggregations asked
  split
  swap
  · exact .light (.pure _) _
  refine .bind (.uniqueName _ _) fun name s₂ named => ?_
  refine .bind (.light (.datasetName _) _) fun dataset s₃ placed => ?_
  have answer := uniqueName_answered named fun _ h => nomatch h
  have place := datasetName_answered placed
  exact .bind (.registerMetric free (List.mem_singleton_self _)
    ((only.trans answer.toOnlyNames).trans place.toOnlyNames) (place.names.lookup answer.known))
    fun _ _ _ => .modify rfl rfl _

theorem Adds.resolveSimpleMeasures (keys : (measureKeys source.model).Nodup)
    (free : ∀ key, Free (·.metricNames) key s) :
    Adds deep (·.metricNames) (measureKeys source.model) (resolveSimpleMeasures source) s := by
  let key (t : Table) (m : Measure) : List String := [Key.measure t.name m.name]
  have all : measureKeys source.model = source.model.tables.flatMap fun t =>
      t.measures.flatMap (key t) := by simp only [measureKeys, key, List.map_eq_flatMap]
  rw [all] at keys ⊢
  refine .bind (.forIn (P := fun _ => True) keys (fun t ht s _ free => ⟨?_, fun _ _ _ => trivial⟩)
    trivial fun key _ => free key) fun _ _ _ => .light (.pure _) _
  refine .bind (.forIn (P := fun _ => True) ((List.nodup_flatMap.1 keys).1 t ht)
    (fun m hm s _ free => ⟨?_, fun _ _ _ => trivial⟩) trivial free) fun _ _ _ => .light (.pure _) _
  split
  · exact .bind (.simpleMeasure (free _ (List.mem_singleton_self _))) fun _ _ _ =>
      .light (.pure _) _
  · exact .light (.pure _) _

theorem Reliable.free_aggregate (h : Reliable source s) {key : String}
    (kind : Key.word key = "aggregate") (absent : s.measures.aggregates.lookup key = none) :
    Free (·.metricNames) key s := fun fresh => by
  have sound := h fresh
  refine ⟨sound.registry, fun name found => ?_⟩
  obtain ⟨m, hm, rfl⟩ := List.mem_map.1 found
  rcases sound.shared m hm with ⟨t, e, image⟩ | ⟨a, known⟩
  · refine ⟨_, fun same => ?_, image.key⟩
    rw [← same, Key.word_measure] at kind
    exact absurd kind (by decide)
  · refine ⟨_, fun same => ?_, known.key⟩
    rw [← same, known.recalled] at absent
    cases absent

theorem Safe.aggregateMetric {call : AggregateCall} {object : String} (shaped : call.Shaped)
    (before : Reliable source s) : Safe deep (aggregateMetric source call object) s := by
  refine ((Light.aggregateTarget? _ _ _).safe s).bind fun target s₁ asked => ?_
  obtain ⟨moves, -, targets, -⟩ := aggregateTarget?_ok .formulas asked
  split
  swap
  · exact (Light.pure _).safe s₁
  rename_i target
  obtain ⟨a, -, asks, rfl⟩ := Aggregation.of_aggregateTarget shaped (targets target rfl)
  refine .get_bind ?_
  dsimp only
  split
  · exact (Light.pure _).safe s₁
  rename_i absent
  have free := (moves.reliable before).free_aggregate a.word_key
    (Option.eq_none_iff_forall_ne_some.2 absent)
  refine (Safe.uniqueName _ s₁).bind fun name s₂ named => ?_
  refine ((Light.datasetName _).safe s₂).bind fun dataset s₃ placed => ?_
  have suffix : ∀ suffix ∈ some ("_" ++ call.function.keyword), IsWord suffix := fun _ h =>
    Option.mem_some.1 h ▸ isWord_keyword call.function
  have answer := uniqueName_answered named suffix
  have place := datasetName_answered placed
  refine .bind (Adds.registerMetric free (List.mem_singleton_self _)
    (answer.toOnlyNames.trans place.toOnlyNames) ?_).safe fun _ _ _ =>
      .bind (.modify _) fun _ s₅ _ => (Light.pure _).safe s₅
  exact place.names.lookup answer.known

theorem Safe.columnMetric {t : Table} {c : Column} {function : AggregateFunction}
    (before : Reliable source s) : Safe deep (columnMetric source t c function) s := by
  rw [Conversion.columnMetric]
  split
  · exact Light.safe (.bind (.log _) fun _ => .pure _) s
  refine .get_bind ?_
  split
  · exact (Light.pure _).safe s
  rename_i absent
  have free := before.free_aggregate (Key.word_aggregate function.keyword t.name c.name)
    (Option.not_isSome_iff_eq_none.1 absent)
  refine (Safe.uniqueName _ s).bind fun name s₁ named => ?_
  refine ((Light.datasetName _).safe s₁).bind fun dataset s₂ placed => ?_
  have suffix : ∀ suffix ∈ some ("_" ++ function.keyword), IsWord suffix := fun _ h =>
    Option.mem_some.1 h ▸ isWord_keyword function
  have answer := uniqueName_answered named suffix
  have place := datasetName_answered placed
  exact (Adds.registerMetric free (List.mem_singleton_self _) (answer.toOnlyNames.trans
    place.toOnlyNames) (place.names.lookup answer.known)).safe

theorem Guarded.resolveColumnMeasures :
    Guarded deep (Reliable source) (resolveColumnMeasures source) := by
  unfold Conversion.resolveColumnMeasures
  split
  · exact .pure _
  refine .bind (.forIn fun t ht => .bind .get fun s => ?_) fun _ => .pure _
  split
  swap
  · exact .pure _
  refine .bind .get fun s => .bind (.forIn fun c hc => ?_) fun _ => .pure _
  obtain ⟨column, free⟩ := List.mem_filter.1 hc
  have shown : isShown c = true := ((Bool.and_eq_true _ _).mp free).1
  refine .bind ⟨fun s _ => (Light.log _).safe s, fun _ _ _ noted => ?_⟩ fun _ => ?_
  · have moves : Moves source .formulas _ _ := log_moves noted
    exact moves.reliable
  split
  · rename_i implied
    refine .bind ⟨fun s before => .columnMetric before, fun _ _ _ made => ?_⟩ fun _ => .pure _
    have moves : Moves source .formulas _ _ :=
      columnMetric_moves ht column shown implied rfl (fun wrong => nomatch wrong) made
    exact moves.reliable
  · exact .pure _

end Metrics

section Formulas

/-- What formulas are translated in: a sound result, with a memo that leads to all of it. -/
structure Consistent (source : Source) (s : State) : Prop where
  reliable : Reliable source s
  linked : Linked source s

theorem Consistent.mono (h : Consistent source s) (moves : Moves source .formulas s s')
    (linked : Linked source s → Linked source s') : Consistent source s' :=
  ⟨moves.reliable h.reliable, linked h.linked⟩

theorem Consistent.log (entries : List Diagnostic) :
    Guarded deep (Consistent source) (log entries) where
  safe s _ := (Light.log entries).safe s
  kept s _ s' noted before := by
    have works : Works source [] s s' := log_works noted
    exact before.mono (log_moves noted) works.linked

theorem Consistent.free_measure (h : Consistent source s) {key : String}
    (unresolved : s.measures.resolved.lookup key = none) : Free (·.metricCalcNames) key s :=
    fun fresh => by
  have sound := h.reliable fresh
  refine ⟨sound.registry, fun name found => ?_⟩
  obtain ⟨e, he, rfl⟩ := List.mem_map.1 (h.linked.listed found)
  refine ⟨e.1, fun same => ?_, (sound.resolved e he).2⟩
  have other : (key != e.1) = true := List.lookup_eq_none_iff.1 unresolved e he
  exact bne_iff_ne.1 other same.symm

theorem Safe.emitCalc {owner : Table} {measure : Measure} {made : String → MetricCalc}
    (sameName : ∀ name, (made name).uniqueName = name)
    (free : Free (·.metricCalcNames) (Key.measure owner.name measure.name) s) :
    Safe deep (emitCalc owner measure made) s := by
  refine (Safe.uniqueName _ s).bind fun name s₁ named => ?_
  have answer := uniqueName_answered named fun _ h => nomatch h
  refine .bind (.store fun fresh => Output.Shelf.metricCalcs.exists_insert ?_) fun _ _ _ =>
    .bind (.modify _) fun _ s₃ _ => (Light.pure _).safe s₃
  rw [sameName]
  exact free.notMem answer.toOnlyNames.asks answer.known fresh

theorem Safe.calculatedMeasure {idle : List String} {owner : Table} {measure : Measure} {s : State}
    (before : Consistent source s) : Safe deep (calculatedMeasure source idle owner measure) s := by
  rw [calculatedMeasure_eq]
  refine .get_bind ?_
  split
  · exact (Light.pure _).safe s
  rename_i absent
  split
  swap
  · exact Light.safe (.bind (.log _) fun _ => .pure _) s
  rename_i idleKey
  have fewer := withoutKey_length_lt idleKey
  let key := Key.measure owner.name measure.name
  -- The references of the formula are asked for with one idle measure less.
  have rendering : Guarded deep (Consistent source)
      (renderMeasure (referencesOf source (withoutKey key idle) measure) measure) := by
    refine Guarded.composes.renderMeasure (fun target shaped => ?_) Consistent.log measure
    cases target with
    | aggregate call =>
      refine ⟨fun _ before => .aggregateMetric shaped before.reliable,
        fun s _ s' asked before => ?_⟩
      have works : Works source [] s s' := (aggregateMetric_works asked).1
      exact before.mono (aggregateMetric_moves shaped asked) works.linked
    | measure name =>
      dsimp only [Reference.resolve, referencesOf]
      split
      · rename_i t m known
        obtain ⟨ht, hm⟩ := mem_of_referencedMeasure? known
        refine ⟨fun s before => Safe.calculatedMeasure before, fun _ _ _ asked before => ?_⟩
        exact before.mono (calculatedMeasure_moves ht hm asked)
          (calculatedMeasure_works ht hm asked).1.linked
      · exact .pure _
  refine (rendering.safe s before).bind fun outcome s₁ rendered => ?_
  have after := rendering.kept s outcome s₁ rendered before
  have unresolved : s₁.measures.resolved.lookup key = none := by
    obtain ⟨works, -⟩ :=
      renderMeasure_works source _ (recalling_of_works calculatedMeasure_works) rendered
    exact (works.confined key (by simp [withoutKey])).trans absent
  cases outcome with
  | error remainder =>
    refine ((Light.log _).safe s₁).bind fun _ s₂ noted => ?_
    have works : Works source idle s₁ s₂ := log_works noted
    have same := (log_onlyNames noted).1.measures
    exact .emitCalc (fun _ => rfl)
      ((after.mono (log_moves noted) works.linked).free_measure (same ▸ unresolved))
  | ok expression => exact .emitCalc (fun _ => rfl) (after.free_measure unresolved)
termination_by idle.length
decreasing_by
  assumption

theorem Guarded.resolveCalculatedMeasures {t : Table} (ht : t ∈ source.model.tables) :
    Guarded deep (Consistent source) (resolveCalculatedMeasures source t) := by
  refine .bind (.forIn fun m hm => .bind ⟨fun _ before => .calculatedMeasure before,
    fun _ _ _ made before => ?_⟩ fun _ => .pure _) fun _ => .pure _
  exact before.mono (calculatedMeasure_moves ht hm made)
    (calculatedMeasure_works ht hm made).1.linked

theorem Guarded.ensureDataset {t : Table} (ht : t ∈ source.model.tables) :
    Guarded deep (Consistent source) (ensureDataset source t) where
  safe _ _ := .ensureDataset t
  kept _ _ _ made before :=
    before.mono (ensureDataset_ok .formulas made ht).1 (ensureDataset_linked made)

theorem Guarded.resolveDatasets :
    Guarded deep (Consistent source) (resolveDatasets source) := by
  refine .bind (.forIn fun t ht => .bind .get fun s => ?_) fun _ => .bind .get fun s =>
    .bind (.forIn fun name _ => ?_) fun _ => .pure _
  · dsimp only
    split
    · exact .pure _
    split
    · exact .bind (.resolveCalculatedMeasures ht) fun _ => .pure _
    · exact .bind (.ensureDataset ht) fun _ => .bind (.resolveCalculatedMeasures ht) fun _ =>
        .pure _
  · split
    · rename_i t found
      exact .bind (.ensureDataset (Tabular.Model.mem_of_table? found)) fun _ => .pure _
    · exact .pure _

end Formulas

end Conversion

end SemanticLayer
