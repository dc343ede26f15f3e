import SemanticLayer.Conversion.CalculatedMeasures
import SemanticLayer.Conversion.ColumnMetrics
import SemanticLayer.Proofs.Conversion.Moves

set_option autoImplicit false

/-!
Metrics and calculated metrics. Measures that are single aggregations are resolved in a first phase,
under keys of their own; whatever metric is made later belongs to an aggregation. So a calculated
metric, whose measure was not resolved when its turn came, shares its key with no metric.
-/
namespace SemanticLayer.Conversion

open Formula (AggregateCall AggregateFunction MeasureSource Reference Rendering)
open Identifier (Registry Request IsWord)
open Identifier
open Tabular (Table Measure Column)

variable {source : Source} {s s' : State} {u : Unit}

theorem isWord_keyword (f : AggregateFunction) : IsWord ("_" ++ f.keyword) := by
  have all : ("_" ++ f.keyword).toList.all (fun c => isWordChar c || c = '_') = true := by
    cases f <;> decide +kernel
  intro c hc
  simpa using List.all_eq_true.1 all c hc

def TargetColumn (source : Source) (t : Table) (column : String) : Prop :=
  column ∈ t.columns.map (·.name) ∨ column = rowCountColumn source.settings t

theorem Aggregation.Of.targetColumn {a : Aggregation} (h : a.Of source.model) :
    TargetColumn source a.table (a.reads source.settings) := by
  obtain ⟨f, t, c⟩ := a
  cases c with
  | none => exact Or.inr rfl
  | some c => exact Or.inl (List.mem_map_of_mem (h.column c rfl))

theorem aggregateTarget?_ok {call : AggregateCall} {object : String}
    {found : Option AggregateTarget} (phase : Phase)
    (h : (aggregateTarget? source call object).run s = .ok (found, s')) :
    Moves source phase s s' ∧ OnlyNames s s' ∧
      (∀ target ∈ found, aggregateTarget source call = .ok target) ∧
        ∀ target, aggregateTarget source call = .ok target → found = some target := by
  unfold aggregateTarget? at h
  cases known : aggregateTarget source call with
  | ok target =>
    rw [known] at h
    obtain ⟨rfl, rfl⟩ := pure_ok h
    exact ⟨.refl _ _ _, .refl _, fun _ h => by rw [Option.mem_some.1 h], fun _ h => by cases h; rfl⟩
  | error problem =>
    rw [known] at h
    obtain ⟨_, s₁, logged, h⟩ := bind_ok h
    obtain ⟨rfl, rfl⟩ := pure_ok h
    exact ⟨log_moves logged, (log_onlyNames logged).1, nofun, nofun⟩

def remember (known : List (String × String)) (key name : String) : List (String × String) :=
  if (known.lookup key).isSome then known else known ++ [(key, name)]

section Remember

variable {known : List (String × String)} {key name : String}

theorem lookup_remember_of_lookup {k found : String} (h : known.lookup k = some found) :
    (remember known key name).lookup k = some found := by
  unfold remember
  split
  · exact h
  · rw [List.lookup_append, h]
    rfl

theorem lookup_remember (h : known.lookup key = none) :
    (remember known key name).lookup key = some name := by
  rw [remember, h, if_neg (by simp), List.lookup_append, h]
  simp

theorem lookup_remember_ne_none : (remember known key name).lookup key ≠ none := by
  cases before : known.lookup key with
  | none => exact Option.ne_none_iff_exists'.2 ⟨name, lookup_remember before⟩
  | some found => exact Option.ne_none_iff_exists'.2 ⟨found, lookup_remember_of_lookup before⟩

theorem mem_remember {e : String × String} (h : e ∈ remember known key name) :
    e ∈ known ∨ e = (key, name) := by
  unfold remember at h
  split at h
  · exact Or.inl h
  · exact (List.mem_append.1 h).imp_right List.mem_singleton.1

end Remember

theorem registerMetric_ok {m : Metric} {table key : String}
    (h : (registerMetric m table key).run s = .ok (u, s')) :
    (s.output.Distinct → s'.output.Distinct) ∧ s' = { s with
      output := { s.output with metricMap := s.output.metricMap.insert m }
      measures := { s.measures with
        metricTables := s.measures.metricTables ++ [(m.uniqueName, table)]
        aggregates := remember s.measures.aggregates key m.uniqueName } } := by
  obtain ⟨_, s₁, stored, h⟩ := bind_ok h
  obtain ⟨o, added, rfl⟩ := store_ok stored
  obtain ⟨rfl, distinct⟩ := Output.addMetric_ok added
  obtain rfl := modify_ok h
  exact ⟨distinct, rfl⟩

theorem registerMetric_moves {phase : Phase} {m : Metric} {a : Aggregation}
    (h : (registerMetric m a.table.name a.key).run s = .ok (u, s')) (mem : a.Of source.model)
    (computed : a.ComputedBy source s.names m)
    (made : ∃ key, Key.word key = phase.word ∧ s.names.lookup key = some m.uniqueName)
    (late : phase = .joins → HasDataset s a.table.name) (helpers : List String)
    (kept : s.measures.helpers ⊆ helpers) (origin : MetricOrigin source s.names helpers m)
    (shared : (∃ t e, MeasureImage source s.names t e m.uniqueName m.label) ∨
      s.names.lookup a.key = some m.uniqueName ∧ s.measures.aggregates.lookup a.key = none) :
    Moves source phase s { s' with measures := { s'.measures with helpers } } := by
  obtain ⟨distinct, rfl⟩ := registerMetric_ok h
  have backing : a.table.name ∈
      (s.measures.metricTables ++ [(m.uniqueName, a.table.name)]).map Prod.snd := by
    rw [List.map_append]
    exact List.mem_append_right _ (List.mem_singleton_self _)
  refine .of_additions ?_ {
    metrics := fun e he => (List.mem_append.1 he).imp_right fun new => ?_
    origins := fun e he => (List.mem_append.1 he).imp_right fun new => ?_
    aggregates := fun e he => (mem_remember he).imp_right fun new => ?_
    shared := fun e he => (List.mem_append.1 he).imp_right fun new => ?_
    backing := fun e he => (List.mem_append.1 he).imp_right fun new => ?_
    distinct } (.of_eq rfl)
  · exact {
      names := .refl
      tables := rfl
      datasets := List.Subset.refl _
      dimensions := fun d hd => ⟨d, hd, .refl d⟩
      metrics := fun e he => ⟨e, List.mem_append_left _ he, .refl e⟩
      measureNames := Output.measureNames_insert s.output m
      metricTables := List.subset_append_left _ _
      helpers := kept
      aggregates := fun _ _ => lookup_remember_of_lookup
      resolved := fun _ known => known
      newMetrics := fun n hn => by
        rcases NamedMap.mem_names_insert.1 hn with old | new
        · exact Or.inl old
        · exact Or.inr (by rwa [new])
      newCalcs := fun _ hn => Or.inl hn
      newTables := fun last e he => (List.mem_append.1 he).imp_right fun new => by
        rw [List.mem_singleton.1 new]
        exact late last }
  · rw [List.mem_singleton.1 new]
    exact ⟨a.table, mem.table, computed.dataset, computed.column ▸ mem.targetColumn, backing⟩
  · rwa [List.mem_singleton.1 new]
  · rw [new]
    exact ⟨a, mem, rfl, m, List.mem_append_right _ (List.mem_singleton_self m), rfl, computed⟩
  · rw [List.mem_singleton.1 new]
    refine shared.imp_right fun ⟨key, absent⟩ => ⟨a, mem, computed, key, ?_⟩
    exact lookup_remember absent
  · rw [List.mem_singleton.1 new]
    exact ⟨a.table, mem.table, rfl⟩

theorem resolveAs_moves {phase : Phase} {key name : String}
    (h : (resolveAs key name).run s = .ok (u, s')) (emitted : name ∈ s.output.measureNames)
    (known : s.names.lookup key = some name) : Moves source phase s s' := by
  obtain rfl := modify_ok h
  refine .of_additions ?_ { resolved := fun e he => ?_ } (.of_eq rfl)
  · exact {
      names := .refl
      tables := rfl
      datasets := List.Subset.refl _
      dimensions := fun d hd => ⟨d, hd, .refl d⟩
      metrics := fun m hm => ⟨m, hm, .refl m⟩
      measureNames := List.Subset.refl _
      metricTables := List.Subset.refl _
      helpers := List.Subset.refl _
      aggregates := fun _ _ known => known
      resolved := fun k known => by
        rw [List.lookup_cons]
        split
        · exact Option.some_ne_none _
        · exact known
      newMetrics := fun _ hn => Or.inl hn
      newCalcs := fun _ hn => Or.inl hn
      newTables := fun _ _ he => Or.inl he }
  · rcases List.mem_cons.1 he with rfl | old
    · exact Or.inr ⟨emitted, known⟩
    · exact Or.inl old

theorem metric_moves (phase : Phase) {s₁ s₂ s₃ : State} {q : Request} {a : Aggregation}
    {name dataset : String} {m : Metric}
    (named : (uniqueName q).run s = .ok (name, s₁))
    (placed : (datasetName a.table.name).run s₁ = .ok (dataset, s₂))
    (registered : (registerMetric m a.table.name a.key).run s₂ = .ok (u, s₃))
    (suffix : ∀ suffix ∈ q.suffix, IsWord suffix) (kind : Key.word q.key = phase.word)
    (mem : a.Of source.model) (column : m.column = a.reads source.settings)
    (method : m.calculationMethod = a.function.calculationMethod)
    (late : phase = .joins → HasDataset s a.table.name)
    (sameName : m.uniqueName = name) (sameDataset : m.dataset = dataset) (helpers : List String)
    (kept : s.measures.helpers ⊆ helpers)
    (origin : ∀ names : Registry, names.lookup q.key = some name →
      MetricOrigin source names helpers m)
    (shared : (∃ t e, ∀ names : Registry, names.lookup q.key = some name →
      MeasureImage source names t e m.uniqueName m.label) ∨
        q.key = a.key ∧ s.measures.aggregates.lookup a.key = none) :
    Moves source phase s { s₃ with measures := { s₃.measures with helpers } } := by
  have answer := uniqueName_answered named suffix
  have place := datasetName_answered placed
  have quiet : Key.word q.key ≠ "level" ∧ Key.word q.key ≠ "hierarchy" := by
    rw [kind]
    cases phase <;> exact ⟨by decide, by decide⟩
  have before : Moves source phase s s₂ :=
    (answer.moves quiet.1 quiet.2).trans (datasetName_moves placed)
  have known : s₂.names.lookup q.key = some name := place.names.lookup answer.known
  have measures : s₂.measures = s.measures := place.measures.trans answer.measures
  refine before.trans (registerMetric_moves registered mem ⟨?_, column, method⟩
    ⟨q.key, kind, ?_⟩ ?_ helpers ?_ (origin _ known) ?_)
  · rw [sameDataset]
    exact place.known
  · rwa [sameName]
  · exact fun last => (late last).mono before.extension.toGrows
  · rwa [measures]
  · refine shared.imp (fun ⟨t, e, image⟩ => ⟨t, e, image _ known⟩) fun ⟨own, absent⟩ => ?_
    rw [sameName, measures, ← own]
    exact ⟨known, own ▸ absent⟩

/-- Every metric belongs to a measure that is resolved, and there are no calculated metrics yet. -/
structure Simple (s : State) : Prop where
  metrics : ∀ name ∈ s.output.metrics.map (·.uniqueName),
    ∃ key, Key.word key = "measure" ∧ s.names.lookup key = some name ∧
      s.measures.resolved.lookup key ≠ none
  aggregates : ∀ e ∈ s.measures.aggregates, e.2 ∈ s.output.metrics.map (·.uniqueName)
  metricCalcs : s.output.metricCalcs = []

theorem Simple.mono (h : Simple s) (only : OnlyNames s s') : Simple s' where
  metrics name found := by
    rw [only.output] at found
    obtain ⟨key, kind, known, resolved⟩ := h.metrics name found
    exact ⟨key, kind, only.names.lookup known, by rwa [only.measures]⟩
  aggregates := by rw [only.output, only.measures]; exact h.aggregates
  metricCalcs := by rw [only.output, h.metricCalcs]

theorem Simple.register {s₁ : State} {m : Metric} {table key aggregate : String} {u' : Unit}
    (h : Simple s) (registered : (registerMetric m table aggregate).run s = .ok (u, s₁))
    (resolved : (resolveAs key m.uniqueName).run s₁ = .ok (u', s'))
    (kind : Key.word key = "measure") (known : s.names.lookup key = some m.uniqueName) :
    Simple s' := by
  obtain ⟨-, rfl⟩ := registerMetric_ok registered
  obtain rfl := modify_ok resolved
  refine ⟨fun name found => ?_, fun e he => ?_, h.metricCalcs⟩
  swap
  · change e.2 ∈ (s.output.metrics ++ [m]).map (·.uniqueName)
    rw [List.map_append]
    rcases mem_remember he with old | rfl
    · exact List.mem_append_left _ (h.aggregates e old)
    · exact List.mem_append_right _ (List.mem_singleton_self _)
  change name ∈ (s.output.metrics ++ [m]).map (·.uniqueName) at found
  rw [List.map_append] at found
  rcases List.mem_append.1 found with old | new
  · obtain ⟨own, kind, known, before⟩ := h.metrics name old
    refine ⟨own, kind, known, ?_⟩
    change List.lookup own ((key, m.uniqueName) :: s.measures.resolved) ≠ none
    rw [List.lookup_cons]
    split
    · exact Option.some_ne_none _
    · exact before
  · rw [List.mem_singleton.1 new]
    refine ⟨key, kind, known, ?_⟩
    change List.lookup key ((key, m.uniqueName) :: s.measures.resolved) ≠ none
    rw [List.lookup_cons_self]
    exact Option.some_ne_none _

theorem registerMetric_helpers {m : Metric} {table key : String}
    (h : (registerMetric m table key).run s = .ok (u, s')) :
    s'.measures.helpers = s.measures.helpers := by
  obtain ⟨-, rfl⟩ := registerMetric_ok h
  rfl

/-- The aggregation that a measure consists of is in the memo. -/
def Recognised (source : Source) (m : Measure) (s : State) : Prop :=
  ∀ call target, Formula.singleAggregate m.expression.text.toList = some call →
    aggregateTarget source call = .ok target → s.measures.aggregates.lookup target.key ≠ none

theorem Recognised.mono {m : Measure} (h : Recognised source m s) (grows : Grows s s') :
    Recognised source m s' := by
  intro call target single found
  obtain ⟨name, known⟩ := Option.ne_none_iff_exists'.1 (h call target single found)
  exact Option.ne_none_iff_exists'.2 ⟨name, grows.aggregates _ _ known⟩

theorem simpleMeasure_ok {owner : Table} {measure : Measure} {call : AggregateCall}
    (ho : owner ∈ source.model.tables) (hm : measure ∈ owner.measures)
    (single : Formula.singleAggregate measure.expression.text.toList = some call)
    (h : (simpleMeasure source owner measure call).run s = .ok (u, s')) :
    Moves source .aggregations s s' ∧ (Simple s → Simple s') ∧
      Recognised source measure s' := by
  obtain ⟨found, s₁, asked, h⟩ := bind_ok h
  obtain ⟨first, only, targets, complete⟩ := aggregateTarget?_ok .aggregations asked
  cases found with
  | none =>
    obtain ⟨rfl, rfl⟩ := pure_ok h
    refine ⟨first, fun simple => simple.mono only, fun call' target single' known => ?_⟩
    obtain rfl := Option.some.inj (single.symm.trans single')
    cases complete target known
  | some target =>
    obtain ⟨a, mem, asks, rfl⟩ := Aggregation.of_aggregateTarget
      (Formula.shaped_of_singleAggregate single) (targets target rfl)
    obtain ⟨name, s₂, named, h⟩ := bind_ok h
    obtain ⟨dataset, s₃, placed, h⟩ := bind_ok h
    obtain ⟨_, s₄, registered, resolved⟩ := bind_ok h
    have kind := Key.word_measure owner.name measure.name
    have plain : ∀ suffix ∈ (none : Option String), IsWord suffix := fun _ h => nomatch h
    have answer := uniqueName_answered named plain
    have place := datasetName_answered placed
    have same : s₄.measures.helpers = s₁.measures.helpers :=
      (registerMetric_helpers registered).trans
        (congrArg (·.helpers) (place.measures.trans answer.measures))
    have made : Moves source .aggregations s₁ s₄ :=
      metric_moves .aggregations named placed registered plain kind mem rfl
        (by rw [asks.function]) nofun rfl rfl s₄.measures.helpers
        (by rw [same]; exact List.Subset.refl _)
        (fun _ known => .measure owner measure ⟨ho, hm, known, rfl⟩)
        (Or.inl ⟨owner, measure, fun _ known => ⟨ho, hm, known, rfl⟩⟩)
    have known : s₄.names.lookup (Key.measure owner.name measure.name) = some name := by
      obtain ⟨-, rfl⟩ := registerMetric_ok registered
      exact place.names.lookup answer.known
    have emitted : name ∈ s₄.output.measureNames := by
      obtain ⟨-, rfl⟩ := registerMetric_ok registered
      refine List.mem_append_left _ ?_
      rw [List.map_append]
      exact List.mem_append_right _ (List.mem_singleton_self _)
    have resolving : Moves source .aggregations s₄ s' := resolveAs_moves resolved emitted known
    refine ⟨(first.trans made).trans resolving, fun simple => ?_, ?_⟩
    · exact (((simple.mono only).mono answer.toOnlyNames).mono place.toOnlyNames).register
        registered resolved kind (place.names.lookup answer.known)
    · refine Recognised.mono (fun call' target single' found => ?_) resolving.extension.toGrows
      obtain rfl := Option.some.inj (single.symm.trans single')
      obtain rfl := Except.ok.inj ((targets _ rfl).symm.trans found)
      obtain ⟨-, rfl⟩ := registerMetric_ok registered
      exact lookup_remember_ne_none

/-- What the turns of simple measures establish for them holds in the end, when later turns keep
it. -/
theorem resolveSimpleMeasures_all {P : State → Prop} {Q : Table → Measure → State → Prop}
    (start : P s)
    (others : ∀ t e s, Formula.singleAggregate e.expression.text.toList = none → Q t e s)
    (step : ∀ t ∈ source.model.tables, ∀ e ∈ t.measures, ∀ call s s' u,
      Formula.singleAggregate e.expression.text.toList = some call →
        (simpleMeasure source t e call).run s = .ok (u, s') → P s →
          P s' ∧ Q t e s' ∧ ∀ t e, Q t e s → Q t e s')
    (h : (resolveSimpleMeasures source).run s = .ok (u, s')) :
    P s' ∧ ∀ t ∈ source.model.tables, ∀ e ∈ t.measures, Q t e s' := by
  obtain ⟨_, _, loop, h⟩ := bind_ok h
  obtain ⟨-, rfl⟩ := pure_ok h
  refine forIn_all (P := P) (Q := fun t s => ∀ e ∈ t.measures, Q t e s) start
    (fun t ht s₁ s₂ r turn before => ?_) loop
  obtain ⟨_, s₃, inner, turn⟩ := bind_ok turn
  obtain ⟨rfl, rfl⟩ := pure_ok turn
  have each := forIn_all (P := fun s => P s ∧ ∀ t e, Q t e s₁ → Q t e s) (Q := Q t)
    ⟨before, fun _ _ => id⟩ (fun e he s₄ s₅ r turn before => ?_) inner
  · exact ⟨rfl, each.1.1, each.2, fun t' old e he => each.1.2 t' e (old e he)⟩
  split at turn
  · rename_i call single
    obtain ⟨_, s₆, made, turn⟩ := bind_ok turn
    obtain ⟨rfl, rfl⟩ := pure_ok turn
    obtain ⟨kept, here, later⟩ := step t ht e he call s₄ s₆ _ single made before.1
    exact ⟨rfl, ⟨kept, fun t e old => later t e (before.2 t e old)⟩, here, later t⟩
  · rename_i several
    obtain ⟨rfl, rfl⟩ := pure_ok turn
    exact ⟨rfl, before, others t e _ (Option.eq_none_iff_forall_ne_some.2 several), fun _ => id⟩

theorem resolveSimpleMeasures_ok (h : (resolveSimpleMeasures source).run s = .ok (u, s')) :
    Moves source .aggregations s s' ∧ (Simple s → Simple s') ∧
      ∀ t ∈ source.model.tables, ∀ m ∈ t.measures, Recognised source m s' := by
  rw [← and_assoc]
  refine resolveSimpleMeasures_all (Q := fun _ => Recognised source)
    (P := fun s' => Moves source .aggregations s s' ∧ (Simple s → Simple s')) ⟨.refl _ _ _, id⟩
    (fun t e s none call _ single => ?_) (fun t ht e he call s₁ s₂ u single made before => ?_) h
  · rw [none] at single
    cases single
  · obtain ⟨moves, kept, recognised⟩ := simpleMeasure_ok ht he single made
    exact ⟨⟨before.1.trans moves, kept ∘ before.2⟩, recognised,
      fun _ _ old => old.mono moves.extension.toGrows⟩

theorem aggregateMetric_moves {call : AggregateCall} {object : String} {found : Option String}
    (shaped : call.Shaped)
    (h : (aggregateMetric source call object).run s = .ok (found, s')) :
    Moves source .formulas s s' := by
  obtain ⟨target, s₁, asked, h⟩ := bind_ok h
  obtain ⟨first, -, targets, -⟩ := aggregateTarget?_ok .formulas asked
  cases target with
  | none =>
    obtain ⟨-, rfl⟩ := pure_ok h
    exact first
  | some target =>
    obtain ⟨a, mem, asks, rfl⟩ := Aggregation.of_aggregateTarget shaped (targets target rfl)
    obtain ⟨_, _, got, h⟩ := bind_ok h
    obtain ⟨rfl, rfl⟩ := get_ok got
    dsimp only at h
    split at h
    · obtain ⟨-, rfl⟩ := pure_ok h
      exact first
    rename_i absent
    obtain ⟨name, s₂, named, h⟩ := bind_ok h
    obtain ⟨dataset, s₃, placed, h⟩ := bind_ok h
    obtain ⟨_, s₄, registered, h⟩ := bind_ok h
    obtain ⟨_, s₅, helped, h⟩ := bind_ok h
    obtain ⟨-, rfl⟩ := pure_ok h
    have suffix : ∀ suffix ∈ some ("_" ++ call.function.keyword), IsWord suffix := fun _ h =>
      Option.mem_some.1 h ▸ isWord_keyword call.function
    have answer := uniqueName_answered named suffix
    have place := datasetName_answered placed
    have same : s₄.measures.helpers = s₁.measures.helpers :=
      (registerMetric_helpers registered).trans
        (congrArg (·.helpers) (place.measures.trans answer.measures))
    obtain rfl := modify_ok helped
    refine first.trans (metric_moves .formulas named placed registered suffix a.word_key mem rfl
      (by rw [asks.function]) (fun wrong => by cases wrong) rfl rfl
      (s₄.measures.helpers ++ [name]) ?_
      (fun _ known => .helper ⟨?_, rfl, a.key, a.word_key, known⟩)
      (Or.inr ⟨rfl, Option.eq_none_iff_forall_ne_some.2 absent⟩))
    · rw [same]
      exact List.subset_append_left _ _
    · exact List.mem_append_right _ (List.mem_singleton_self name)

theorem ne_countRows_of_implied {c : Column} {f : AggregateFunction}
    (h : impliedFunction? c = some f) : f ≠ .countRows := by
  obtain ⟨text, -, h⟩ := Option.bind_eq_some_iff.1 h
  dsimp only at h
  split at h
  · cases h
  split at h
  · split at h
    · cases h
      decide
    · cases h
  split at h
  · cases h
    decide
  · cases h
    decide
  · rename_i other _
    cases h
    exact other

theorem columnMetric_moves {phase : Phase} {t : Table} {c : Column} {function : AggregateFunction}
    (ht : t ∈ source.model.tables) (hc : c ∈ t.columns) (shown : isShown c = true)
    (implied : impliedFunction? c = some function) (kind : phase.word = "aggregate")
    (late : phase = .joins → HasDataset s t.name)
    (h : (columnMetric source t c function).run s = .ok (u, s')) : Moves source phase s s' := by
  rw [columnMetric] at h
  split at h
  · obtain ⟨_, s₁, noted, h⟩ := bind_ok h
    obtain ⟨-, rfl⟩ := pure_ok h
    exact log_moves noted
  obtain ⟨_, _, got, h⟩ := bind_ok h
  obtain ⟨rfl, rfl⟩ := get_ok got
  split at h
  · obtain ⟨-, rfl⟩ := pure_ok h
    exact .refl _ _ _
  rename_i absent
  obtain ⟨name, s₁, named, h⟩ := bind_ok h
  obtain ⟨dataset, s₂, placed, h⟩ := bind_ok h
  have suffix : ∀ suffix ∈ some ("_" ++ function.keyword), IsWord suffix := fun _ h =>
    Option.mem_some.1 h ▸ isWord_keyword function
  have same : s'.measures.helpers = s.measures.helpers :=
    (registerMetric_helpers h).trans (congrArg (·.helpers)
      ((datasetName_answered placed).measures.trans (uniqueName_answered named suffix).measures))
  let a : Aggregation := ⟨function, t, some c⟩
  have mem : a.Of source.model := {
    table := ht
    column := fun d hd => Option.some.inj hd ▸ hc
    shaped := iff_of_false (Option.some_ne_none c) (ne_countRows_of_implied implied) }
  exact metric_moves (a := a) phase named placed h suffix (a.word_key.trans kind.symm) mem rfl rfl
    late rfl rfl s'.measures.helpers (by rw [same]; exact List.Subset.refl _)
    (fun _ known => .column t c ⟨ht, hc, shown, ⟨function, implied, rfl, known⟩, rfl, rfl, rfl⟩)
    (Or.inr ⟨rfl, Option.not_isSome_iff_eq_none.1 absent⟩)

theorem resolveColumnMeasures_moves
    (joined : ∀ t ∈ source.model.tables, t.name ∈ s.tables.fact → HasDataset s t.name)
    (h : (resolveColumnMeasures source).run s = .ok (u, s')) : Moves source .joins s s' := by
  rw [resolveColumnMeasures] at h
  split at h
  · obtain ⟨-, rfl⟩ := pure_ok h
    exact .refl _ _ _
  obtain ⟨_, s₁, loop, h⟩ := bind_ok h
  obtain ⟨-, rfl⟩ := pure_ok h
  refine forIn_ok (P := Moves source .joins s) (.refl _ _ _) (fun t ht s₂ s₃ _ turn before => ?_)
    loop
  obtain ⟨_, _, got, turn⟩ := bind_ok turn
  obtain ⟨rfl, rfl⟩ := get_ok got
  split at turn
  swap
  · obtain ⟨-, rfl⟩ := pure_ok turn
    exact before
  rename_i fact
  rw [before.extension.tables] at fact
  obtain ⟨_, _, got, turn⟩ := bind_ok turn
  obtain ⟨rfl, rfl⟩ := get_ok got
  obtain ⟨_, s₄, inner, turn⟩ := bind_ok turn
  obtain ⟨-, rfl⟩ := pure_ok turn
  refine forIn_ok (P := Moves source .joins s) before (fun c hc s₅ s₆ _ turn before => ?_) inner
  obtain ⟨_, s₇, noted, turn⟩ := bind_ok turn
  have asked := before.trans (log_moves noted)
  obtain ⟨column, free⟩ := List.mem_filter.1 hc
  have shown : isShown c = true := ((Bool.and_eq_true _ _).mp free).1
  split at turn
  · rename_i function implied
    obtain ⟨_, s₈, made, turn⟩ := bind_ok turn
    obtain ⟨-, rfl⟩ := pure_ok turn
    have place := (joined t ht (List.contains_iff_mem.1 fact)).mono asked.extension.toGrows
    exact asked.trans (columnMetric_moves ht column shown implied rfl (fun _ => place) made)
  · obtain ⟨-, rfl⟩ := pure_ok turn
    exact asked

end SemanticLayer.Conversion
