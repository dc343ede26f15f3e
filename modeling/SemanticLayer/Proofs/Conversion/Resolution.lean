import SemanticLayer.Proofs.Conversion.Datasets
import SemanticLayer.Proofs.Conversion.References

set_option autoImplicit false

/-!
Measures are resolved in an order in which references go back only. The induction is again on the
measures that are not being worked on: a measure that is stays unresolved until its formula has been
rendered, so its entry shadows none and its formula has found no entry of its own.
-/
namespace SemanticLayer.Conversion

open Formula (MeasureSource Reference Renders Rendering ofText)
open Identifier
open Tabular (Table Measure)

variable {source : Source} {idle : List String} {s s' : State} {u : Unit}

theorem log_works {entries : List Diagnostic} (h : (log entries).run s = .ok (u, s')) :
    Works source idle s s' :=
  (log_onlyNames h).1.works

/-- References are answered by what is known afterwards. -/
def Recalling (source : Source) (idle : List String) (references : MeasureSource Run) : Prop :=
  ∀ target : Reference, ∀ s s' found, (target.resolve references).run s = .ok (found, s') →
    Works source idle s s' ∧ ∀ name ∈ found, Known source s' target name

theorem evaluate_works {references : MeasureSource Run}
    (recalling : Recalling source idle references) {f : Formula} (marked : f.Marked)
    {text rest : List Char} (h : (f.evaluate references).run s = .ok ((text, rest), s')) :
    Works source idle s s' ∧ (rest = [] → Renders (Known source s') f text) := by
  -- An answer counts as what is known when all is done, so what was rendered first is taken along
  -- by `recalls` as later references are asked for.
  induction f generalizing s s' text rest with
  | stop run left =>
    obtain ⟨same, rfl⟩ := pure_ok h
    cases same
    exact ⟨.refl _ _ _, fun complete => complete ▸ .stop run⟩
  | reference run here target tail ih =>
    obtain ⟨found, s₁, asked, h⟩ := bind_ok h
    obtain ⟨first, known⟩ := recalling target s s₁ found asked
    cases found with
    | none =>
      obtain ⟨same, rfl⟩ := pure_ok h
      cases same
      exact ⟨first, fun complete => absurd complete marked.1⟩
    | some name =>
      obtain ⟨⟨later, left⟩, s₂, evaluated, h⟩ := bind_ok h
      obtain ⟨same, rfl⟩ := pure_ok h
      cases same
      obtain ⟨second, renders⟩ := ih marked.2 evaluated
      exact ⟨first.trans second, fun complete =>
        .reference (second.recalls target name (known name rfl)) (renders complete)⟩
  | ratio run here numerator denominator tail ihNumerator ihDenominator ihTail =>
    obtain ⟨mark, markedNumerator, markedDenominator, markedTail⟩ := marked
    rw [Formula.evaluate] at h
    split at h
    · obtain ⟨same, rfl⟩ := pure_ok h
      cases same
      exact ⟨.refl _ _ _, fun complete => absurd complete mark⟩
    rename_i full
    obtain ⟨⟨above, left⟩, s₁, evaluated, h⟩ := bind_ok h
    obtain ⟨first, upper⟩ := ihNumerator markedNumerator evaluated
    cases left with
    | cons c left =>
      obtain ⟨same, rfl⟩ := pure_ok h
      cases same
      exact ⟨first, fun complete => absurd complete mark⟩
    | nil =>
      dsimp only at h
      split at h
      · obtain ⟨same, rfl⟩ := pure_ok h
        cases same
        exact ⟨first, fun complete => absurd complete mark⟩
      rename_i full'
      obtain ⟨⟨below, left⟩, s₂, evaluated, h⟩ := bind_ok h
      obtain ⟨second, lower⟩ := ihDenominator markedDenominator evaluated
      cases left with
      | cons c left =>
        obtain ⟨same, rfl⟩ := pure_ok h
        cases same
        exact ⟨first.trans second, fun complete => absurd complete mark⟩
      | nil =>
        obtain ⟨⟨later, left⟩, s₃, evaluated, h⟩ := bind_ok h
        obtain ⟨same, rfl⟩ := pure_ok h
        cases same
        obtain ⟨third, renders⟩ := ihTail markedTail evaluated
        refine ⟨(first.trans second).trans third, fun complete => .ratio full ?_ full' ?_
          (renders complete)⟩
        · exact (upper rfl).mono fun target _ => (second.trans third).recalls target
        · exact (lower rfl).mono fun target _ => third.recalls target

theorem render_works {references : MeasureSource Run}
    (recalling : Recalling source idle references) {text : String} {r : Rendering}
    (h : (Formula.render references text).run s = .ok (r, s')) :
    Works source idle s s' ∧ ∀ expression, r = .complete expression → ∃ rendered,
      Renders (Known source s') (ofText text) rendered ∧
        expression = String.ofList (Text.trim rendered) := by
  obtain ⟨⟨rendered, rest⟩, s₁, evaluated, h⟩ := bind_ok h
  obtain ⟨works, renders⟩ := evaluate_works recalling (Formula.marked_parse _) evaluated
  dsimp only at h
  split at h
  · rename_i empty
    obtain ⟨rfl, rfl⟩ := pure_ok h
    refine ⟨works, fun expression same => ⟨rendered, renders (List.isEmpty_iff.1 empty), ?_⟩⟩
    exact (Rendering.complete.inj same).symm
  · obtain ⟨rfl, rfl⟩ := pure_ok h
    exact ⟨works, fun _ wrong => nomatch wrong⟩

theorem renderMeasure_works (source : Source) (idle : List String) {references : MeasureSource Run}
    (recalling : Recalling source idle references) {m : Measure} {r : Except String String}
    (h : (renderMeasure references m).run s = .ok (r, s')) :
    Works source idle s s' ∧
      ∀ expression, r = .ok expression → RenderedFrom (Known source s') m expression := by
  obtain ⟨written, s₁, rendered, h⟩ := bind_ok h
  obtain ⟨first, complete⟩ := render_works recalling rendered
  cases written with
  | complete expression =>
    obtain ⟨rfl, rfl⟩ := pure_ok h
    refine ⟨first, fun _ same => ?_⟩
    obtain rfl := Except.ok.inj same
    exact ⟨_, List.mem_cons_self, complete expression rfl⟩
  | incomplete run remainder =>
    dsimp only at h
    split at h
    · obtain ⟨rfl, rfl⟩ := pure_ok h
      exact ⟨first, fun _ wrong => nomatch wrong⟩
    obtain ⟨normal, s₂, rendered, h⟩ := bind_ok h
    obtain ⟨second, complete⟩ := render_works recalling rendered
    cases normal with
    | complete expression =>
      obtain ⟨_, s₃, noted, h⟩ := bind_ok h
      obtain ⟨rfl, rfl⟩ := pure_ok h
      have third : Works source idle s₂ s₃ := log_works noted
      refine ⟨(first.trans second).trans third, fun _ same => ?_⟩
      obtain rfl := Except.ok.inj same
      obtain ⟨text, renders, shape⟩ := complete expression rfl
      exact ⟨_, List.mem_cons_of_mem _ List.mem_cons_self, text,
        renders.mono fun target _ => third.recalls target, shape⟩
    | incomplete run remainder =>
      obtain ⟨rfl, rfl⟩ := pure_ok h
      exact ⟨first.trans second, fun _ wrong => nomatch wrong⟩

theorem registerMetric_works {m : Metric} {table key : String}
    (h : (registerMetric m table key).run s = .ok (u, s')) :
    Works source idle s s' ∧ s'.measures.resolved = s.measures.resolved ∧
      m.uniqueName ∈ s'.output.metrics.map (·.uniqueName) ∧
        (s.measures.aggregates.lookup key = none →
          s'.measures.aggregates.lookup key = some m.uniqueName) := by
  obtain ⟨-, rfl⟩ := registerMetric_ok h
  have emitted : m.uniqueName ∈ (s.output.metrics ++ [m]).map (·.uniqueName) :=
    List.mem_map_of_mem (List.mem_append_right _ (List.mem_singleton_self m))
  refine ⟨⟨fun target name known => ?_, fun _ _ => rfl, fun linked => ?_⟩, rfl, emitted,
    lookup_remember⟩
  · cases known with
    | aggregate found known => exact .aggregate found (lookup_remember_of_lookup known)
    | measure found known => exact .measure found known
  · refine linked.grow (fun _ _ known => known) rfl ?_ rfl (fun _ _ => lookup_remember_of_lookup)
      fun e he => ?_
    · rw [List.map_append]
      exact List.subset_append_left _ _
    · exact (mem_remember he).imp_right fun new => by rwa [new]

theorem aggregateMetric_works {call : Formula.AggregateCall} {object : String}
    {found : Option String} (h : (aggregateMetric source call object).run s = .ok (found, s')) :
    Works source idle s s' ∧ ∀ name ∈ found, Known source s' (.aggregate call) name := by
  obtain ⟨target, s₁, asked, h⟩ := bind_ok h
  obtain ⟨-, only, targets, -⟩ := aggregateTarget?_ok .formulas asked
  have first : Works source idle s s₁ := only.works
  cases target with
  | none =>
    obtain ⟨rfl, rfl⟩ := pure_ok h
    exact ⟨first, fun _ wrong => nomatch wrong⟩
  | some target =>
    have target_eq := targets target rfl
    obtain ⟨_, _, got, h⟩ := bind_ok h
    obtain ⟨rfl, rfl⟩ := get_ok got
    dsimp only at h
    split at h
    · rename_i known present
      obtain ⟨rfl, rfl⟩ := pure_ok h
      exact ⟨first, fun name same => Option.mem_some.1 same ▸ .aggregate target_eq present⟩
    rename_i absent
    obtain ⟨name, s₂, named, h⟩ := bind_ok h
    obtain ⟨dataset, s₃, placed, h⟩ := bind_ok h
    obtain ⟨_, s₄, registered, h⟩ := bind_ok h
    obtain ⟨_, s₅, helped, h⟩ := bind_ok h
    obtain ⟨rfl, rfl⟩ := pure_ok h
    have suffix : ∀ suffix ∈ some ("_" ++ call.function.keyword), IsWord suffix := fun _ h =>
      Option.mem_some.1 h ▸ isWord_keyword call.function
    have answer := uniqueName_answered named suffix
    have place := datasetName_answered placed
    obtain ⟨works, -, -, known⟩ : Works source idle s₃ s₄ ∧ _ := registerMetric_works registered
    obtain rfl := modify_ok helped
    have last : Works source idle s₄
        { s₄ with measures := { s₄.measures with helpers := s₄.measures.helpers ++ [name] } } := {
      recalls := fun target name known => by
        cases known with
        | aggregate found known => exact .aggregate found known
        | measure found known => exact .measure found known
      confined := fun _ _ => rfl
      linked := fun linked => linked.grow (fun _ _ known => known) rfl (List.Subset.refl _) rfl
        (fun _ _ known => known) fun _ old => Or.inl old }
    refine ⟨(((first.trans answer.toOnlyNames.works).trans place.toOnlyNames.works).trans
      works).trans last, fun found same => ?_⟩
    obtain rfl := Option.mem_some.1 same
    refine .aggregate target_eq (known ?_)
    rw [place.measures, answer.measures]
    exact Option.eq_none_iff_forall_ne_some.2 absent

theorem Works.resolveCalc {s₁ : State} {key name : String} {e : MetricCalc} {u' : Unit}
    (stored : (store (·.addMetricCalc e)).run s = .ok (u, s₁))
    (resolved : (resolveAs key name).run s₁ = .ok (u', s'))
    (unresolved : s.measures.resolved.lookup key = none) (idleKey : key ∈ idle)
    (sameName : e.uniqueName = name)
    (made : Translated source (Known source s) e)
    (settled : Settled source s.names (s.output.metricCalcs ++ [e]) s.measures.resolved.reverse
      (key, name)) :
    Works source idle s s' ∧ s'.measures.resolved.lookup key = some name := by
  obtain ⟨o, added, rfl⟩ := store_ok stored
  obtain ⟨rfl, -⟩ := Output.addMetricCalc_ok added
  obtain rfl := modify_ok resolved
  have kept (k : String) (other : k ≠ key) :
      List.lookup k ((key, name) :: s.measures.resolved) = s.measures.resolved.lookup k := by
    rw [List.lookup_cons, beq_false_of_ne other]
  refine ⟨⟨fun target found known => ?_, fun k busy => kept k fun same => busy (same ▸ idleKey),
    fun linked => ?_⟩, List.lookup_cons_self⟩
  · cases known with
    | aggregate found known => exact .aggregate found known
    | measure found known =>
      refine .measure found ((kept _ fun same => ?_).trans known)
      rw [same, unresolved] at known
      cases known
  · subst sameName
    exact linked.addMetricCalc made settled

theorem Works.nameMetricCalc {owner : Table} {measure : Measure} {found : Option String}
    {made : String → MetricCalc} (sameName : ∀ name, (made name).uniqueName = name)
    (idleKey : Key.measure owner.name measure.name ∈ idle)
    (unresolved : s.measures.resolved.lookup (Key.measure owner.name measure.name) = none)
    (origin : ∀ name, Translated source (Known source s) (made name))
    (settled : ∀ (names : Identifier.Registry) (name : String),
      names.lookup (Key.measure owner.name measure.name) = some name →
        Settled source names (s.output.metricCalcs ++ [made name]) s.measures.resolved.reverse
          (Key.measure owner.name measure.name, name))
    (h : (emitCalc owner measure made).run s = .ok (found, s')) :
    Works source idle s s' ∧ ∀ name ∈ found,
      s'.measures.resolved.lookup (Key.measure owner.name measure.name) = some name := by
  obtain ⟨name, s₁, named, h⟩ := bind_ok h
  obtain ⟨_, s₂, stored, h⟩ := bind_ok h
  obtain ⟨_, s₃, resolved, h⟩ := bind_ok h
  obtain ⟨rfl, rfl⟩ := pure_ok h
  have answer := uniqueName_answered named fun _ h => nomatch h
  have only := answer.toOnlyNames
  obtain ⟨works, known⟩ : Works source idle s₁ s₃ ∧ _ := by
    refine Works.resolveCalc stored resolved ?_ idleKey (sameName name)
      ((origin name).mono fun _ _ => Known.congr only.measures) ?_
    · rw [only.measures, unresolved]
    · rw [only.measures, only.output]
      exact settled s₁.names name answer.known
  exact ⟨only.works.trans works, fun found same => Option.mem_some.1 same ▸ known⟩

theorem RenderedFrom.reason {m : Measure} {key name expression : String}
    {names : Identifier.Registry} {calcs : List MetricCalc}
    (h : RenderedFrom (Known source s) m expression) :
    Reason source names calcs s.measures.resolved.reverse m key name := by
  obtain ⟨form, listed, text, renders, -⟩ := h
  refine .rendered form listed renders.understood fun written found => ?_
  obtain ⟨name, known⟩ := renders.answered _ found
  cases known with
  | @measure _ _ t' m' found known =>
    exact ⟨t', m', found, List.mem_map.2 ⟨_, List.mem_reverse.2 (mem_of_lookup known), rfl⟩⟩

/-- References are answered as soon as measures are, with as many of them idle. -/
theorem recalling_of_works {measure : Measure}
    (works : ∀ {t : Table} {m : Measure} {s s' : State} {found : Option String},
      t ∈ source.model.tables → m ∈ t.measures →
        (calculatedMeasure source idle t m).run s = .ok (found, s') → Works source idle s s' ∧
          ∀ name ∈ found, s'.measures.resolved.lookup (Key.measure t.name m.name) = some name) :
    Recalling source idle (referencesOf source idle measure) := by
  intro target s s' found asked
  cases target with
  | aggregate call => exact aggregateMetric_works asked
  | measure name =>
    obtain ⟨t, m, known, ht, hm, asked⟩ | ⟨rfl, rfl⟩ := resolve_measure_ok asked
    · obtain ⟨works, answer⟩ := works ht hm asked
      exact ⟨works, fun name same => .measure known (answer name same)⟩
    · exact ⟨.refl _ _ _, fun _ wrong => nomatch wrong⟩

theorem calculatedMeasure_works {idle : List String} {owner : Table} {measure : Measure}
    {s s' : State} {found : Option String} (ho : owner ∈ source.model.tables)
    (hm : measure ∈ owner.measures)
    (h : (calculatedMeasure source idle owner measure).run s = .ok (found, s')) :
    Works source idle s s' ∧ ∀ name ∈ found,
      s'.measures.resolved.lookup (Key.measure owner.name measure.name) = some name := by
  let key := Key.measure owner.name measure.name
  -- The measure itself is not idle while its formula is rendered, so it stays unresolved.
  have first {outcome : Except String String} {s₁ : State} (idleKey : key ∈ idle)
      (absent : s.measures.resolved.lookup key = none)
      (rendered : (renderMeasure (referencesOf source (withoutKey key idle) measure) measure).run
        s = .ok (outcome, s₁)) :
      Works source idle s s₁ ∧ s₁.measures.resolved.lookup key = none ∧
        ∀ expression, outcome = .ok expression →
          RenderedFrom (Known source s₁) measure expression := by
    have fewer := withoutKey_length_lt idleKey
    obtain ⟨inner, complete⟩ := renderMeasure_works source (withoutKey key idle)
      (recalling_of_works fun ht hm asked => calculatedMeasure_works ht hm asked) rendered
    exact ⟨inner.mono (List.filter_subset_self _),
      (inner.confined _ (by simp [withoutKey])).trans absent, complete⟩
  cases calculatedMeasure_cases h with
  | known present _ same => exact ⟨same ▸ .refl _ _ _, fun name some => same ▸ present.trans some⟩
  | busy _ none noted => exact ⟨log_works noted, fun name some => nomatch none.symm.trans some⟩
  | rendered idleKey absent rendered emitted =>
    obtain ⟨inner, unresolved, complete⟩ := first idleKey absent rendered
    have translated := complete _ rfl
    obtain ⟨last, answer⟩ : Works source idle _ s' ∧ _ := Works.nameMetricCalc
      (fun _ => rfl) idleKey unresolved
      (fun name => ⟨owner, ho, measure, hm, Or.inr ⟨rfl, translated⟩⟩)
      (fun names name _ => ⟨owner, ho, measure, hm, rfl, translated.reason⟩) emitted
    exact ⟨inner.trans last, answer⟩
  | placeholder idleKey absent rendered noted emitted =>
    obtain ⟨inner, unresolved, -⟩ := first idleKey absent rendered
    obtain ⟨only, -⟩ := log_onlyNames noted
    obtain ⟨last, answer⟩ : Works source idle _ s' ∧ _ := Works.nameMetricCalc
      (fun _ => rfl) idleKey (only.measures ▸ unresolved)
      (fun name => ⟨owner, ho, measure, hm, Or.inl rfl⟩)
      (fun names name known => ⟨owner, ho, measure, hm, rfl, .placeholder known
        (List.mem_append_right _ (List.mem_singleton_self _))⟩) emitted
    exact ⟨(inner.trans only.works).trans last, answer⟩
termination_by idle.length
decreasing_by
  assumption

theorem resolveCalculatedMeasures_linked {t : Table} (ht : t ∈ source.model.tables)
    (h : (resolveCalculatedMeasures source t).run s = .ok (u, s')) (linked : Linked source s) :
    Linked source s' := by
  obtain ⟨_, _, loop, h⟩ := bind_ok h
  obtain ⟨-, rfl⟩ := pure_ok h
  refine forIn_ok (P := Linked source) linked (fun m hm s₁ s₂ r turn before => ?_) loop
  obtain ⟨_, s₃, made, turn⟩ := bind_ok turn
  obtain ⟨-, rfl⟩ := pure_ok turn
  exact (calculatedMeasure_works ht hm made).1.linked before

theorem ensureDataset_linked {t : Table} {name : String}
    (h : (ensureDataset source t).run s = .ok (name, s')) (linked : Linked source s) :
    Linked source s' := by
  obtain ⟨name, s₁, named, h⟩ := bind_ok h
  obtain ⟨_, _, got, h⟩ := bind_ok h
  obtain ⟨rfl, rfl⟩ := get_ok got
  have first : Works source [] s s₁ := (datasetName_answered named).toOnlyNames.works
  split at h
  · obtain ⟨-, rfl⟩ := pure_ok h
    exact first.linked linked
  · obtain ⟨_, s₂, noted, h⟩ := bind_ok h
    obtain ⟨_, s₃, stored, h⟩ := bind_ok h
    obtain ⟨-, rfl⟩ := pure_ok h
    have second : Works source [] s₁ s₂ := log_works noted
    obtain ⟨o, added, rfl⟩ := store_ok stored
    obtain ⟨rfl, -⟩ := Output.addDataset_ok added
    exact (second.linked (first.linked linked)).grow (fun _ _ known => known) rfl
      (List.Subset.refl _) rfl (fun _ _ known => known) fun _ old => Or.inl old

theorem resolveDatasets_linked (h : (resolveDatasets source).run s = .ok (u, s'))
    (linked : Linked source s) : Linked source s' := by
  obtain ⟨s₁, first, second⟩ := resolveDatasets_turns h
  have own : Linked source s₁ := first.keeps (fun t ht s₂ s₃ turn before => by
    cases turn with
    | unused _ same => exact same ▸ before
    | measureOnly _ resolved => exact resolveCalculatedMeasures_linked ht resolved before
    | placed _ _ ensured resolved =>
      exact resolveCalculatedMeasures_linked ht resolved (ensureDataset_linked ensured before))
    linked
  refine second.keeps (fun name _ s₂ s₃ turn before => ?_) own
  cases turn with
  | unknown _ same => exact same ▸ before
  | placed _ ensured => exact ensureDataset_linked ensured before

theorem simpleMeasure_linked {t : Table} {m : Measure} {call : Formula.AggregateCall}
    (ht : t ∈ source.model.tables) (hm : m ∈ t.measures)
    (single : Formula.singleAggregate m.expression.text.toList = some call)
    (h : (simpleMeasure source t m call).run s = .ok (u, s')) (linked : Linked source s) :
    Linked source s' := by
  obtain ⟨found, s₁, asked, h⟩ := bind_ok h
  obtain ⟨-, only, -, -⟩ := aggregateTarget?_ok .aggregations asked
  have first : Works source [] s s₁ := only.works
  cases found with
  | none =>
    obtain ⟨-, rfl⟩ := pure_ok h
    exact first.linked linked
  | some target =>
    obtain ⟨name, s₂, named, h⟩ := bind_ok h
    obtain ⟨dataset, s₃, placed, h⟩ := bind_ok h
    obtain ⟨_, s₄, registered, resolved⟩ := bind_ok h
    have plain : ∀ suffix ∈ (none : Option String), IsWord suffix := fun _ h => nomatch h
    have second : Works source [] s₁ s₂ := (uniqueName_answered named plain).toOnlyNames.works
    have third : Works source [] s₂ s₃ := (datasetName_answered placed).toOnlyNames.works
    obtain ⟨fourth, -, emitted, -⟩ : Works source [] s₃ s₄ ∧ _ := registerMetric_works registered
    obtain rfl := modify_ok resolved
    exact ((((first.trans second).trans third).trans fourth).linked linked).resolveAs
      (List.mem_append_left _ emitted) ⟨t, ht, m, hm, rfl, .aggregation call single⟩

theorem resolveSimpleMeasures_linked (h : (resolveSimpleMeasures source).run s = .ok (u, s'))
    (linked : Linked source s) : Linked source s' := by
  refine (resolveSimpleMeasures_all (P := Linked source) (Q := fun _ _ _ => True) linked
    (fun _ _ _ _ => trivial) (fun t ht m hm call s₁ s₂ u single made before => ?_) h).1
  exact ⟨simpleMeasure_linked ht hm single made before, trivial, fun _ _ => id⟩

end SemanticLayer.Conversion
