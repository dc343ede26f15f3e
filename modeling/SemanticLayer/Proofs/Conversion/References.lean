import SemanticLayer.Proofs.Conversion.Measures
import SemanticLayer.Proofs.Formula.Completeness

set_option autoImplicit false

/-!
The order in which measures are resolved. A formula that is rendered refers to what was there
before, whatever the references among measures look like: a measure enters the memo only after all
that its formula refers to. `Works` says how a run of a formula goes on; the measures that are
being worked on stay as they are.
-/
namespace SemanticLayer.Conversion

open Formula (MeasureSource Reference Renders ofText)
open Identifier (Registry)
open Identifier
open Tabular (Table Measure)

/-- Every entry of a list is good over the entries before it. -/
def Layered {A : Type} (ok : List A → A → Prop) (entries : List A) : Prop :=
  ∀ before e after, entries = before ++ e :: after → ok before e

theorem Layered.nil {A : Type} (ok : List A → A → Prop) : Layered ok [] :=
  fun before e after h => by cases before <;> cases h

theorem Layered.concat {A : Type} {ok : List A → A → Prop} {entries : List A} {e : A}
    (h : Layered ok entries) (last : ok entries e) : Layered ok (entries ++ [e]) := by
  -- The entry is the last one, or there is something behind it that ends in the last one.
  intro before e' after shape
  rcases List.eq_nil_or_concat after with rfl | ⟨after, d, rfl⟩
  · obtain ⟨rfl, same⟩ := List.append_inj' shape rfl
    rwa [← List.singleton_inj.1 same]
  · rw [List.concat_eq_append, ← List.cons_append, ← List.append_assoc] at shape
    exact h before e' after (List.append_inj' shape rfl).1

theorem Layered.mono {A : Type} {ok ok' : List A → A → Prop} {entries : List A}
    (h : Layered ok entries) (more : ∀ before e, ok before e → ok' before e) :
    Layered ok' entries :=
  fun before e after shape => more before e (h before e after shape)

/-- The texts that a measure is rendered from: its formula as it is written, and its normal form. -/
def forms (m : Measure) : List String :=
  [Text.trimmed m.expression.text,
    String.ofList (Formula.normalize (Text.trimmed m.expression.text).toList)]

/-- An expression is the whole formula of a measure, with answers in place of its references. -/
def RenderedFrom (answers : Reference → String → Prop) (m : Measure) (expression : String) : Prop :=
  ∃ form ∈ forms m, ∃ text, Renders answers (ofText form) text ∧
    expression = String.ofList (Text.trim text)

theorem RenderedFrom.mono {answers answers' : Reference → String → Prop} {m : Measure}
    {expression : String} (h : RenderedFrom answers m expression)
    (more : ∀ target name, answers target name → answers' target name) :
    RenderedFrom answers' m expression := by
  obtain ⟨form, listed, text, renders, same⟩ := h
  exact ⟨form, listed, text, renders.mono fun target _ => more target, same⟩

theorem RenderedFrom.shaped {answers : Reference → String → Prop} {m : Measure}
    {expression : String} (h : RenderedFrom answers m expression) :
    RenderedFrom (fun target name => target.Shaped ∧ answers target name) m expression := by
  obtain ⟨form, listed, text, renders, same⟩ := h
  exact ⟨form, listed, text, renders.mono fun target found _ known =>
    ⟨Formula.shaped_of_mem_targets _ target found, known⟩, same⟩

section Definitions

variable (source : Source)

/-- What a reference has become. -/
inductive Known (s : State) : Reference → String → Prop where
  | aggregate {call : Formula.AggregateCall} {target : AggregateTarget} {name : String}
      (found : aggregateTarget source call = .ok target)
      (known : s.measures.aggregates.lookup target.key = some name) :
      Known s (.aggregate call) name
  | measure {written name : String} {t : Table} {m : Measure}
      (found : referencedMeasure? source.model written = some (t, m))
      (known : s.measures.resolved.lookup (Key.measure t.name m.name) = some name) :
      Known s (.measure written) name

/-- A calculated metric is a placeholder, or the formula of its measure with answers in place of
references. -/
def Translated (answers : Reference → String → Prop) (e : MetricCalc) : Prop :=
  ∃ t ∈ source.model.tables, ∃ m ∈ t.measures, e = placeholderCalc m e.uniqueName ∨
    e = renderedCalc m e.uniqueName e.expression ∧ RenderedFrom answers m e.expression

/-- A call is answered by the metric that the memo knows for it. -/
def KnownCall (s : State) (target : Reference) (name : String) : Prop :=
  ∀ call, target = .aggregate call → Known source s target name

/-- A calculated metric is a placeholder, or refers to metrics and to earlier calculated metrics. -/
def CalcOf (metrics : List Metric) (before : List MetricCalc) (e : MetricCalc) : Prop :=
  ∃ t ∈ source.model.tables, ∃ m ∈ t.measures, e = placeholderCalc m e.uniqueName ∨
    e = renderedCalc m e.uniqueName e.expression ∧
      RenderedFrom (fun _ name => name ∈ metrics.map (·.uniqueName) ∨
        name ∈ before.map (·.uniqueName)) m e.expression

/-- Why a measure could be resolved: it is an aggregation, or all measures that its formula refers
to were resolved earlier, or its formula was given up. -/
inductive Reason (names : Registry) (calcs : List MetricCalc) (before : List (String × String))
    (m : Measure) (key name : String) : Prop where
  | aggregation (call : Formula.AggregateCall)
      (h : Formula.singleAggregate m.expression.text.toList = some call)
  | rendered (form : String) (listed : form ∈ forms m) (understood : (ofText form).Understood)
      (earlier : ∀ written, .measure written ∈ (ofText form).targets → ∃ t' m',
        referencedMeasure? source.model written = some (t', m') ∧
          Key.measure t'.name m'.name ∈ before.map Prod.fst)
  | placeholder (known : names.lookup key = some name) (made : placeholderCalc m name ∈ calcs)

/-- An entry of the memo belongs to a measure that could be resolved after the entries before. -/
def Settled (names : Registry) (calcs : List MetricCalc) (before : List (String × String))
    (entry : String × String) : Prop :=
  ∃ t ∈ source.model.tables, ∃ m ∈ t.measures, entry.1 = Key.measure t.name m.name ∧
    Reason source names calcs before m entry.1 entry.2

/-- The memo leads to emitted objects only and to all calculated metrics, and both the calculated
metrics and the entries of the memo come after what they refer to. -/
structure Linked (s : State) : Prop where
  aggregates : ∀ e ∈ s.measures.aggregates, e.2 ∈ s.output.metrics.map (·.uniqueName)
  resolved : ∀ e ∈ s.measures.resolved, e.2 ∈ s.output.measureNames
  listed : s.output.metricCalcs.map (·.uniqueName) ⊆ s.measures.resolved.map Prod.snd
  calcs : Layered (CalcOf source s.output.metrics) s.output.metricCalcs
  answers : ∀ e ∈ s.output.metricCalcs, Translated source (KnownCall source s) e
  order : Layered (Settled source s.names s.output.metricCalcs) s.measures.resolved.reverse

/-- How a run goes on while the measures outside `idle` are being worked on. -/
structure Works (idle : List String) (s s' : State) : Prop where
  recalls : ∀ target name, Known source s target name → Known source s' target name
  confined : ∀ key ∉ idle,
    s'.measures.resolved.lookup key = s.measures.resolved.lookup key
  linked : Linked source s → Linked source s'

end Definitions

variable {source : Source} {idle : List String} {s s' : State} {u : Unit}

theorem Reason.mono {names names' : Registry} {calcs calcs' : List MetricCalc}
    {before : List (String × String)} {m : Measure} {key name : String}
    (h : Reason source names calcs before m key name)
    (more : ∀ key name, names.lookup key = some name → names'.lookup key = some name)
    (kept : calcs ⊆ calcs') : Reason source names' calcs' before m key name := by
  cases h with
  | aggregation call h => exact .aggregation call h
  | rendered form listed understood earlier => exact .rendered form listed understood earlier
  | placeholder known made => exact .placeholder (more _ _ known) (kept made)

theorem Settled.mono {names names' : Registry} {calcs calcs' : List MetricCalc}
    {before : List (String × String)} {entry : String × String}
    (h : Settled source names calcs before entry)
    (more : ∀ key name, names.lookup key = some name → names'.lookup key = some name)
    (kept : calcs ⊆ calcs') : Settled source names' calcs' before entry := by
  obtain ⟨t, ht, m, hm, key, reason⟩ := h
  exact ⟨t, ht, m, hm, key, reason.mono more kept⟩

theorem Translated.mono {answers answers' : Reference → String → Prop} {e : MetricCalc}
    (h : Translated source answers e)
    (more : ∀ target name, answers target name → answers' target name) :
    Translated source answers' e := by
  obtain ⟨t, ht, m, hm, placeholder | ⟨shape, rendered⟩⟩ := h
  · exact ⟨t, ht, m, hm, Or.inl placeholder⟩
  · exact ⟨t, ht, m, hm, Or.inr ⟨shape, rendered.mono more⟩⟩

theorem CalcOf.mono {metrics metrics' : List Metric} {before : List MetricCalc} {e : MetricCalc}
    (h : CalcOf source metrics before e)
    (more : metrics.map (·.uniqueName) ⊆ metrics'.map (·.uniqueName)) :
    CalcOf source metrics' before e :=
  Translated.mono h fun _ _ => Or.imp_left fun h => more h

theorem KnownCall.mono {target : Reference} {name : String} (h : KnownCall source s target name)
    (recalls : ∀ key found, s.measures.aggregates.lookup key = some found →
      s'.measures.aggregates.lookup key = some found) : KnownCall source s' target name := by
  rintro call rfl
  cases h call rfl with
  | aggregate found known => exact .aggregate found (recalls _ _ known)

theorem Works.refl (source : Source) (idle : List String) (s : State) : Works source idle s s :=
  ⟨fun _ _ h => h, fun _ _ => rfl, id⟩

theorem Works.trans {s'' : State} (h : Works source idle s s') (h' : Works source idle s' s'') :
    Works source idle s s'' where
  recalls target name known := h'.recalls target name (h.recalls target name known)
  confined key busy := (h'.confined key busy).trans (h.confined key busy)
  linked := h'.linked ∘ h.linked

theorem Works.mono {idle' : List String} (h : Works source idle s s') (more : idle ⊆ idle') :
    Works source idle' s s' :=
  { h with confined := fun key busy => h.confined key fun free => busy (more free) }

theorem Linked.grow (h : Linked source s)
    (names : ∀ key name, s.names.lookup key = some name → s'.names.lookup key = some name)
    (calcs : s'.output.metricCalcs = s.output.metricCalcs)
    (metrics : s.output.metrics.map (·.uniqueName) ⊆ s'.output.metrics.map (·.uniqueName))
    (resolved : s'.measures.resolved = s.measures.resolved)
    (recalls : ∀ key found, s.measures.aggregates.lookup key = some found →
      s'.measures.aggregates.lookup key = some found)
    (aggregates : ∀ e ∈ s'.measures.aggregates,
      e ∈ s.measures.aggregates ∨ e.2 ∈ s'.output.metrics.map (·.uniqueName)) :
    Linked source s' where
  aggregates e he := (aggregates e he).elim (fun old => metrics (h.aggregates e old)) id
  resolved e he := by
    rw [resolved] at he
    rw [Output.measureNames, calcs]
    exact (List.mem_append.1 (h.resolved e he)).elim
      (fun metric => List.mem_append_left _ (metrics metric)) (List.mem_append_right _)
  listed := by rw [calcs, resolved]; exact h.listed
  calcs := by
    rw [calcs]
    exact h.calcs.mono fun before e made => made.mono metrics
  answers e he := by
    rw [calcs] at he
    exact (h.answers e he).mono fun _ _ known => known.mono recalls
  order := by
    rw [calcs, resolved]
    exact h.order.mono fun before e settled => settled.mono names (List.Subset.refl _)

theorem Linked.resolveAs (h : Linked source s) {key name : String}
    (emitted : name ∈ s.output.measureNames)
    (settled :
      Settled source s.names s.output.metricCalcs s.measures.resolved.reverse (key, name)) :
    Linked source { s with measures :=
      { s.measures with resolved := (key, name) :: s.measures.resolved } } where
  aggregates := h.aggregates
  resolved entry he := by
    rcases List.mem_cons.1 he with rfl | old
    · exact emitted
    · exact h.resolved entry old
  listed := List.Subset.trans h.listed (List.subset_cons_self _ _)
  calcs := h.calcs
  answers e he := (h.answers e he).mono fun _ _ known => known.mono fun _ _ same => same
  order := by
    change Layered _ ((key, name) :: s.measures.resolved).reverse
    rw [List.reverse_cons]
    exact h.order.concat settled

theorem Known.mem_measureNames (linked : Linked source s) {target : Reference} {name : String}
    (h : Known source s target name) : name ∈ s.output.measureNames := by
  cases h with
  | aggregate _ known => exact List.mem_append_left _ (linked.aggregates _ (mem_of_lookup known))
  | measure _ known => exact linked.resolved _ (mem_of_lookup known)

theorem Known.congr (h : s'.measures = s.measures) {target : Reference} {name : String}
    (known : Known source s target name) : Known source s' target name := by
  cases known with
  | aggregate found known => exact .aggregate found (h ▸ known)
  | measure found known => exact .measure found (h ▸ known)

theorem Translated.calcOf {e : MetricCalc} (h : Translated source (Known source s) e)
    (linked : Linked source s) : CalcOf source s.output.metrics s.output.metricCalcs e :=
  h.mono fun _ _ known => List.mem_append.1 (known.mem_measureNames linked)

theorem Linked.addMetricCalc (h : Linked source s) {e : MetricCalc} {key : String}
    (made : Translated source (Known source s) e)
    (settled : Settled source s.names (s.output.metricCalcs ++ [e]) s.measures.resolved.reverse
      (key, e.uniqueName)) :
    Linked source { s with
      output := { s.output with metricCalcMap := s.output.metricCalcMap.insert e }
      measures := { s.measures with resolved := (key, e.uniqueName) :: s.measures.resolved } } where
  aggregates := h.aggregates
  resolved entry he := by
    change entry.2 ∈ _ ++ (s.output.metricCalcs ++ [e]).map (·.uniqueName)
    rw [List.map_append, ← List.append_assoc]
    rcases List.mem_cons.1 he with rfl | old
    · exact List.mem_append_right _ (List.mem_singleton_self _)
    · exact List.mem_append_left _ (h.resolved entry old)
  listed name found := by
    rw [List.map_append] at found
    rcases List.mem_append.1 found with old | new
    · exact List.mem_cons_of_mem _ (h.listed old)
    · rw [List.mem_singleton.1 new]
      exact List.mem_cons_self
  calcs := h.calcs.concat (made.calcOf h)
  answers e' he' := by
    rcases List.mem_append.1 he' with old | new
    · exact (h.answers e' old).mono fun _ _ known => known.mono fun _ _ same => same
    · rw [List.mem_singleton.1 new]
      refine made.mono fun target name known call same => ?_
      subst same
      cases known with
      | aggregate found known => exact .aggregate found known
  order := by
    change Layered _ ((key, e.uniqueName) :: s.measures.resolved).reverse
    rw [List.reverse_cons]
    exact (h.order.mono fun before entry settled =>
      settled.mono (fun _ _ known => known) (List.subset_append_left _ _)).concat settled

theorem OnlyNames.works (h : OnlyNames s s') : Works source idle s s' where
  recalls _ _ := Known.congr h.measures
  confined _ _ := by rw [h.measures]
  linked linked := linked.grow (fun _ _ => h.names.lookup) (by rw [h.output])
    (by rw [h.output]; exact List.Subset.refl _) (by rw [h.measures])
    (fun _ _ known => by rwa [h.measures]) fun e he => Or.inl (h.measures ▸ he)

end SemanticLayer.Conversion
