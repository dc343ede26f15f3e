import SemanticLayer.Proofs.Conversion.Frame
import SemanticLayer.Proofs.Conversion.Measures

set_option autoImplicit false

/-!
Measures that become calculated metrics. The induction is on the measures that are not being worked
on; a formula asks for its references only, so that its own measure, unresolved at the start, is
what its calculated metric is new for.
-/
namespace SemanticLayer.Conversion

open Formula (MeasureSource Rendering)
open Identifier (IsWord)
open Identifier
open Tabular (Table Measure)

variable {source : Source} {phase : Phase} {s s' : State} {u : Unit}

theorem Moves.addMetricCalc {s₁ : State} {key : String} {m : MetricCalc}
    (before : Moves source .formulas s s₁) (kind : Key.word key = "measure")
    (unresolved : s.measures.resolved.lookup key = none)
    (known : s₁.names.lookup key = some m.uniqueName)
    (image : ∃ t e, MeasureImage source s₁.names t e m.uniqueName m.label)
    (h : (store (·.addMetricCalc m)).run s₁ = .ok (u, s')) :
    Moves source .formulas s s' ∧ m.uniqueName ∈ s'.output.measureNames := by
  obtain ⟨o, added, rfl⟩ := store_ok h
  obtain ⟨rfl, distinct⟩ := Output.addMetricCalc_ok added
  have more : s₁.output.measureNames ⊆
      ({ s₁.output with metricCalcMap := s₁.output.metricCalcMap.insert m } : Output).measureNames := by
    intro name found
    rcases List.mem_append.1 found with metric | computed
    · exact List.mem_append_left _ metric
    · refine List.mem_append_right _ ?_
      rw [List.map_append]
      exact List.mem_append_left _ computed
  have grows : Grows s₁
      { s₁ with output := { s₁.output with metricCalcMap := s₁.output.metricCalcMap.insert m } } := {
    Grows.refl s₁ with measureNames := more }
  refine ⟨⟨{
    before.extension.toGrows.trans grows with
    tables := before.extension.tables
    newMetrics := before.extension.newMetrics
    newCalcs := fun name found => ?_
    newTables := nofun }, fun fresh sound => ?_⟩, ?_⟩
  · rw [List.map_append] at found
    rcases List.mem_append.1 found with old | new
    · exact before.extension.newCalcs name old
    · rw [List.mem_singleton.1 new]
      exact Or.inr ⟨rfl, key, kind, known, unresolved⟩
  · have mid := before.sound fresh sound
    refine mid.extend grows {
      metricCalcs := fun e he => (List.mem_append.1 he).imp_right fun new => ?_
      distinct } (mid.indexed.mono grows (.of_eq rfl))
    rwa [List.mem_singleton.1 new]
  · refine List.mem_append_right _ ?_
    rw [List.map_append]
    exact List.mem_append_right _ (List.mem_singleton_self _)

theorem Moves.nameMetricCalc {s₁ : State} {owner : Table} {measure : Measure}
    {made : String → MetricCalc} {found : Option String} (before : Moves source .formulas s s₁)
    (ho : owner ∈ source.model.tables) (hm : measure ∈ owner.measures)
    (unresolved : s.measures.resolved.lookup (Key.measure owner.name measure.name) = none)
    (sameName : ∀ name, (made name).uniqueName = name)
    (label : ∀ name, (made name).label = measure.name)
    (h : (emitCalc owner measure made).run s₁ = .ok (found, s')) :
    Moves source .formulas s s' := by
  obtain ⟨name, s₂, named, h⟩ := bind_ok h
  obtain ⟨_, s₃, stored, h⟩ := bind_ok h
  obtain ⟨_, s₄, resolved, h⟩ := bind_ok h
  obtain ⟨-, rfl⟩ := pure_ok h
  have kind := Key.word_measure owner.name measure.name
  have answer := uniqueName_answered named fun _ h => nomatch h
  have taken : Moves source .formulas s s₂ :=
    before.trans (answer.moves (by rw [calcRequest, kind]; decide)
      (by rw [calcRequest, kind]; decide))
  obtain ⟨moved, emitted⟩ := taken.addMetricCalc kind unresolved
    (by rw [sameName]; exact answer.known)
    (by rw [sameName, label]; exact ⟨owner, measure, ho, hm, answer.known, rfl⟩) stored
  rw [sameName] at emitted
  have known : s₃.names.lookup (Key.measure owner.name measure.name) = some name := by
    obtain ⟨o, -, rfl⟩ := store_ok stored
    exact answer.known
  exact moved.trans (resolveAs_moves resolved emitted known)

theorem mem_of_referencedMeasure? {model : Tabular.Model} {name : String} {t : Table} {m : Measure}
    (h : referencedMeasure? model name = some (t, m)) : t ∈ model.tables ∧ m ∈ t.measures := by
  obtain ⟨t', ht', found⟩ := List.exists_of_findSome?_eq_some h
  obtain ⟨m', known, same⟩ := Option.map_eq_some_iff.1 found
  cases same
  exact ⟨ht', List.mem_of_find?_eq_some known⟩

theorem resolve_measure_ok {idle : List String} {measure : Measure} {name : String}
    {found : Option String}
    (asked : ((Formula.Reference.measure name).resolve (referencesOf source idle measure)).run s =
      .ok (found, s')) :
    (∃ t m, referencedMeasure? source.model name = some (t, m) ∧ t ∈ source.model.tables ∧
      m ∈ t.measures ∧ (calculatedMeasure source idle t m).run s = .ok (found, s')) ∨
    found = none ∧ s = s' := by
  dsimp only [Formula.Reference.resolve, referencesOf] at asked
  split at asked
  · rename_i t m known
    obtain ⟨ht, hm⟩ := mem_of_referencedMeasure? known
    exact Or.inl ⟨t, m, known, ht, hm, asked⟩
  · obtain ⟨rfl, same⟩ := pure_ok asked
    exact Or.inr ⟨rfl, same⟩

/-- How a measure comes to its answer: it is known, or it is being worked on and has none, or it
becomes a calculated metric with what its formula is rendered as, or with a placeholder. -/
inductive CalculatedBy (source : Source) (idle : List String) (owner : Table) (measure : Measure)
    (found : Option String) (s s' : State) : Prop
  | known (present : s.measures.resolved.lookup (Key.measure owner.name measure.name) = found)
      (some : found ≠ none) (same : s = s')
  | busy {entries : List Diagnostic} (work : Key.measure owner.name measure.name ∉ idle)
      (none : found = none) (noted : (log entries).run s = .ok (⟨⟩, s'))
  | rendered {expression : String} {s₁ : State}
      (idleKey : Key.measure owner.name measure.name ∈ idle)
      (absent : s.measures.resolved.lookup (Key.measure owner.name measure.name) = none)
      (rendered : (renderMeasure (referencesOf source
        (withoutKey (Key.measure owner.name measure.name) idle) measure) measure).run s =
          .ok (.ok expression, s₁))
      (emitted : (emitCalc owner measure fun name => renderedCalc measure name expression).run s₁ =
        .ok (found, s'))
  | placeholder {remainder : String} {entries : List Diagnostic} {s₁ s₂ : State}
      (idleKey : Key.measure owner.name measure.name ∈ idle)
      (absent : s.measures.resolved.lookup (Key.measure owner.name measure.name) = none)
      (rendered : (renderMeasure (referencesOf source
        (withoutKey (Key.measure owner.name measure.name) idle) measure) measure).run s =
          .ok (.error remainder, s₁))
      (noted : (log entries).run s₁ = .ok (⟨⟩, s₂))
      (emitted : (emitCalc owner measure (placeholderCalc measure)).run s₂ = .ok (found, s'))

section Calculated

variable {idle : List String} {owner : Table} {measure : Measure} {found : Option String}

theorem calculatedMeasure_cases
    (h : (calculatedMeasure source idle owner measure).run s = .ok (found, s')) :
    CalculatedBy source idle owner measure found s s' := by
  rw [calculatedMeasure_eq] at h
  obtain ⟨_, _, got, h⟩ := bind_ok h
  obtain ⟨rfl, rfl⟩ := get_ok got
  split at h
  · rename_i name present
    obtain ⟨rfl, same⟩ := pure_ok h
    exact .known present (Option.some_ne_none name) same
  rename_i absent
  split at h
  · rename_i idleKey
    obtain ⟨outcome, s₁, rendered, h⟩ := bind_ok h
    cases outcome with
    | error remainder =>
      obtain ⟨_, s₂, noted, emitted⟩ := bind_ok h
      exact .placeholder idleKey absent rendered noted emitted
    | ok expression => exact .rendered idleKey absent rendered h
  · rename_i work
    obtain ⟨_, s₁, noted, h⟩ := bind_ok h
    obtain ⟨rfl, rfl⟩ := pure_ok h
    exact .busy work rfl noted

theorem calculatedMeasure_moves {idle : List String} {owner : Table} {measure : Measure}
    {s s' : State} {found : Option String} (ho : owner ∈ source.model.tables)
    (hm : measure ∈ owner.measures)
    (h : (calculatedMeasure source idle owner measure).run s = .ok (found, s')) :
    Moves source .formulas s s' := by
  let key := Key.measure owner.name measure.name
  -- The formula is worked on with one idle measure less, which is what the induction is on.
  have first {outcome : Except String String} {s₁ : State} (idleKey : key ∈ idle)
      (rendered : (renderMeasure (referencesOf source (withoutKey key idle) measure) measure).run
        s = .ok (outcome, s₁)) : Moves source .formulas s s₁ := by
    have fewer := withoutKey_length_lt idleKey
    refine Keeps.renderMeasure (fun target shaped s s' found asked => ?_)
      (fun _ _ _ _ => log_moves) measure _ _ _ rendered
    cases target with
    | aggregate call => exact aggregateMetric_moves shaped asked
    | measure name =>
      obtain ⟨t, m, -, ht, hm, asked⟩ | ⟨-, rfl⟩ := resolve_measure_ok asked
      · exact calculatedMeasure_moves ht hm asked
      · exact .refl _ _ _
  cases calculatedMeasure_cases h with
  | known _ _ same => exact same ▸ .refl _ _ _
  | busy _ _ noted => exact log_moves noted
  | rendered idleKey absent rendered emitted =>
    exact (first idleKey rendered).nameMetricCalc ho hm absent (fun _ => rfl) (fun _ => rfl) emitted
  | placeholder idleKey absent rendered noted emitted =>
    exact ((first idleKey rendered).trans (log_moves noted)).nameMetricCalc ho hm absent
      (fun _ => rfl) (fun _ => rfl) emitted
termination_by idle.length
decreasing_by
  assumption

def IsResolved (t : Table) (m : Measure) (s : State) : Prop :=
  s.measures.resolved.lookup (Key.measure t.name m.name) ≠ none

theorem emitCalc_resolved {made : String → MetricCalc}
    (h : (emitCalc owner measure made).run s = .ok (found, s')) :
    IsResolved owner measure s' := by
  obtain ⟨name, s₁, -, h⟩ := bind_ok h
  obtain ⟨_, s₂, -, h⟩ := bind_ok h
  obtain ⟨_, s₃, resolved, h⟩ := bind_ok h
  obtain ⟨-, rfl⟩ := pure_ok h
  obtain rfl := modify_ok resolved
  change List.lookup _ ((_, name) :: s₂.measures.resolved) ≠ none
  rw [List.lookup_cons_self]
  exact Option.some_ne_none _

theorem calculatedMeasure_resolved (idleKey : Key.measure owner.name measure.name ∈ idle)
    (h : (calculatedMeasure source idle owner measure).run s = .ok (found, s')) :
    IsResolved owner measure s' := by
  cases calculatedMeasure_cases h with
  | known present some same =>
    subst same
    rwa [IsResolved, present]
  | busy work => exact absurd idleKey work
  | rendered _ _ _ emitted => exact emitCalc_resolved emitted
  | placeholder _ _ _ _ emitted => exact emitCalc_resolved emitted

end Calculated

theorem mem_measureKeys {model : Tabular.Model} {t : Table} {m : Measure} (ht : t ∈ model.tables)
    (hm : m ∈ t.measures) : Key.measure t.name m.name ∈ measureKeys model :=
  List.mem_flatMap.2 ⟨t, ht, List.mem_map_of_mem hm⟩

theorem resolveCalculatedMeasures_ok {t : Table} (ht : t ∈ source.model.tables)
    (h : (resolveCalculatedMeasures source t).run s = .ok (u, s')) :
    Moves source .formulas s s' ∧ ∀ m ∈ t.measures, IsResolved t m s' := by
  obtain ⟨_, _, loop, h⟩ := bind_ok h
  obtain ⟨-, rfl⟩ := pure_ok h
  refine forIn_all (P := Moves source .formulas s)
    (Q := IsResolved t) (.refl _ _ _)
    (fun m hm s₁ s₂ r turn before => ?_) loop
  obtain ⟨_, s₃, made, turn⟩ := bind_ok turn
  obtain ⟨rfl, rfl⟩ := pure_ok turn
  have moves := calculatedMeasure_moves ht hm made
  exact ⟨rfl, before.trans moves, calculatedMeasure_resolved (mem_measureKeys ht hm) made,
    fun _ old => moves.extension.resolved _ old⟩

end SemanticLayer.Conversion
