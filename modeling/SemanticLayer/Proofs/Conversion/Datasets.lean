import SemanticLayer.Proofs.Conversion.Formulas
import SemanticLayer.Proofs.Tabular.Classification

set_option autoImplicit false

namespace SemanticLayer.Conversion

open Identifier
open Tabular (Table)

variable {source : Source} {s s' : State} {u : Unit}

theorem mem_metricTables {name : String} :
    name ∈ s.metricTables ↔ name ∈ s.measures.metricTables.map Prod.snd := by
  rw [State.metricTables, mem_foldl_insertName]
  exact or_iff_right List.not_mem_nil

/-- The table that is found under a name has a dataset. -/
def Based (source : Source) (s : State) (name : String) : Prop :=
  ∀ t, source.model.table? name = some t → HasDataset s t.name

theorem Based.mono {name : String} (h : Based source s name) (grows : Grows s s') :
    Based source s' name :=
  fun t found => (h t found).mono grows

theorem HasDataset.based {name : String} (h : HasDataset s name) : Based source s name := by
  intro t found
  have same : Key.dataset t.name = Key.dataset name :=
    congrArg (fun folded => "dataset" ++ ":" ++ folded) (Tabular.Model.lower_of_table? found)
  rwa [HasDataset, same]

def Backed (source : Source) (s : State) : Prop :=
  ∀ name ∈ s.measures.metricTables.map Prod.snd, Based source s name

theorem Backed.extends (h : Backed source s) (ext : Extends .joins s s') : Backed source s' := by
  intro name backing
  obtain ⟨e, he, rfl⟩ := List.mem_map.1 backing
  rcases ext.newTables rfl e he with old | made
  · exact (h e.2 (List.mem_map_of_mem old)).mono ext.toGrows
  · exact made.based

theorem ensureDataset_ok {t : Table} {name : String} (phase : Phase)
    (h : (ensureDataset source t).run s = .ok (name, s')) (ht : t ∈ source.model.tables) :
    Moves source phase s s' ∧ HasDataset s' t.name ∧ s'.measures = s.measures := by
  obtain ⟨name, s₁, named, h⟩ := bind_ok h
  obtain ⟨_, _, got, h⟩ := bind_ok h
  obtain ⟨rfl, rfl⟩ := get_ok got
  have answer := datasetName_answered named
  split at h
  · rename_i found
    obtain ⟨rfl, rfl⟩ := pure_ok h
    obtain ⟨d, known, same⟩ := List.find?_isSome.1 found
    exact ⟨datasetName_moves named,
      ⟨_, answer.known, List.mem_map.2 ⟨d, known, eq_of_beq same⟩⟩, answer.measures⟩
  · obtain ⟨_, s₂, noted, h⟩ := bind_ok h
    obtain ⟨_, s₃, stored, h⟩ := bind_ok h
    obtain ⟨rfl, rfl⟩ := pure_ok h
    obtain ⟨only, names⟩ := log_onlyNames noted
    have known := names ▸ answer.known
    have before : Moves source phase s s₂ := (datasetName_moves named).trans (log_moves noted)
    obtain ⟨added, made, names', measures⟩ := addDataset_moves stored
      ⟨t, ht, known, s₁.connectionId, rfl⟩
    exact ⟨before.trans added, ⟨_, names' ▸ known, List.mem_map_of_mem made⟩,
      measures.trans (only.measures.trans answer.measures)⟩

/-- A table in use has its measures resolved and, when it holds more than measures, a dataset. -/
structure Placed (lists : TableLists) (t : Table) (s : State) : Prop where
  dataset : t.name ∉ lists.unused → t.name ∉ lists.measureOnly → HasDataset s t.name
  measures : t.name ∉ lists.unused → ∀ m ∈ t.measures, IsResolved t m s

theorem Placed.mono {lists : TableLists} {t : Table} (h : Placed lists t s) (grows : Grows s s') :
    Placed lists t s' where
  dataset used more := (h.dataset used more).mono grows
  measures used m hm := grows.resolved _ (h.measures used m hm)

/-- Datasets are for tables that are in use as more than holders of measures, or that are found
under the name of one that backs a metric. -/
def Needed (source : Source) (lists : TableLists) (s : State) (t : Table) : Prop :=
  t.name ∉ lists.unused ∧ t.name ∉ lists.measureOnly ∨
    ∃ name ∈ s.metricTables, source.model.table? name = some t

theorem ensureDataset_datasets {t : Table} {name : String}
    (h : (ensureDataset source t).run s = .ok (name, s')) :
    ∀ d ∈ s'.output.datasets, d ∈ s.output.datasets ∨ d.label = t.name := by
  obtain ⟨name, s₁, named, h⟩ := bind_ok h
  obtain ⟨_, _, got, h⟩ := bind_ok h
  obtain ⟨rfl, rfl⟩ := get_ok got
  have first : s₁.output.datasets = s.output.datasets :=
    Keeps.datasetName (R := Spares (·.datasets)) t.name _ _ _ named
  split at h
  · obtain ⟨-, rfl⟩ := pure_ok h
    exact fun d hd => Or.inl (first ▸ hd)
  · obtain ⟨_, s₂, noted, h⟩ := bind_ok h
    obtain ⟨_, s₃, stored, h⟩ := bind_ok h
    obtain ⟨-, rfl⟩ := pure_ok h
    have second : s₂.output.datasets = s₁.output.datasets :=
      Keeps.log (R := Spares (·.datasets)) _ _ _ _ noted
    obtain ⟨o, added, rfl⟩ := store_ok stored
    obtain ⟨rfl, -⟩ := Output.addDataset_ok added
    intro d hd
    rcases List.mem_append.1 hd with old | new
    · exact Or.inl (first ▸ second ▸ old)
    · exact Or.inr (List.mem_singleton.1 new ▸ rfl)

/-- What the turn of a table does: nothing, or its measures are resolved, after its dataset is made
unless it holds only measures. -/
inductive TableTurn (source : Source) (t : Table) (s s' : State) : Prop
  | unused (unused : t.name ∈ s.tables.unused) (same : s = s')
  | measureOnly (measureOnly : t.name ∈ s.tables.measureOnly)
      (resolved : (resolveCalculatedMeasures source t).run s = .ok (⟨⟩, s'))
  | placed {name : String} {s₁ : State} (used : t.name ∉ s.tables.unused)
      (more : t.name ∉ s.tables.measureOnly)
      (ensured : (ensureDataset source t).run s = .ok (name, s₁))
      (resolved : (resolveCalculatedMeasures source t).run s₁ = .ok (⟨⟩, s'))

inductive BackingTurn (source : Source) (name : String) (s s' : State) : Prop
  | unknown (missing : source.model.table? name = none) (same : s = s')
  | placed {t : Table} {dataset : String} (found : source.model.table? name = some t)
      (ensured : (ensureDataset source t).run s = .ok (dataset, s'))

/-- The first loop goes over the tables, the second one over the tables that back metrics by then:
some of these are known as mere holders of measures and were passed over. -/
theorem resolveDatasets_turns (h : (resolveDatasets source).run s = .ok (u, s')) :
    ∃ s₁, Turns (TableTurn source) source.model.tables s s₁ ∧
      Turns (BackingTurn source) s₁.metricTables s₁ s' := by
  obtain ⟨_, s₁, first, h⟩ := bind_ok h
  obtain ⟨_, _, got, h⟩ := bind_ok h
  obtain ⟨rfl, rfl⟩ := get_ok got
  obtain ⟨_, s₂, second, h⟩ := bind_ok h
  obtain ⟨-, rfl⟩ := pure_ok h
  refine ⟨s₁, .of_forIn (fun t s₃ s₄ r turn => ?_) first,
    .of_forIn (fun name s₃ s₄ r turn => ?_) second⟩
  · obtain ⟨_, _, got, turn⟩ := bind_ok turn
    obtain ⟨rfl, rfl⟩ := get_ok got
    dsimp only at turn
    split at turn
    · rename_i unused
      obtain ⟨rfl, same⟩ := pure_ok turn
      exact ⟨rfl, .unused (List.contains_iff_mem.1 unused) same⟩
    rename_i used
    split at turn
    · rename_i measureOnly
      obtain ⟨_, s₅, resolved, turn⟩ := bind_ok turn
      obtain ⟨rfl, rfl⟩ := pure_ok turn
      exact ⟨rfl, .measureOnly (List.contains_iff_mem.1 measureOnly) resolved⟩
    · rename_i more
      obtain ⟨_, s₅, ensured, turn⟩ := bind_ok turn
      obtain ⟨_, s₆, resolved, turn⟩ := bind_ok turn
      obtain ⟨rfl, rfl⟩ := pure_ok turn
      rw [List.contains_iff_mem] at used more
      exact ⟨rfl, .placed used more ensured resolved⟩
  · split at turn
    · rename_i t found
      obtain ⟨_, s₅, ensured, turn⟩ := bind_ok turn
      obtain ⟨rfl, rfl⟩ := pure_ok turn
      exact ⟨rfl, .placed found ensured⟩
    · rename_i missing
      obtain ⟨rfl, same⟩ := pure_ok turn
      exact ⟨rfl, .unknown (Option.eq_none_iff_forall_ne_some.2 missing) same⟩

section Turns

variable {t : Table} {name : String}

theorem TableTurn.ok (h : TableTurn source t s s') (ht : t ∈ source.model.tables) :
    Moves source .formulas s s' ∧ Placed s.tables t s' := by
  cases h with
  | unused unused same =>
    exact same ▸ ⟨.refl _ _ _, fun used => absurd unused used, fun used => absurd unused used⟩
  | measureOnly measureOnly resolved =>
    obtain ⟨moves, complete⟩ := resolveCalculatedMeasures_ok ht resolved
    exact ⟨moves, fun _ more => absurd measureOnly more, fun _ => complete⟩
  | placed used more ensured resolved =>
    obtain ⟨moves, made, -⟩ := ensureDataset_ok .formulas ensured ht
    obtain ⟨further, complete⟩ := resolveCalculatedMeasures_ok ht resolved
    exact ⟨moves.trans further, fun _ _ => made.mono further.extension.toGrows, fun _ => complete⟩

theorem TableTurn.datasets (h : TableTurn source t s s') :
    ∀ d ∈ s'.output.datasets, d ∈ s.output.datasets ∨
      d.label = t.name ∧ t.name ∉ s.tables.unused ∧ t.name ∉ s.tables.measureOnly := by
  have spared {s s' : State} {u : Unit}
      (resolved : (resolveCalculatedMeasures source t).run s = .ok (u, s')) :
      s'.output.datasets = s.output.datasets :=
    Keeps.resolveCalculatedMeasures (R := Spares (·.datasets)) source
      (fun _ _ => .addMetric rfl) (fun _ => .addMetricCalc rfl) t _ _ _ resolved
  intro d hd
  cases h with
  | unused _ same => exact Or.inl (same ▸ hd)
  | measureOnly _ resolved => exact Or.inl (spared resolved ▸ hd)
  | placed used more ensured resolved =>
    exact (ensureDataset_datasets ensured d (spared resolved ▸ hd)).imp_right
      fun label => ⟨label, used, more⟩

theorem BackingTurn.ok (h : BackingTurn source name s s') :
    Moves source .formulas s s' ∧ s'.measures = s.measures ∧ Based source s' name := by
  cases h with
  | unknown missing same =>
    exact same ▸ ⟨.refl _ _ _, rfl, fun t found => nomatch missing.symm.trans found⟩
  | placed found ensured =>
    obtain ⟨moves, made, same⟩ := ensureDataset_ok .formulas ensured
      (Tabular.Model.mem_of_table? found)
    exact ⟨moves, same, fun t' found' => Option.some.inj (found.symm.trans found') ▸ made⟩

theorem BackingTurn.datasets (h : BackingTurn source name s s') :
    ∀ d ∈ s'.output.datasets, d ∈ s.output.datasets ∨
      ∃ t, source.model.table? name = some t ∧ d.label = t.name := by
  intro d hd
  cases h with
  | unknown _ same => exact Or.inl (same ▸ hd)
  | placed found ensured =>
    exact (ensureDataset_datasets ensured d hd).imp_right fun label => ⟨_, found, label⟩

end Turns

theorem resolveDatasets_needed (h : (resolveDatasets source).run s = .ok (u, s')) :
    ∀ d ∈ s'.output.datasets, d ∈ s.output.datasets ∨
      ∃ t ∈ source.model.tables, d.label = t.name ∧ Needed source s.tables s' t := by
  obtain ⟨s₁, first, second⟩ := resolveDatasets_turns h
  -- The first loop leaves the classes alone, so each turn asks the same lists.
  let Own (s' : State) : Prop := Extends .formulas s s' ∧ ∀ d ∈ s'.output.datasets,
    d ∈ s.output.datasets ∨ ∃ t ∈ source.model.tables, d.label = t.name ∧
      t.name ∉ s.tables.unused ∧ t.name ∉ s.tables.measureOnly
  have own : Own s₁ := by
    refine first.keeps (P := Own) (fun t ht s₂ s₃ turn before => ?_) ⟨.refl _ _, fun _ => Or.inl⟩
    refine ⟨before.1.trans (turn.ok ht).1.extension, fun d hd => ?_⟩
    rcases turn.datasets d hd with old | ⟨label, used⟩
    · exact before.2 d old
    · rw [before.1.tables] at used
      exact Or.inr ⟨t, ht, label, used⟩
  let All (s' : State) : Prop := s'.measures = s₁.measures ∧ ∀ d ∈ s'.output.datasets,
    d ∈ s.output.datasets ∨ ∃ t ∈ source.model.tables, d.label = t.name ∧
      Needed source s.tables s₁ t
  have all : All s' := by
    refine second.keeps (P := All) (fun name hn s₂ s₃ turn before => ?_) ⟨rfl, fun d hd => ?_⟩
    · refine ⟨turn.ok.2.1.trans before.1, fun d hd => ?_⟩
      rcases turn.datasets d hd with old | ⟨t, found, label⟩
      · exact before.2 d old
      · exact Or.inr ⟨t, Tabular.Model.mem_of_table? found, label, Or.inr ⟨name, hn, found⟩⟩
    · exact (own.2 d hd).imp_right fun ⟨t, ht, label, used⟩ => ⟨t, ht, label, Or.inl used⟩
  intro d hd
  refine (all.2 d hd).imp_right fun ⟨t, ht, label, needed⟩ => ⟨t, ht, label, ?_⟩
  rwa [Needed, State.metricTables, all.1]

theorem resolveDatasets_ok (h : (resolveDatasets source).run s = .ok (u, s')) :
    Moves source .formulas s s' ∧ Backed source s' ∧
      ∀ t ∈ source.model.tables, Placed s.tables t s' := by
  obtain ⟨s₁, first, second⟩ := resolveDatasets_turns h
  obtain ⟨moved, placed⟩ : Moves source .formulas s s₁ ∧ ∀ t ∈ source.model.tables,
      Placed s.tables t s₁ := by
    refine first.all (fun t ht s₂ s₃ turn before => ?_) (.refl _ _ _)
    obtain ⟨moves, made⟩ := turn.ok ht
    exact ⟨before.trans moves, before.extension.tables ▸ made,
      fun _ known => known.mono moves.extension.toGrows⟩
  obtain ⟨⟨later, measures⟩, backed⟩ :
      (Moves source .formulas s₁ s' ∧ s'.measures = s₁.measures) ∧
        ∀ name ∈ s₁.metricTables, Based source s' name := by
    refine second.all (P := fun s' => Moves source .formulas s₁ s' ∧ s'.measures = s₁.measures)
      (Q := fun name s' => Based source s' name) (fun name _ s₂ s₃ turn before => ?_)
      ⟨.refl _ _ _, rfl⟩
    obtain ⟨moves, same, made⟩ := turn.ok
    exact ⟨⟨before.1.trans moves, same.trans before.2⟩, made,
      fun _ known => known.mono moves.extension.toGrows⟩
  refine ⟨moved.trans later, fun name backing => ?_, fun t ht =>
    (placed t ht).mono later.extension.toGrows⟩
  rw [measures] at backing
  exact backed name (mem_metricTables.2 backing)

end SemanticLayer.Conversion
