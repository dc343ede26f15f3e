import SemanticLayer.Proofs.Conversion.Identifiers

set_option autoImplicit false

namespace SemanticLayer

open Tabular (Database Table Measure Column)
open Identifier
open Text (lower)

theorem Tabular.Table.MeasuresApart.eq_of_lower {t : Table} (apart : t.MeasuresApart)
    {m m' : Measure} (h : m ∈ t.measures) (h' : m' ∈ t.measures)
    (same : lower m.name = lower m'.name) : m = m' :=
  List.inj_on_of_nodup_map apart h h' same

theorem filter_key_eq {A K : Type} [DecidableEq K] (key : A → K) {items : List A} {a : A}
    (distinct : (items.map key).Nodup) (h : a ∈ items) :
    items.filter (fun x => key x = key a) = [a] := by
  induction items with
  | nil => cases h
  | cons b items ih =>
    obtain ⟨new, rest⟩ := List.nodup_cons.1 distinct
    rcases List.mem_cons.1 h with rfl | later
    · have none : items.filter (fun x => key x = key a) = [] :=
        List.filter_eq_nil_iff.2 fun x hx same =>
          new (of_decide_eq_true same ▸ List.mem_map_of_mem hx)
      rw [List.filter_cons_of_pos (by simp), none]
    · have other : ¬key b = key a := fun same => new (same ▸ List.mem_map_of_mem later)
      rw [List.filter_cons_of_neg (by simpa using other), ih rest later]

namespace Conversion

abbrev MeasureObject := Metric ⊕ MetricCalc

def MeasureObject.uniqueName : MeasureObject → String
  | .inl m => m.uniqueName
  | .inr m => m.uniqueName

def MeasureObject.label : MeasureObject → String
  | .inl m => m.label
  | .inr m => m.label

def measureObjects (c : Conversion) : List MeasureObject :=
  c.metrics.map .inl ++ c.metricCalcs.map .inr

theorem map_measureObjects (c : Conversion) :
    c.measureObjects.map (·.uniqueName) = c.measureNames := by
  simp only [measureObjects, measureNames, List.map_append, List.map_map]
  rfl

def EndsIn [Sql.Parser] (settings : Settings) (database : Database) (connection : String)
    (c : Conversion) (s : State) : Prop :=
  ∃ catalog m, (run ⟨database.model, settings⟩ database connection).run (.initial settings) =
    .ok ((catalog, m), s) ∧ ofOutput catalog m s = c

variable {source : Source} {s : State}

def ObjectOf (source : Source) (names : Registry) (t : Table) (m : Measure) (o : MeasureObject) :
    Prop :=
  MeasureImage source names t m o.uniqueName o.label

/-- Measures are neither lost nor doubled. -/
structure KeepsMeasures (source : Source) (s : State) (c : Conversion) : Prop where
  once : ∀ t ∈ source.model.tables, ∀ m ∈ t.measures, ∃ o, ObjectOf source s.names t m o ∧
    c.measureObjects.filter (fun o =>
      s.names.lookup (Key.measure t.name m.name) = some o.uniqueName) = [o]
  apart : ∀ t m t' m' o, ObjectOf source s.names t m o → ObjectOf source s.names t' m' o →
    t = t' ∧ m = m'
  metricCalcs : ∀ e ∈ c.metricCalcs, ∃ t m, ObjectOf source s.names t m (.inr e)
  metrics : ∀ e ∈ c.metrics, (∃ t m, ObjectOf source s.names t m (.inl e)) ↔
    ¬HelperOf s.names s.measures.helpers e ∧ ¬∃ t k, ImpliedBy source s.names t k e

theorem MeasureImage.eq {names : Registry} {t t' : Table} {m m' : Measure}
    {name label label' : String} (h : MeasureImage source names t m name label)
    (h' : MeasureImage source names t' m' name label') (registry : names.Apart)
    (fresh : names.exhausted = []) (apart : source.model.TablesApart)
    (measures : ∀ t ∈ source.model.tables, t.MeasuresApart) : t = t' ∧ m = m' := by
  have twin := Registry.key_eq_of_lookup registry fresh h.key h'.key rfl
  obtain ⟨table, inner⟩ :=
    Key.measure_inj (apart.plain t h.table) (apart.plain t' h'.table) twin
  obtain rfl := apart.eq_of_lower h.table h'.table table
  exact ⟨rfl, (measures t h.table).eq_of_lower h.measure h'.measure inner⟩

theorem MeasureImage.not_aggregate {names : Registry} {t : Table} {m : Measure}
    {name label key : String} (h : MeasureImage source names t m name label)
    (registry : names.Apart) (fresh : names.exhausted = []) (kind : Key.word key = "aggregate")
    (known : names.lookup key = some name) : False := by
  obtain rfl := Registry.key_eq_of_lookup registry fresh h.key known rfl
  rw [Key.word_measure] at kind
  exact absurd kind (by decide)

theorem Outcome.object_image {settings : Settings} {database : Database} {catalog : Catalog}
    {m : Model} (outcome : Outcome source settings database catalog m s)
    (fresh : s.names.exhausted = []) {t : Table} {e : Measure} {o : MeasureObject}
    (ho : o ∈ (ofOutput catalog m s).measureObjects) (h : t ∈ source.model.tables)
    (he : e ∈ t.measures) (key : s.names.lookup (Key.measure t.name e.name) = some o.uniqueName) :
    ∃ t' e', ObjectOf source s.names t' e' o := by
  have sound := outcome.sound fresh
  have image : MeasureImage source s.names t e o.uniqueName e.name := ⟨h, he, key, rfl⟩
  rcases List.mem_append.1 ho with metric | computed
  · obtain ⟨x, hx, rfl⟩ := List.mem_map.1 metric
    cases sound.origins x hx with
    | measure t' e' known => exact ⟨t', e', known⟩
    | helper known =>
      obtain ⟨other, kind, known⟩ := known.key
      exact (image.not_aggregate sound.registry fresh kind known).elim
    | column t' k known =>
      obtain ⟨f, -, -, known⟩ := known.key
      exact (image.not_aggregate sound.registry fresh (Key.word_aggregate _ _ _) known).elim
  · obtain ⟨x, hx, rfl⟩ := List.mem_map.1 computed
    exact sound.metricCalcs x hx

theorem Outcome.keepsMeasures {settings : Settings} {database : Database} {catalog : Catalog}
    {m : Model} (outcome : Outcome source settings database catalog m s)
    (fresh : s.names.exhausted = []) (apart : source.model.TablesApart)
    (measures : ∀ t ∈ source.model.tables, t.MeasuresApart) :
    KeepsMeasures source s (ofOutput catalog m s) := by
  have sound := outcome.sound fresh
  have registry := sound.registry
  exact {
    once := fun t ht e he => by
      -- A skipped table has no measures, so each measure has its entry in the memo, and the entry
      -- leads to an object of the result.
      have inUse : t.name ∉ (classify source.model []).unused := fun unused => by
        rw [TableLists.measures_of_unused apart ht unused] at he
        cases he
      obtain ⟨name, resolved⟩ :=
        Option.ne_none_iff_exists'.1 (outcome.resolved t ht inUse e he)
      obtain ⟨emitted, key⟩ := sound.resolved (Key.measure t.name e.name, name)
        (mem_of_lookup resolved)
      change name ∈ (ofOutput catalog m s).measureNames at emitted
      rw [← map_measureObjects] at emitted
      obtain ⟨o, ho, rfl⟩ := List.mem_map.1 emitted
      have image : MeasureImage source s.names t e o.uniqueName e.name := ⟨ht, he, key, rfl⟩
      obtain ⟨t', e', own⟩ := outcome.object_image fresh ho ht he key
      obtain ⟨rfl, rfl⟩ := image.eq own registry fresh apart measures
      refine ⟨o, own, ?_⟩
      have distinct : ((ofOutput catalog m s).measureObjects.map (·.uniqueName)).Nodup := by
        rw [map_measureObjects]
        exact (outcome.named_measures fresh).distinct.of_map
      have only := filter_key_eq (·.uniqueName) distinct ho
      simpa only [key, Option.some.injEq, eq_comm] using only
    apart := fun t e t' e' o h h' => h.eq h' registry fresh apart measures
    metricCalcs := sound.metricCalcs
    metrics := fun e he => by
      constructor
      · rintro ⟨t, x, image⟩
        refine ⟨fun helper => ?_, fun ⟨t', k, implied⟩ => ?_⟩
        · obtain ⟨key, kind, known⟩ := helper.key
          exact image.not_aggregate registry fresh kind known
        · obtain ⟨f, -, -, known⟩ := implied.key
          exact image.not_aggregate registry fresh (Key.word_aggregate _ _ _) known
      · rintro ⟨notHelper, notImplied⟩
        cases sound.origins e he with
        | measure t x image => exact ⟨t, x, image⟩
        | helper known => exact (notHelper known).elim
        | column t k known => exact (notImplied ⟨t, k, known⟩).elim }

/-- Every measure of a model becomes exactly one metric or calculated metric, under its own
identifier and name, whatever its formula is and whatever its table is used for; and what is no
measure is a helper of a formula or implied by a column. -/
theorem convertWith_measures [Sql.Parser] {settings : Settings} {database : Database}
    {connection : String} {c : Conversion} (apart : database.model.TablesApart)
    (measures : ∀ t ∈ database.model.tables, t.MeasuresApart)
    (fresh : settings.NeverExhausted database connection)
    (h : convertWith settings database connection = .ok c) :
    ∃ s, EndsIn settings database connection c s ∧
      KeepsMeasures ⟨database.model, settings⟩ s c := by
  obtain ⟨catalog, m, s, ran, rfl⟩ := convertWith_ok h
  have outcome := run_ok ⟨database.model, settings⟩ apart ran
  exact ⟨s, ⟨catalog, m, ran, rfl⟩, outcome.keepsMeasures (fresh _ s ran) apart measures⟩

attribute [local instance] Sql.Parser.lenient

theorem convertWith_measures_shop : ∃ c, convertWith {} shop "warehouse" = .ok c ∧
    ∃ s, EndsIn {} shop "warehouse" c s ∧ KeepsMeasures ⟨shop.model, {}⟩ s c :=
  exists_convertWith_shop.imp fun _ h => ⟨h, convertWith_measures shop_tablesApart
    (by decide +kernel) shop_neverExhausted h⟩

end Conversion

end SemanticLayer
