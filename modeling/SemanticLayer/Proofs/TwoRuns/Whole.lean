import SemanticLayer.Proofs.Conversion.Closed
import SemanticLayer.Proofs.TwoRuns.Joins

set_option autoImplicit false

/-!
Two whole conversions. Until the tables are classified both runs are one and the same; from there on
they go through related states, and at the end they have the same result, their logs aside.
-/
namespace SemanticLayer

open Tabular (Database)

namespace Conversion

variable {v : Variation} {source source' : Source} {database database' : Database}

def introduce (source : Source) (database connection : String) : Run Catalog := do
  let catalog ← resolveCatalog source database
  resolveConnection connection
  return catalog

def describe (source : Source) (catalog : Catalog) (label : String) : Run (Catalog × Model) := do
  reserveDimensionNames
  resolveSimpleMeasures source
  resolveDatasets source
  reportUnreferencedHelpers
  reclassify source
  finish source catalog label

theorem run_eq_describe (source : Source) (database : Database) (connection : String) :
    run source database connection = (do
      let catalog ← introduce source database.name connection
      classifyTables source
      describe source catalog (database.model.name.getD database.name)) := by
  simp only [run, introduce, describe, finish, bind_assoc, pure_bind]

theorem introduce_measures {name connection : String} {s s' : State} {catalog : Catalog}
    (h : (introduce source name connection).run s = .ok (catalog, s')) :
    s'.measures = s.measures := by
  obtain ⟨_, s₁, cataloged, h⟩ := bind_ok h
  obtain ⟨_, s₂, connected, h⟩ := bind_ok h
  obtain ⟨-, rfl⟩ := pure_ok h
  have steady : Steady s s₁ := (Light.resolveCatalog source name).keeps _ _ _ cataloged
  obtain ⟨_, s₃, named, h⟩ := bind_ok connected
  obtain ⟨_, s₄, set, h⟩ := bind_ok h
  obtain rfl := modify_ok set
  obtain ⟨_, -, rfl⟩ := store_ok h
  have steady' : Steady s₁ s₃ := Keeps.uniqueName _ _ _ _ named
  exact steady'.measures.trans steady.measures

theorem states_classified (h : v.Sources source source') {s : State}
    (none : s.measures.metricTables = []) : v.States
      { s with
        tables := classify source.model []
        diagnostics := s.diagnostics ++ (classify source.model []).unused.map unusedNotice }
      { s with
        tables := classify source'.model []
        diagnostics := s.diagnostics ++ (classify source'.model []).unused.map unusedNotice } := by
  have plain : ∀ name ∈ ([] : List String), v.Plain name := fun _ found => nomatch found
  have classes := classify_related h plain
  obtain ⟨before, after, unused, unused'⟩ := classes.unused
  refine ⟨rfl, rfl, rfl, rfl, classes, ?_, ?_⟩
  · dsimp only
    rw [none]
    exact fun _ found => nomatch found
  · refine ⟨s.diagnostics ++ before.map unusedNotice, after.map unusedNotice,
      s.diagnostics ++ before.map unusedNotice, after.map unusedNotice, ?_, ?_,
      v.forall₂_alike_refl _, v.forall₂_alike_refl _⟩
    · rw [unused, List.map_append, List.append_assoc]
    · rw [unused', List.map_append, List.map_append, List.map_map, List.append_assoc,
        List.append_assoc, List.append_assoc]
      rfl

theorem Agree.describe (h : v.Sources source source') (catalog : Catalog) (label : String) :
    Agree v Eq (describe source catalog label) (describe source' catalog label) :=
  .bind_eq .reserveDimensionNames fun _ => .bind_eq (.resolveSimpleMeasures h) fun _ =>
    .bind_eq (.resolveDatasets h) fun _ => .bind_eq .reportUnreferencedHelpers fun _ =>
      .bind_eq (.reclassify h) fun _ => .bind_eq (.resolveDimensions h) fun _ =>
        .bind_eq (.resolveRelationships h) fun _ => .bind_eq (.resolveColumnMeasures h) fun _ =>
          .bind_eq (.backfillRelationships h) fun _ => .bind_eq (.resolvePerspectives h) fun _ =>
            .bind_eq (.assembleModel h label) fun _ => .pure rfl

theorem meets_run (h : v.Sources source source') (name : database'.name = database.name)
    (model : database'.model.name = database.model.name) (connection : String)
    (settings : Settings)
    (quiet : v.Unsought (lastState ((run source database connection).run
      (.initial settings))).diagnostics) :
    Meets v Eq ((run source database connection).run (.initial settings))
      ((run source' database' connection).run (.initial settings)) := by
  have same : introduce source' = introduce source := by
    funext label connection
    rw [introduce, introduce, resolveCatalog, resolveCatalog, h.settings]
  rw [run_eq_describe, run_eq_describe, name, model, same, StateT.run_bind, StateT.run_bind] at *
  cases introduced : (introduce source database.name connection).run (.initial settings) with
  | error halt => exact .error
  | ok p =>
    obtain ⟨catalog, s⟩ := p
    rw [introduced] at quiet
    have none : s.measures.metricTables = [] := by rw [introduce_measures introduced]; rfl
    obtain ⟨-, r, meets, reached⟩ := Agree.describe h catalog
      (database.model.name.getD database.name) _ _ (states_classified h none)
    rw [← reached quiet] at meets
    exact meets

/-- Conversions of related databases have the same error or, but for their logs, the same
result. -/
theorem convertWith_related [Sql.Parser] {settings : Settings}
    (h : v.Sources ⟨database.model, settings⟩ ⟨database'.model, settings⟩)
    (name : database'.name = database.name) (model : database'.model.name = database.model.name)
    {connection : String} (quiet : v.Unsought (settings.notes database connection)) :
    (∃ e, convertWith settings database connection = .error e ∧
      convertWith settings database' connection = .error e) ∨
    ∃ c log, convertWith settings database connection = .ok c ∧
      convertWith settings database' connection = .ok { c with diagnostics := log } ∧
        v.Logs c.diagnostics log := by
  cases valid : settings.problem? with
  | some problem =>
    have invalid (database : Database) :
        convertWith settings database connection = .error (.invalidSettings problem) := by
      rw [convertWith, valid]
      rfl
    exact Or.inl ⟨_, invalid database, invalid database'⟩
  | none =>
    have fine : settings.validate = .ok () := by rw [Settings.validate, valid]
    rw [convertWith_eq fine, convertWith_eq fine]
    have meets := meets_run h name model connection settings quiet
    generalize (run ⟨database.model, settings⟩ database connection).run _ = r at meets
    generalize (run ⟨database'.model, settings⟩ database' connection).run _ = r' at meets
    cases meets with
    | @error e _ _ => exact Or.inl ⟨e, rfl, rfl⟩
    | @ok a a' s s' value states =>
      subst value
      refine Or.inr ⟨_, s'.diagnostics, rfl, ?_, states.logs⟩
      simp only [ofOutput, states.output]

end Conversion

end SemanticLayer
