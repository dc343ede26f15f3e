import SemanticLayer.Proofs.Conversion.Closed
import SemanticLayer.Proofs.Conversion.Listing

set_option autoImplicit false

/-!
Perspectives as parts of the model. A perspective takes its metrics from those of the model, and a
dimension comes with all that is nested in it. Its dimensions are those of the tables that it lists,
though, while the model has those that joins lead to. So a dimension of a perspective is one of the
model exactly if a join leads to it or to a dimension around it.
-/
namespace SemanticLayer.Conversion

open Relation (ReflTransGen)
open Tabular (Database Table)

variable {source : Source} {s s' : State} {u : Unit}

/-- Every dimension is listed that is nested in a listed one. -/
def DownwardClosed (dimensions : List Dimension) (listed : List String) : Prop :=
  ∀ outer ∈ listed, ∀ inner, ReflTransGen (Nests dimensions) outer inner → inner ∈ listed

theorem downwardClosed_of_withNestedDimensions {dimensions : List Dimension} {maxDepth : Nat}
    {given all : List PerspectiveDimension}
    (h : withNestedDimensions (.ofDimensions dimensions) maxDepth given = .ok all) :
    DownwardClosed dimensions (all.map (·.name)) := by
  intro outer ho inner path
  obtain ⟨p, hp, first⟩ := (mem_withNestedDimensions h outer).1 ho
  exact (mem_withNestedDimensions h inner).2 ⟨p, hp, first.trans path⟩

/-- The measures that were resolved are metrics or calculated metrics. -/
def Emitted (s : State) : Prop := ∀ e ∈ s.measures.resolved, e.2 ∈ s.output.measureNames

/-- The resolved measures stay what they are, and there are no perspectives yet. -/
structure Awaits (s s' : State) : Prop where
  resolved : s'.measures.resolved = s.measures.resolved
  measures : s.output.measureNames ⊆ s'.output.measureNames
  perspectives : s'.output.perspectives = s.output.perspectives

theorem Awaits.emitted (h : Awaits s s') (emitted : Emitted s) : Emitted s' := fun e he =>
  h.measures (emitted e (h.resolved ▸ he))

instance : StepFrame Awaits where
  trans _ _ _ h h' := ⟨h'.resolved.trans h.resolved, List.Subset.trans h.measures h'.measures,
    h'.perspectives.trans h.perspectives⟩
  logged _ _ _ _ output measures _ := ⟨congrArg (·.resolved) measures,
    output ▸ List.Subset.refl _, congrArg (·.perspectives) output⟩
  name _ _ := ⟨rfl, List.Subset.refl _, rfl⟩

theorem Awaits.of_output {o : Output} (measures : s.output.measureNames ⊆ o.measureNames)
    (perspectives : o.perspectives = s.output.perspectives) : Awaits s { s with output := o } :=
  ⟨rfl, measures, perspectives⟩

theorem Awaits.registerMetric (m : Metric) (table key : String) :
    Keeps Awaits (Conversion.registerMetric m table key) := fun s u s' h => by
  obtain ⟨_, s₁, stored, h⟩ := bind_ok h
  obtain rfl := modify_ok h
  obtain ⟨o, added, rfl⟩ := store_ok stored
  obtain ⟨rfl, -⟩ := Output.addMetric_ok added
  exact ⟨rfl, Output.measureNames_insert s.output m, rfl⟩

def relate (source : Source) : Run Unit := do
  resolveDimensions source
  resolveRelationships source
  resolveColumnMeasures source
  backfillRelationships source

theorem finish_eq (source : Source) (catalog : Catalog) (label : String) :
    finish source catalog label = (do
      relate source
      resolvePerspectives source
      let model ← assembleModel source label
      return (catalog, model)) := by
  simp only [finish, relate, bind_assoc]

theorem Awaits.relate (source : Source) : Keeps Awaits (relate source) := by
  have join (r : Relationship) : Admits Awaits (·.addJoin r) := fun s o added => by
    obtain ⟨rfl, -⟩ := Output.addJoin_ok added
    exact .of_output (List.Subset.refl _) rfl
  have nested (owner : String) (r : Relationship) : Admits Awaits (·.addNestedJoin owner r) :=
    fun s o added => by
      obtain ⟨rfl, -⟩ := Output.addNestedJoin_ok added
      exact .of_output (List.Subset.refl _) rfl
  have dimension (d : Dimension) (plain : d.relationships = []) :
      Admits Awaits (·.addDimension d) := fun s o added => by
    obtain ⟨rfl, -⟩ := Output.addDimension_ok added plain
    exact .of_output (List.Subset.refl _) rfl
  have repeats (s : State) (dataset : String) :
      Awaits s { s with output := repeatMetrics dataset s.output } := by
    refine .of_output ?_ rfl
    rw [Output.measureNames, Output.measureNames, map_repeatMetrics]
    exact List.Subset.refl _
  exact .bind (.resolveDimensions source dimension) fun _ =>
    .bind (.resolveRelationships source (.addSelfJoin source join)
      (.resolveRelationship source join nested)) fun _ =>
        .bind (.columnMeasures source fun m _ => Awaits.registerMetric m) fun _ =>
          .backfillRelationships source (.addSelfJoin source join) repeats

/-- The steps up to the perspectives leave only resolved measures that are there, and no
perspectives. -/
theorem emitted_before {settings : Settings} {database : Database} {connection : String}
    {made : Catalog} {s₀ s₁ s₂ s₃ : State} {u₁ u₂ : Unit}
    (prepared : (prepare source database connection).run (.initial settings) = .ok (made, s₀))
    (reported : reportUnreferencedHelpers.run s₀ = .ok (u, s₁))
    (classified : (reclassify source).run s₁ = .ok (u₁, s₂))
    (related : (relate source).run s₂ = .ok (u₂, s₃)) :
    Emitted s₃ ∧ s₃.output.perspectives = [] := by
  have before := prepare_ok prepared
  have none : Spares (·.perspectives) (.initial settings) s₀ :=
    Spares.prepare rfl rfl rfl rfl source database connection _ _ _ prepared
  have reporting : Awaits s₀ s₁ := Light.keeps .reportUnreferencedHelpers _ _ _ reported
  obtain rfl := reclassify_ok classified
  have joining : Awaits s₁ s₃ :=
    have step := Awaits.relate source _ _ _ related
    ⟨step.resolved, step.measures, step.perspectives⟩
  have all : Awaits s₀ s₃ := Trans.trans reporting joining
  exact ⟨all.emitted before.linked.resolved, all.perspectives.trans none⟩

/-- A perspective as it is made from a result. -/
structure PartOf (o : Output) (p : Perspective) : Prop where
  metrics : p.metrics ⊆ o.measureNames
  dimensions : DownwardClosed o.dimensions (p.dimensions.map (·.name))

theorem addPerspectiveTable_metrics {perspective : String} {content content' : PerspectiveContent}
    {entry : Tabular.PerspectiveTable} (emitted : Emitted s)
    (known : content.metrics ⊆ s.output.measureNames)
    (h : (addPerspectiveTable source perspective content entry).run s = .ok (content', s')) :
    content'.metrics ⊆ s.output.measureNames := by
  cases adding_of_addPerspectiveTable h with
  | unknown missing noted => exact known
  | hidden found out noted => exact listedMetrics_subset emitted known
  | shown shows noted named noted' => exact listedMetrics_subset emitted known

theorem resolvePerspective_part {p : Tabular.Perspective} (emitted : Emitted s)
    (h : (resolvePerspective source p).run s = .ok (u, s')) :
    s'.measures = s.measures ∧ ∃ q, PartOf s.output q ∧
      s'.output = { s.output with perspectiveMap := s.output.perspectiveMap.insert q } := by
  obtain ⟨content, s₁, dimensions, name, s₂, folded, nested, named, stored⟩ :=
    resolvePerspective_steps h
  have named' : Steady s₁ s₂ := Keeps.uniqueName _ _ _ _ named
  have spared : Spares id s₁ s₂ := Keeps.uniqueName _ _ _ _ named
  obtain ⟨o, added, rfl⟩ := store_ok stored
  obtain ⟨rfl, -⟩ := Output.addPerspective_ok added
  have tables := fun content entry => Light.addPerspectiveTable source p.name content entry
  let P (content : PerspectiveContent) (s' : State) : Prop :=
    s'.measures = s.measures ∧ s'.output = s.output ∧ content.metrics ⊆ s.output.measureNames
  obtain ⟨measures, output, metrics⟩ : P content s₁ := by
    refine foldlM_ok (P := P) ⟨rfl, rfl, List.nil_subset _⟩
      (fun entry _ content s₃ content' s₄ turn before => ?_) folded
    obtain ⟨measures, output, known⟩ := before
    have steady : Steady s₃ s₄ := (tables content entry).keeps _ _ _ turn
    have spared : Spares id s₃ s₄ := (tables content entry).keeps _ _ _ turn
    have emitted₃ : Emitted s₃ := by rwa [Emitted, measures, output]
    have more := addPerspectiveTable_metrics emitted₃ (output ▸ known) turn
    exact ⟨steady.measures.trans measures, spared.trans output, output ▸ more⟩
  rw [output] at nested
  refine ⟨named'.measures.trans measures,
    { uniqueName := name, label := p.name, metrics := content.metrics, dimensions },
    ⟨metrics, downwardClosed_of_withNestedDimensions nested⟩, ?_⟩
  have same : s₂.output = s.output := spared.trans output
  rw [← same]

theorem resolvePerspectives_parts (emitted : Emitted s) (none : s.output.perspectives = [])
    (h : (resolvePerspectives source).run s = .ok (u, s')) :
    ∃ perspectiveMap, s'.output = { s.output with perspectiveMap } ∧
      ∀ q ∈ perspectiveMap.values, PartOf s.output q := by
  obtain ⟨_, s₁, loop, h⟩ := bind_ok h
  obtain ⟨-, rfl⟩ := pure_ok h
  let P (s' : State) : Prop := s'.measures = s.measures ∧
    ∃ perspectiveMap, s'.output = { s.output with perspectiveMap } ∧
      ∀ q ∈ perspectiveMap.values, PartOf s.output q
  have start : P s := by
    refine ⟨rfl, _, rfl, fun q hq => ?_⟩
    change q ∈ s.output.perspectives at hq
    rw [none] at hq
    cases hq
  refine (forIn_ok (P := P) start (fun p _ s₂ s₃ r turn before => ?_) loop).2
  obtain ⟨_, s₄, resolved, turn⟩ := bind_ok turn
  obtain ⟨-, rfl⟩ := pure_ok turn
  obtain ⟨measures, perspectiveMap, output, parts⟩ := before
  have emitted₂ : Emitted s₂ := by
    rw [Emitted, measures, output]
    exact emitted
  obtain ⟨kept, q, part, added⟩ := resolvePerspective_part emitted₂ resolved
  rw [output] at part added
  refine ⟨kept.trans measures, perspectiveMap.insert q, added, fun other ho => ?_⟩
  rcases List.mem_append.1 ho with old | new
  · exact parts other old
  · exact List.mem_singleton.1 new ▸ ⟨part.metrics, part.dimensions⟩

theorem assembleModel_dimensions {label : String} {m : Model}
    (h : (assembleModel source label).run s = .ok (m, s')) :
    s'.output = s.output ∧ m.relationships = s.output.relationships ∧
      m.metrics = s.output.measureNames ∧ m.perspectives = s.output.perspectives ∧
      (∀ name, name ∈ m.dimensions ↔ ∃ r ∈ s.output.relationships,
        ReflTransGen (Nests s.output.dimensions) r.target.dimension name) ∧
      ∀ d ∈ s.output.dimensions, d.uniqueName ∉ m.dimensions →
        ⟨.info, some d.uniqueName,
          "dimension is not reachable from any dataset; not referenced by the model"⟩ ∈
            s'.diagnostics := by
  obtain ⟨name, s₁, exposed, named, found, noted, rfl⟩ := assembleModel_steps h
  obtain rfl := log_ok noted
  obtain ⟨-, rfl⟩ := uniqueName_ok named
  refine ⟨rfl, rfl, rfl, rfl, fun name => ?_, fun d hd hidden => ?_⟩
  · rw [(exposes_of_exposedDimensions found).mem name]
    simp
  · refine List.mem_append_right _ (List.mem_map.2 ⟨d.uniqueName, ?_, rfl⟩)
    refine List.mem_filter.2 ⟨List.mem_map_of_mem hd, ?_⟩
    simpa using hidden

/-- How the perspectives of a model are parts of it. -/
structure PartsOf (c : Conversion) (m : Model) : Prop where
  metrics : ∀ p ∈ m.perspectives, p.metrics ⊆ m.metrics
  nested : ∀ p ∈ m.perspectives, DownwardClosed c.dimensions (p.dimensions.map (·.name))
  dimensions : ∀ p ∈ m.perspectives, ∀ d ∈ p.dimensions, d.name ∈ m.dimensions ↔
    ∃ r ∈ m.relationships, ReflTransGen (Nests c.dimensions) r.target.dimension d.name
  reported : ∀ d ∈ c.dimensions, d.uniqueName ∉ m.dimensions →
    ⟨.info, some d.uniqueName,
      "dimension is not reachable from any dataset; not referenced by the model"⟩ ∈ c.diagnostics

/-- The metrics of a perspective are metrics of the model, and it lists a dimension with all that is
nested in it. A dimension that it lists is one of the model exactly if a join leads to it, at once
or over dimensions around it; every dimension without such a join is reported. -/
theorem convertWith_perspectives [Sql.Parser] {settings : Settings} {database : Database}
    {connection : String} {c : Conversion} (h : convertWith settings database connection = .ok c) :
    ∀ m ∈ c.models, PartsOf c m := by
  obtain ⟨catalog, m, s, ran, rfl⟩ := convertWith_ok h
  intro m' hm'
  obtain rfl := List.mem_singleton.1 hm'
  rw [run_eq] at ran
  obtain ⟨made, s₀, prepared, ran⟩ := bind_ok ran
  obtain ⟨_, s₁, reported, ran⟩ := bind_ok ran
  obtain ⟨_, s₂, classified, ran⟩ := bind_ok ran
  rw [finish_eq] at ran
  obtain ⟨_, s₃, related, ran⟩ := bind_ok ran
  obtain ⟨emitted, none⟩ := emitted_before prepared reported classified related
  obtain ⟨_, s₄, viewed, ran⟩ := bind_ok ran
  obtain ⟨perspectives, output, parts⟩ := resolvePerspectives_parts emitted none viewed
  obtain ⟨model, s₅, assembled, ran⟩ := bind_ok ran
  obtain ⟨same, rfl⟩ := pure_ok ran
  obtain ⟨-, rfl⟩ := Prod.mk.inj same
  obtain ⟨kept, relationships, metrics, listed, exposed, reported⟩ :=
    assembleModel_dimensions assembled
  rw [output] at kept relationships metrics listed exposed reported
  have dimensions : s₅.output.dimensions = s₃.output.dimensions := congrArg (·.dimensions) kept
  have made : ∀ p ∈ model.perspectives, PartOf s₃.output p := by
    rw [listed]
    exact parts
  exact {
    metrics := fun p hp => by
      rw [metrics]
      exact (made p hp).metrics
    nested := fun p hp => by
      change DownwardClosed s₅.output.dimensions _
      rw [dimensions]
      exact (made p hp).dimensions
    dimensions := fun p _ d _ => by
      change _ ↔ ∃ r ∈ _, ReflTransGen (Nests s₅.output.dimensions) _ _
      rw [dimensions, relationships]
      exact exposed d.name
    reported := fun d hd => reported d (dimensions ▸ hd : d ∈ s₃.output.dimensions) }

/-- Sales with a relationship to a column that products do not have. -/
def unjoined : Database where
  name := "Shop"
  model := {
    tables := [
      { name := "Sales"
        columns := [.data "Amount" "decimal", .data "Product" "int64"]
        measures := [{ name := "Total", expression := ⟨"SUM(Sales[Amount])"⟩ }] },
      { name := "Product", columns := [.data "Id" "int64", .data "Color" "string"] }]
    relationships := [
      { fromTable := "Sales", fromColumn := "Product", toTable := "Product", toColumn := "Key" }]
    perspectives := [{
      name := "All"
      tables := [
        { name := "Sales", measures := ["Total"] },
        { name := "Product", columns := ["Color"] }] }] }

def ListsMore (c : Conversion) : Prop :=
  ∃ m ∈ c.models, ∃ p ∈ m.perspectives, ∃ d ∈ p.dimensions, d.name ∉ m.dimensions

instance (c : Conversion) : Decidable c.ListsMore := by unfold ListsMore; infer_instance

attribute [local instance] Sql.Parser.lenient

theorem convertWith_perspectives_unjoined : ∃ c, convertWith {} unjoined "warehouse" = .ok c ∧
    c.ListsMore ∧ ∀ m ∈ c.models, PartsOf c m := by
  have listed : ∃ c, convertWith {} unjoined "warehouse" = .ok c ∧ c.ListsMore :=
    exists_convertWith (by decide +kernel)
  obtain ⟨c, ran, more⟩ := listed
  exact ⟨c, ran, more, convertWith_perspectives ran⟩

end SemanticLayer.Conversion
