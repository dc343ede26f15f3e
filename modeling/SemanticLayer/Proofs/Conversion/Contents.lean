import SemanticLayer.Proofs.Conversion.Described

set_option autoImplicit false

namespace SemanticLayer.Conversion

open Identifier
open Relation (ReflTransGen TransGen)
open Tabular (Database Table PerspectiveTable)

section Mentioned

variable (source : Source) (s : State)

/-- The dimension of a table that one of the entries shows. -/
structure Presents (entries : List PerspectiveTable) (t : Table) (d : Dimension) : Prop
    extends IsDimensionOf s t d where
  shown : ∃ entry ∈ entries, Shows source s entry t

/-- What was made of the measures that entries list, in the order in which these are listed. -/
def mentionedMetrics (entries : List PerspectiveTable) : List String :=
  entries.flatMap fun entry => (source.model.table? entry.name).toList.flatMap fun t =>
    entry.measures.filterMap fun name => s.measures.resolved.lookup (Key.measure t.name name)

/-- What was made of the hierarchies that the entries of a table list, in the order in which these
are listed. -/
def mentionedHierarchies (entries : List PerspectiveTable) (t : Table) : List String :=
  (entries.filter fun entry => source.model.table? entry.name = some t).flatMap fun entry =>
    entry.hierarchies.filterMap fun name => s.names.lookup (Key.hierarchy t.name name)

/-- What a perspective contains, exactly. -/
structure Contents (p : Tabular.Perspective) (q : Perspective) : Prop where
  label : q.label = p.name
  metrics : q.metrics = (mentionedMetrics source s p.tables).eraseDups
  metricsOnce : q.metrics.Nodup
  presented : ∀ entry ∈ p.tables, ∀ t, Shows source s entry t →
    ∃ d, Presents source s p.tables t d
  /-- A dimension comes with all that is nested in it. -/
  dimensions : ∀ name, name ∈ q.dimensions.map (·.name) ↔ ∃ t d, Presents source s p.tables t d ∧
    (name = d.uniqueName ∨ TransGen (Nests s.output.dimensions) d.uniqueName name)
  dimensionsOnce : (q.dimensions.map (·.name)).Nodup
  listed : ∀ t d, Presents source s p.tables t d → ∃ e ∈ q.dimensions, e.name = d.uniqueName ∧
    e.hierarchies = (mentionedHierarchies source s p.tables t).eraseDups
  /-- What is only nested in other dimensions comes without hierarchies. -/
  nested : ∀ e ∈ q.dimensions,
    (∀ t d, Presents source s p.tables t d → d.uniqueName ≠ e.name) → e.hierarchies = []
  hierarchiesOnce : ∀ e ∈ q.dimensions, e.hierarchies.Nodup

/-- What the entries so far have come to. -/
structure Collects (entries : List PerspectiveTable) (content : PerspectiveContent) : Prop where
  metrics : content.metrics = (mentionedMetrics source s entries).foldl insertName []
  dimensions : ∀ name, name ∈ content.dimensions.map (·.name) ↔
    ∃ t d, Presents source s entries t d ∧ d.uniqueName = name
  dimensionsOnce : (content.dimensions.map (·.name)).Nodup
  hierarchies : ∀ t ∈ source.model.tables, t.name ∈ s.tables.dimension →
    ∀ d, IsDimensionOf s t d → hierarchiesOf d.uniqueName content.dimensions =
      (mentionedHierarchies source s entries t).foldl insertName []

end Mentioned

variable {source : Source} {s s' : State} {u : Unit} {done : List PerspectiveTable}
  {entry : PerspectiveTable} {t : Table} {content content' : PerspectiveContent}

theorem mentionedHierarchies_concat (done : List PerspectiveTable) (entry : PerspectiveTable)
    (t : Table) : mentionedHierarchies source s (done ++ [entry]) t =
      mentionedHierarchies source s done t ++ if source.model.table? entry.name = some t then
        listedHierarchies s.names t entry.hierarchies else [] := by
  rw [mentionedHierarchies, List.filter_append, List.flatMap_append, List.filter_singleton]
  congr 1
  by_cases own : source.model.table? entry.name = some t
  · simp [own, listedHierarchies]
  · simp [own]

theorem presents_concat_iff {d : Dimension} : Presents source s (done ++ [entry]) t d ↔
    Presents source s done t d ∨ Shows source s entry t ∧ IsDimensionOf s t d := by
  constructor
  · rintro ⟨made, e, he, shows⟩
    rcases List.mem_append.1 he with old | new
    · exact Or.inl ⟨made, e, old, shows⟩
    · exact Or.inr ⟨List.mem_singleton.1 new ▸ shows, made⟩
  · rintro (⟨made, e, he, shows⟩ | ⟨shows, made⟩)
    · exact ⟨made, e, List.mem_append_left _ he, shows⟩
    · exact ⟨made, entry, List.mem_append_right _ List.mem_cons_self, shows⟩

namespace Collects

theorem nil (source : Source) (s : State) : Collects source s [] {} where
  metrics := rfl
  dimensions name := by
    refine ⟨fun listed => (List.not_mem_nil listed).elim, ?_⟩
    rintro ⟨_, _, ⟨_, _, missing, _⟩, _⟩
    exact (List.not_mem_nil missing).elim
  dimensionsOnce := List.nodup_nil
  hierarchies _ _ _ _ _ := rfl

theorem dimensions_concat (before : Collects source s done content)
    (none : ∀ t, ¬Shows source s entry t) (name : String) :
    name ∈ content.dimensions.map (·.name) ↔
      ∃ t d, Presents source s (done ++ [entry]) t d ∧ d.uniqueName = name := by
  simp only [presents_concat_iff, none, false_and, or_false, before.dimensions]

theorem listedMetrics (before : Collects source s done content)
    (found : source.model.table? entry.name = some t) :
    Conversion.listedMetrics s.measures.resolved t entry.measures content.metrics =
      (mentionedMetrics source s (done ++ [entry])).foldl insertName [] := by
  rw [Conversion.listedMetrics, before.metrics, ← List.foldl_append]
  simp [mentionedMetrics, found]

theorem unknown (before : Collects source s done content)
    (missing : source.model.table? entry.name = none) :
    Collects source s (done ++ [entry]) content where
  metrics := by
    rw [before.metrics]
    simp [mentionedMetrics, missing]
  dimensions := before.dimensions_concat fun t shows => by
    cases missing.symm.trans shows.found
  dimensionsOnce := before.dimensionsOnce
  hierarchies t ht isDimension d made := by
    rw [before.hierarchies t ht isDimension d made, mentionedHierarchies_concat, missing]
    simp

theorem hidden (before : Collects source s done content)
    (found : source.model.table? entry.name = some t) (hidden : ¬Shows source s entry t) :
    Collects source s (done ++ [entry]) { content with
      metrics := Conversion.listedMetrics s.measures.resolved t entry.measures content.metrics }
    where
  metrics := before.listedMetrics found
  dimensions := before.dimensions_concat fun t' shows => by
    cases found.symm.trans shows.found
    exact hidden shows
  dimensionsOnce := before.dimensionsOnce
  hierarchies t' ht isDimension d made := by
    rw [mentionedHierarchies_concat]
    split
    · rename_i own
      cases found.symm.trans own
      have none : entry.hierarchies = [] := by
        by_contra some
        exact hidden ⟨found, isDimension, Or.inr some⟩
      rw [none]
      exact (before.hierarchies t ht isDimension d made).trans (by simp [listedHierarchies])
    · rw [List.append_nil]
      exact before.hierarchies t' ht isDimension d made

theorem shown (described : Described s source.model.tables)
    (before : Collects source s done content) (shows : Shows source s entry t) {d : Dimension}
    (made : IsDimensionOf s t d) :
    Collects source s (done ++ [entry]) {
      metrics := Conversion.listedMetrics s.measures.resolved t entry.measures content.metrics
      dimensions := includeDimension d.uniqueName
        (listedHierarchies s.names t entry.hierarchies) content.dimensions } where
  metrics := before.listedMetrics shows.found
  dimensions name := by
    have own : (∃ t' d', (Shows source s entry t' ∧ IsDimensionOf s t' d') ∧
        d'.uniqueName = name) ↔ name = d.uniqueName := by
      constructor
      · rintro ⟨t', d', ⟨shows', made'⟩, rfl⟩
        cases shows.found.symm.trans shows'.found
        exact Option.some.inj (made'.key.symm.trans made.key)
      · rintro rfl
        exact ⟨t, d, ⟨shows, made⟩, rfl⟩
    rw [map_name_includeDimension, mem_insertName, before.dimensions, ← own]
    simp only [presents_concat_iff, or_and_right, exists_or]
  dimensionsOnce := by
    rw [map_name_includeDimension]
    exact nodup_insertName before.dimensionsOnce _
  hierarchies t' ht' isDimension' d' made' := by
    have ht := Tabular.Model.mem_of_table? shows.found
    have old := before.hierarchies t' ht' isDimension' d' made'
    rw [hierarchiesOf_includeDimension, mentionedHierarchies_concat]
    by_cases same : d'.uniqueName = d.uniqueName
    · obtain rfl := described.table_eq ht' isDimension' ht shows.isDimension made' made same
      rw [if_pos same, if_pos shows.found, List.foldl_append, ← old, same]
    · have other : source.model.table? entry.name ≠ some t' := by
        intro own
        cases shows.found.symm.trans own
        exact same (Option.some.inj (made'.key.symm.trans made.key))
      rw [if_neg same, if_neg other, List.append_nil, old]

end Collects

theorem uniqueName_ok_of_lookup {q : Request} {name known : String}
    (old : s.names.lookup q.key = some known) (h : (uniqueName q).run s = .ok (name, s')) :
    known = name ∧ s = s' := by
  obtain ⟨answer, after⟩ := uniqueName_ok h
  rw [Registry.allocate_of_lookup old] at answer after
  rw [renameDiagnostics, List.append_nil] at after
  exact ⟨answer, after⟩

theorem addPerspectiveTable_collects {label : String} {entries : List Diagnostic}
    (described : Described s source.model.tables) (before : Collects source s done content)
    (h : (addPerspectiveTable source label content entry).run { s with diagnostics := entries } =
      .ok (content', s')) :
    (∃ entries', s' = { s with diagnostics := entries' }) ∧
      Collects source s (done ++ [entry]) content' := by
  cases adding_of_addPerspectiveTable h with
  | unknown missing noted =>
    obtain rfl := log_ok noted
    exact ⟨⟨_, rfl⟩, before.unknown missing⟩
  | hidden found out noted =>
    obtain rfl := log_ok noted
    exact ⟨⟨_, rfl⟩, before.hidden found fun shows =>
      out ⟨shows.found, shows.isDimension, shows.lists⟩⟩
  | shown shows noted named noted' =>
    have shows : Shows source s entry _ := ⟨shows.found, shows.isDimension, shows.lists⟩
    obtain rfl := log_ok noted
    obtain ⟨d, made⟩ :=
      described.exists_dimension (Tabular.Model.mem_of_table? shows.found) shows.isDimension
    obtain ⟨rfl, rfl⟩ := uniqueName_ok_of_lookup made.key named
    obtain rfl := log_ok noted'
    exact ⟨⟨_, rfl⟩, before.shown described shows made⟩

section Contents

variable {p : Tabular.Perspective} {maxDepth : Nat} {dimensions : List PerspectiveDimension}

theorem Collects.contents (described : Described s source.model.tables)
    (all : Collects source s p.tables content)
    (h : withNestedDimensions (.ofDimensions s.output.dimensions) maxDepth content.dimensions =
      .ok dimensions) (name : String) :
    Contents source s p ⟨name, p.name, content.metrics, dimensions⟩ := by
  have once := nodup_withNestedDimensions h all.dimensionsOnce
  -- What is listed of a dimension is what the entries have come to, nested dimensions or not.
  have kept {e : PerspectiveDimension} (he : e ∈ dimensions) :
      e.hierarchies = hierarchiesOf e.name content.dimensions :=
    (hierarchiesOf_name once he).symm.trans (hierarchiesOf_withNestedDimensions h e.name)
  have known {t : Table} {d : Dimension} (presents : Presents source s p.tables t d) :
      hierarchiesOf d.uniqueName content.dimensions =
        (mentionedHierarchies source s p.tables t).eraseDups := by
    obtain ⟨made, entry, -, shows⟩ := presents
    rw [all.hierarchies t (Tabular.Model.mem_of_table? shows.found) shows.isDimension d made,
      foldl_insertName_nil]
  have only {e : PerspectiveDimension} (he : e ∈ dimensions)
      (none : ∀ t d, Presents source s p.tables t d → d.uniqueName ≠ e.name) :
      e.hierarchies = [] := by
    rw [kept he]
    refine hierarchiesOf_of_notMem fun listed => ?_
    obtain ⟨t, d, presents, same⟩ := (all.dimensions e.name).1 listed
    exact none t d presents same
  exact {
    label := rfl
    metrics := all.metrics.trans (foldl_insertName_nil _)
    metricsOnce := all.metrics ▸ nodup_foldl_insertName List.nodup_nil
    presented := fun entry he t shows => by
      have ht := Tabular.Model.mem_of_table? shows.found
      obtain ⟨d, made⟩ := described.exists_dimension ht shows.isDimension
      exact ⟨d, made, entry, he, shows⟩
    dimensions := fun name => by
      rw [mem_withNestedDimensions h]
      constructor
      · rintro ⟨e, he, path⟩
        obtain ⟨t, d, presents, same⟩ := (all.dimensions e.name).1 (List.mem_map_of_mem he)
        rw [← same] at path
        exact ⟨t, d, presents, Relation.reflTransGen_iff_eq_or_transGen.1 path⟩
      · rintro ⟨t, d, presents, path⟩
        obtain ⟨e, he, same⟩ :=
          List.mem_map.1 ((all.dimensions d.uniqueName).2 ⟨t, d, presents, rfl⟩)
        exact ⟨e, he, same ▸ Relation.reflTransGen_iff_eq_or_transGen.2 path⟩
    dimensionsOnce := once
    listed := fun t d presents => by
      obtain ⟨own, ho, same⟩ :=
        List.mem_map.1 ((all.dimensions d.uniqueName).2 ⟨t, d, presents, rfl⟩)
      obtain ⟨e, he, name⟩ := List.mem_map.1 ((mem_withNestedDimensions h _).2 ⟨own, ho, .refl⟩)
      have named : e.name = d.uniqueName := name.trans same
      exact ⟨e, he, named, by rw [kept he, named, known presents]⟩
    nested := fun e he => only he
    hierarchiesOnce := fun e he => by
      by_cases presented : ∃ t d, Presents source s p.tables t d ∧ d.uniqueName = e.name
      · obtain ⟨t, d, presents, same⟩ := presented
        rw [kept he, ← same, known presents, ← foldl_insertName_nil]
        exact nodup_foldl_insertName List.nodup_nil
      · rw [only he fun t d presents same => presented ⟨t, d, presents, same⟩]
        exact List.nodup_nil }

theorem contents_of_resolvePerspective (described : Described s source.model.tables)
    (h : (resolvePerspective source p).run s = .ok (u, s')) :
    ∃ q, s'.output = { s.output with perspectiveMap := s.output.perspectiveMap.insert q } ∧
      Contents source s p q := by
  obtain ⟨content, s₁, dimensions, name, s₂, folded, nested, named, stored⟩ :=
    resolvePerspective_steps h
  obtain ⟨⟨entries, rfl⟩, all⟩ : (∃ entries, s₁ = { s with diagnostics := entries }) ∧
      Collects source s p.tables content := by
    let P (done : List PerspectiveTable) (content : PerspectiveContent) (s₁ : State) : Prop :=
      (∃ entries, s₁ = { s with diagnostics := entries }) ∧ Collects source s done content
    have start : P [] {} s := ⟨⟨s.diagnostics, rfl⟩, .nil source s⟩
    refine foldlM_steps (P := P) start (fun entry _ done content s₂ content' s₃ turn known => ?_)
      folded
    obtain ⟨⟨entries, rfl⟩, before⟩ := known
    exact addPerspectiveTable_collects described before turn
  obtain ⟨-, rfl⟩ := uniqueName_ok named
  obtain ⟨o, added, rfl⟩ := store_ok stored
  obtain ⟨rfl, -⟩ := Output.addPerspective_ok added
  exact ⟨_, rfl, all.contents described nested _⟩

end Contents

/-- A perspective that is made after the steps up to the perspectives, and after any others, has the
metrics that it mentions and the dimensions that it shows, and those nested in these, each once. It
lists the hierarchies that it mentions of what it shows, and none of what is only nested. -/
theorem resolvePerspective_contents [Sql.Parser] {settings : Settings} {database : Database}
    {connection : String} {earlier : List Tabular.Perspective} {made : Catalog}
    {p : Tabular.Perspective}
    (before : (approach ⟨database.model, settings⟩ database connection earlier).run
      (.initial settings) = .ok (made, s))
    (h : (resolvePerspective ⟨database.model, settings⟩ p).run s = .ok (u, s')) :
    ∃ q, s'.output = { s.output with perspectiveMap := s.output.perspectiveMap.insert q } ∧
      Contents ⟨database.model, settings⟩ s p q :=
  contents_of_resolvePerspective (approach_described before) h

/-- Sales of products, which have makers, which have favourite products. -/
def market : Database where
  name := "Market"
  model := {
    tables := [
      { name := "Sales"
        columns := [.data "Amount" "decimal", .data "Product" "int64"]
        measures := [{ name := "Total", expression := ⟨"SUM(Sales[Amount])"⟩ }] },
      { name := "Product"
        columns := [.data "Id" "int64", .data "Group" "string", .data "Color" "string",
          .data "Maker" "int64"]
        hierarchies := [.ofLevels "Groups" [("Group", "Group")],
          .ofLevels "Colors" [("Color", "Color")]] },
      { name := "Maker"
        columns := [.data "Id" "int64", .data "Favourite" "int64"] }]
    relationships := [
      { fromTable := "Sales", fromColumn := "Product", toTable := "Product", toColumn := "Id" },
      { fromTable := "Product", fromColumn := "Maker", toTable := "Maker", toColumn := "Id" },
      { fromTable := "Maker", fromColumn := "Favourite", toTable := "Product", toColumn := "Id" }] }

/-- Products listed three times, and makers listed without anything of theirs. -/
def colorful : Tabular.Perspective where
  name := "Colorful"
  tables := [
    { name := "Product", columns := ["Color"] },
    { name := "Sales", measures := ["Total", "Margin", "total"] },
    { name := "product", hierarchies := ["Colors", "Sizes"] },
    { name := "Product", hierarchies := ["Groups", "Colors"] },
    { name := "Maker" }]

attribute [local instance] Sql.Parser.lenient

theorem resolvePerspective_contents_colorful : ∃ made s s',
    (approach ⟨market.model, {}⟩ market "warehouse" []).run (.initial {}) = .ok (made, s) ∧
      (resolvePerspective ⟨market.model, {}⟩ colorful).run s = .ok ((), s') ∧
      s'.output.perspectives.map (fun q => (q.metrics, q.dimensions)) =
        [(["Total"], [⟨"Product", ["Colors", "Groups"]⟩, ⟨"Maker", []⟩])] ∧
      ∃ q, s'.output = { s.output with perspectiveMap := s.output.perspectiveMap.insert q } ∧
        Contents ⟨market.model, {}⟩ s colorful q := by
  have ended : ∃ r, ((approach ⟨market.model, {}⟩ market "warehouse" []) >>= fun _ =>
      resolvePerspective ⟨market.model, {}⟩ colorful).run (.initial {}) = .ok r ∧
        r.2.output.perspectives.map (fun q => (q.metrics, q.dimensions)) =
          [(["Total"], [⟨"Product", ["Colors", "Groups"]⟩, ⟨"Maker", []⟩])] :=
    exists_except_ok (by decide +kernel)
  obtain ⟨⟨⟨⟩, s'⟩, ran, shape⟩ := ended
  obtain ⟨made, s, before, resolved⟩ := bind_ok ran
  exact ⟨made, s, s', before, resolved, shape, resolvePerspective_contents before resolved⟩

end SemanticLayer.Conversion
