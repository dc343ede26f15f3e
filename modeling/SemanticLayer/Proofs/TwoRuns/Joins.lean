import SemanticLayer.Proofs.TwoRuns.Dimensions

set_option autoImplicit false

namespace SemanticLayer.Conversion

open Identifier (Key.measure Key.hierarchy)
open Tabular (Table Column)

variable {v : Variation} {source source' : Source} {t t' : Table}

structure Ends (v : Variation) (ends ends' : JoinEnds) : Prop where
  fromTable : v.Tables ends.fromTable ends'.fromTable
  fromColumn : ends.fromColumn.Respelled v.Spelled ends'.fromColumn
  toTable : v.Tables ends.toTable ends'.toTable
  toColumn : ends.toColumn.Respelled v.Spelled ends'.toColumn

theorem joinEnds_related (h : v.Sources source source') {r r' : Tabular.Relationship}
    (pair : v.Relationships r r') :
    (∃ why, joinEnds source.model r = .error why ∧ joinEnds source'.model r' = .error why) ∨
      ∃ ends ends', joinEnds source.model r = .ok ends ∧ joinEnds source'.model r' = .ok ends' ∧
        Ends v ends ends' := by
  obtain ⟨_, _, _, _, start, first, target, second, rfl⟩ := pair.respelled
  unfold joinEnds
  dsimp only
  split
  · exact Or.inl ⟨_, rfl, rfl⟩
  obtain ⟨none, none'⟩ | ⟨t, t', found, found', twin⟩ :=
    cases_of_rel (table?_related h pair.plain.1 (v.folds _ _ start))
  · rw [none, none']
    exact Or.inl ⟨_, rfl, rfl⟩
  obtain ⟨none, none'⟩ | ⟨u, u', also, also', other⟩ :=
    cases_of_rel (table?_related h pair.plain.2 (v.folds _ _ target))
  · rw [none, none', found, found']
    exact Or.inl ⟨_, rfl, rfl⟩
  rw [found, found', also, also']
  dsimp only
  obtain ⟨none, none'⟩ | ⟨c, c', found, found', column⟩ :=
    cases_of_rel (twin.respelled.column? (v.folds _ _ first))
  · rw [none, none']
    exact Or.inl ⟨_, rfl, rfl⟩
  obtain ⟨none, none'⟩ | ⟨e, e', also, also', opposite⟩ :=
    cases_of_rel (other.respelled.column? (v.folds _ _ second))
  · rw [none, none', found, found']
    exact Or.inl ⟨_, rfl, rfl⟩
  · rw [found, found', also, also']
    exact Or.inr ⟨_, _, rfl, rfl, twin, column, other, opposite⟩

theorem relationshipObject_related {r r' : Tabular.Relationship} (pair : v.Relationships r r')
    (equal : ∀ a b, v.Spelled a b → a = b) : relationshipObject r = relationshipObject r' := by
  obtain ⟨_, _, _, _, start, first, target, second, rfl⟩ := pair.respelled
  rw [relationshipObject, relationshipObject, equal _ _ start, equal _ _ first,
    equal _ _ target, equal _ _ second]

theorem Agree.storeJoin {ends ends' : JoinEnds} (same : Ends v ends ends') (join : JoinSource)
    (target : JoinTarget) :
    Agree v Eq (storeJoin ends join target) (storeJoin ends' join target) := by
  rw [storeJoin_eq, storeJoin_eq]
  refine .bind .get fun s s' related => .bind_eq ?_ fun _ => ?_
  · unfold directJoin
    rw [related.classes.fact_eq, same.fromTable.respelled.name_eq, same.toTable.respelled.name_eq,
      same.fromColumn.name_eq, same.toColumn.name_eq]
    split
    · exact .bind_eq (.uniqueName _) fun _ => .store _
    · exact .pure rfl
  · unfold nestedJoin
    rw [related.classes.dimension_eq, same.fromTable.respelled.name_eq,
      same.toTable.respelled.name_eq, same.fromColumn.name_eq, same.toColumn.name_eq]
    split
    · exact .bind_eq (.uniqueName _) fun _ => .bind_eq (.dimensionName _) fun _ => .store _
    · exact .pure rfl

theorem Agree.resolveRelationship (h : v.Sources source source') {r r' : Tabular.Relationship}
    (pair : v.Relationships r r') :
    Agree v Eq (resolveRelationship source r) (resolveRelationship source' r') := by
  have noted {severity : Severity} {reason : String} :
      Agree v Eq (Conversion.log [⟨severity, some (relationshipObject r), reason⟩])
        (Conversion.log [⟨severity, some (relationshipObject r'), reason⟩]) :=
    .log_one rfl fun equal => by rw [relationshipObject_related pair equal]
  unfold Conversion.resolveRelationship
  dsimp only
  rcases joinEnds_related h pair with ⟨_, failed, failed'⟩ | ⟨ends, ends', found, found', same⟩
  · rw [failed, failed']
    exact noted
  rw [found, found']
  refine .bind .get fun s s' related => ?_
  rw [related.names, same.toTable.respelled.name_eq, same.toColumn.name_eq,
    same.fromTable.respelled.name_eq, same.fromColumn.name_eq]
  split
  · exact noted
  refine .bind_eq (.dimensionName _) fun dimension => .bind_eq (.datasetName _) fun dataset =>
    .bind .get fun s s' related => ?_
  rw [related.output]
  split
  · exact .storeJoin same _ _
  · exact noted

theorem selfJoinTarget_respelled {R : String → String → Prop} (h : t.Respelled R t')
    (names : Identifier.Registry) (d : Dimension) :
    selfJoinTarget names t' d = selfJoinTarget names t d := by
  unfold selfJoinTarget
  rw [h.name_eq]
  obtain ⟨none, none'⟩ | ⟨c, c', found, found', twin⟩ := cases_of_rel h.keyColumn?
  · rw [none, none']
  · rw [found, found', Option.bind_some, Option.bind_some, twin.name_eq]

theorem Agree.addSelfJoin (h : v.Sources source source') {table : String}
    (plain : v.Plain table) :
    Agree v Eq (addSelfJoin source table) (addSelfJoin source' table) := by
  refine .bind .get fun s s' related => ?_
  rw [related.names]
  split
  · exact .pure rfl
  obtain ⟨none, none'⟩ | ⟨t, t', found, found', twin⟩ :=
    cases_of_rel (table?_related h plain (Text.equalFold_refl table))
  · rw [none, none']
    exact .pure rfl
  rw [found, found']
  dsimp only
  rw [twin.respelled.name_eq]
  refine .bind_eq (.dimensionName _) fun dimension => .bind .get fun s s' related => ?_
  rw [related.output, related.names]
  split
  swap
  · exact .pure rfl
  rw [selfJoinTarget_respelled twin.respelled]
  split
  · exact .log_refl _
  · exact .bind_eq (.datasetName _) fun _ => .bind_eq (.uniqueName _) fun _ =>
      .bind_eq (.store _) fun _ => .log_refl _

theorem Agree.warnAmbiguousPaths (h : v.Sources source source') :
    Agree v Eq (warnAmbiguousPaths source) (warnAmbiguousPaths source') := by
  refine .bind .get fun s s' related => ?_
  rw [related.output, related.names, h.settings]
  exact .bind_eq (.lift _) fun _ => .log_refl _

theorem Agree.resolveRelationships (h : v.Sources source source') :
    Agree v Eq (resolveRelationships source) (resolveRelationships source') := by
  refine .bind_eq (.forIn h.relationships fun r r' pair =>
    .bind_eq (.resolveRelationship h pair) fun _ => .pure rfl) fun _ =>
      .bind .get fun s s' related => ?_
  have both : s'.tables.factDimensions = s.tables.factDimensions := by
    rw [TableLists.factDimensions, TableLists.factDimensions, related.classes.fact_eq,
      related.classes.dimension_eq]
  rw [both]
  refine .bind_eq (.forIn_same fun table found => ?_) fun _ => .warnAmbiguousPaths h
  have plain := related.classes.fact table (List.mem_of_mem_filter found)
  exact .bind_eq (.addSelfJoin h plain) fun _ => .pure rfl

theorem Agree.backfillTable (h : v.Sources source source') {table : String}
    (plain : v.Plain table) :
    Agree v Eq (backfillTable source table) (backfillTable source' table) := by
  refine .bind_eq (.datasetName _) fun dataset => .bind_eq (.dimensionName _) fun dimension =>
    .bind .get fun s s' related => ?_
  have repeats : Agree v Eq
      (modify fun s => { s with output := repeatMetrics dataset s.output } : Run Unit)
      (modify fun s => { s with output := repeatMetrics dataset s.output }) :=
    .modify (fun _ => List.Subset.refl _) fun _ _ now => { now with
      output := congrArg (repeatMetrics dataset) now.output }
  have rest : Agree v Eq (do
      let count := ((← MonadState.get).output.metrics.filter (·.dataset == dataset)).length
      modify fun s => { s with output := repeatMetrics dataset s.output }
      info table (toString count ++ " metric(s) repeat across unrelated dimensions")
        : Run Unit) (do
      let count := ((← MonadState.get).output.metrics.filter (·.dataset == dataset)).length
      modify fun s => { s with output := repeatMetrics dataset s.output }
      info table (toString count ++ " metric(s) repeat across unrelated dimensions")) := by
    refine .bind .get fun s s' related => ?_
    rw [related.output]
    exact .bind_eq repeats fun _ => .log_refl _
  rw [related.output]
  split
  · exact rest
  · exact .bind_eq (.addSelfJoin h plain) fun _ => rest

theorem Agree.backfillRelationships (h : v.Sources source source') :
    Agree v Eq (backfillRelationships source) (backfillRelationships source') := by
  refine .bind .get fun s s' related => ?_
  have same : dimensionOnlyTables s' = dimensionOnlyTables s := by
    rw [dimensionOnlyTables, dimensionOnlyTables, metricTables_related related,
      related.classes.same]
  rw [same]
  refine .bind_eq (.forIn_same fun table found => ?_) fun _ => .pure rfl
  have plain := plain_metricTables related table (List.mem_of_mem_filter found)
  exact .bind_eq (.backfillTable h plain) fun _ => .pure rfl

section Perspectives

variable {listed listed' : List String} (same : t'.name = t.name)
  (names : List.Forall₂ v.Spelled listed listed')
include same

theorem key_related (kind : String) {a b : String} (spelled : v.Spelled a b) :
    Identifier.Key.located kind [t.name, a] = Identifier.Key.located kind [t'.name, b] := by
  rw [same, Identifier.Key.located, Identifier.Key.located, List.map_cons, List.map_cons,
    List.map_cons, List.map_cons, Text.lower_eq_of_equalFold (v.folds a b spelled)]

theorem measureKey_related {a b : String} (spelled : v.Spelled a b) :
    Key.measure t.name a = Key.measure t'.name b :=
  key_related same "measure" spelled

theorem hierarchyKey_related {a b : String} (spelled : v.Spelled a b) :
    Key.hierarchy t.name a = Key.hierarchy t'.name b :=
  key_related same "hierarchy" spelled

include names

theorem listedMetrics_related (resolved : List (String × String)) (metrics : List String) :
    listedMetrics resolved t' listed' metrics = listedMetrics resolved t listed metrics := by
  have keys := map_of_forall₂ names fun _ _ spelled => measureKey_related same spelled
  have found (t : Table) (listed : List String) :
      (listed.filterMap fun name => resolved.lookup (Key.measure t.name name)) =
        (listed.map (Key.measure t.name)).filterMap fun key => resolved.lookup key := by
    rw [List.filterMap_map]
    rfl
  rw [listedMetrics, listedMetrics, found, found, ← keys]

theorem listedHierarchies_related (registry : Identifier.Registry) :
    listedHierarchies registry t' listed' = listedHierarchies registry t listed := by
  have keys := map_of_forall₂ names fun _ _ spelled => hierarchyKey_related same spelled
  have found (t : Table) (listed : List String) : listedHierarchies registry t listed =
      (listed.map (Key.hierarchy t.name)).filterMap fun key => registry.lookup key := by
    rw [List.filterMap_map]
    rfl
  rw [found, found, ← keys]

theorem measureDiagnostics_related (resolved : List (String × String)) {object object' : String}
    (named : (∀ a b, v.Spelled a b → a = b) → object = object') :
    List.Forall₂ v.Alike (measureDiagnostics resolved object t listed)
      (measureDiagnostics resolved object' t' listed') := by
  refine List.rel_map (R := v.Spelled) (fun a b spelled => ?_)
    (filter_of_forall₂ names fun a b spelled => by rw [measureKey_related same spelled])
  exact v.alike _ _ rfl fun equal => by rw [named equal, equal a b spelled]

theorem hierarchyDiagnostics_related (registry : Identifier.Registry) {object object' : String}
    (named : (∀ a b, v.Spelled a b → a = b) → object = object') :
    List.Forall₂ v.Alike (hierarchyDiagnostics registry object t listed)
      (hierarchyDiagnostics registry object' t' listed') := by
  refine List.rel_map (R := v.Spelled) (fun a b spelled => ?_)
    (filter_of_forall₂ names fun a b spelled => by rw [hierarchyKey_related same spelled])
  exact v.alike _ _ rfl fun equal => by rw [named equal, equal a b spelled]

end Perspectives

theorem Agree.addPerspectiveTable (h : v.Sources source source') (perspective : String)
    (content : PerspectiveContent) {entry entry' : Tabular.PerspectiveTable}
    (pair : v.Entries entry entry') :
    Agree v Eq (addPerspectiveTable source perspective content entry)
      (addPerspectiveTable source' perspective content entry') := by
  have spelled := pair.respelled
  have object (equal : ∀ a b, v.Spelled a b → a = b) :
      perspective ++ "/" ++ entry.name = perspective ++ "/" ++ entry'.name := by
    rw [equal _ _ spelled.name]
  have shows {names names' : List String} (h : List.Forall₂ v.Spelled names names') :
      names'.isEmpty = names.isEmpty := by
    cases h <;> rfl
  unfold Conversion.addPerspectiveTable
  dsimp only
  obtain ⟨none, none'⟩ | ⟨t, t', found, found', twin⟩ :=
    cases_of_rel (table?_related h pair.plain (v.folds _ _ spelled.name))
  · rw [none, none']
    exact .bind_eq (.log_one rfl fun equal => by rw [object equal]) fun _ => .pure rfl
  rw [found, found']
  have named := twin.respelled.name_eq
  refine .bind .get fun s s' related => ?_
  rw [related.measures, related.classes.dimension_eq, shows spelled.columns,
    shows spelled.hierarchies, listedMetrics_related named spelled.measures, named]
  refine .bind_eq (.log (measureDiagnostics_related named spelled.measures _ object))
    fun _ => ?_
  split
  · exact .pure rfl
  refine .bind_eq (.dimensionName _) fun dimension => .bind .get fun s s' related => ?_
  rw [related.names, listedHierarchies_related named spelled.hierarchies]
  exact .bind_eq (.log (hierarchyDiagnostics_related named spelled.hierarchies _ object))
    fun _ => .pure rfl

theorem Agree.resolvePerspectives (h : v.Sources source source') :
    Agree v Eq (resolvePerspectives source) (resolvePerspectives source') := by
  refine .bind_eq (.forIn h.perspectives fun p p' pair => ?_) fun _ => .pure rfl
  obtain ⟨named, entries⟩ := pair
  refine .bind_eq ?_ fun _ => .pure rfl
  unfold resolvePerspective
  rw [named, h.settings]
  refine .bind_eq (.foldlM entries (fun content _ e e' equal pair => ?_) rfl) fun content =>
    .bind .get fun s s' related => ?_
  · subst equal
    exact .addPerspectiveTable h _ _ pair
  rw [related.output]
  exact .bind_eq (.lift _) fun _ => .bind_eq (.uniqueName _) fun _ => .store _

theorem Agree.assembleModel (h : v.Sources source source') (label : String) :
    Agree v Eq (assembleModel source label) (assembleModel source' label) := by
  refine .bind_eq (.uniqueName _) fun name => .bind .get fun s s' related => ?_
  have exposed : modelDimensions source' s' = modelDimensions source s := by
    rw [modelDimensions, modelDimensions, related.output, h.settings]
  rw [exposed, related.output]
  exact .bind_eq (.lift _) fun _ => .bind_eq (.log_refl _) fun _ => .pure rfl

end SemanticLayer.Conversion
