import SemanticLayer.Proofs.TwoRuns.Measures

set_option autoImplicit false

namespace SemanticLayer.Conversion

open Tabular (Table Column)

variable {v : Variation} {source source' : Source} {t t' : Table} {c c' : Column}

structure Describes (v : Variation) (d d' : DimensionSource) : Prop where
  table : d.table.Respelled v.Spelled d'.table
  dataset : d'.dataset = d.dataset

theorem Agree.reserveDimensionNames :
    Agree v Eq reserveDimensionNames reserveDimensionNames := by
  refine .bind .get fun s s' related => ?_
  rw [related.classes.dimension_eq]
  refine .bind_eq (.forIn_same fun name _ => ?_) fun _ => .pure rfl
  exact .bind_eq (.dimensionName _) fun _ => .pure rfl

section Joins

variable (h : v.Sources source source') (same : t.Respelled v.Spelled t')
include h same

theorem activeJoins_related :
    List.Forall₂ v.Relationships (activeJoins source t) (activeJoins source' t') :=
  filter_of_forall₂ h.relationships fun r r' pair => by
    obtain ⟨_, _, _, _, -, -, target, -, rfl⟩ := pair.respelled
    rw [same.name_eq, Text.equalFold_comm, Text.equalFold_congr (v.folds _ _ target),
      Text.equalFold_comm]

omit h in
theorem joinColumn_related {r r' : Tabular.Relationship} (pair : v.Relationships r r') :
    Option.Rel (Column.Respelled v.Spelled) (t.column? r.toColumn) (t'.column? r'.toColumn) := by
  obtain ⟨_, _, _, _, -, -, -, target, rfl⟩ := pair.respelled
  exact same.column? (v.folds _ _ target)

theorem joinColumns_related : List.Forall₂ (Column.Respelled v.Spelled) (joinColumns source t)
    (joinColumns source' t') := by
  have named := List.rel_filterMap (fun r r' pair => joinColumn_related same pair)
    (activeJoins_related h same)
  refine List.rel_foldl (fun columns columns' known c c' twin => ?_) .nil named
  rw [any_of_forall₂ (p := (·.name == c.name)) (q := (·.name == c'.name)) known
    fun other other' pair => by rw [pair.name_eq, twin.name_eq]]
  split
  · exact known
  · exact List.rel_append known (.cons twin .nil)

theorem joinDiagnostics_related :
    List.Forall₂ v.Alike (joinDiagnostics source t) (joinDiagnostics source' t') := by
  refine List.rel_filterMap (fun r r' pair => ?_) (activeJoins_related h same)
  rw [isNone_of_rel (joinColumn_related same pair), same.name_eq]
  obtain ⟨_, _, _, _, -, -, -, target, rfl⟩ := pair.respelled
  split
  · exact .some (v.alike _ _ rfl fun equal => by rw [equal _ _ target])
  · exact .none

end Joins

section Ranks

variable {A B : Type} {R : A → B → Prop} {rank : A → Nat} {rank' : B → Nat}
  (ranks : ∀ a b, R a b → rank a = rank' b)
include ranks

theorem insertByRank_related {a : A} {b : B} (item : R a b) {as : List A} {bs : List B}
    (h : List.Forall₂ R as bs) :
    List.Forall₂ R (insertByRank rank a as) (insertByRank rank' b bs) := by
  induction h with
  | nil => exact .cons item .nil
  | cons first rest ih =>
    rw [insertByRank, insertByRank, ranks _ _ item, ranks _ _ first]
    split
    · exact .cons item (.cons first rest)
    · exact .cons first ih

theorem sortByRank_related {as : List A} {bs : List B} (h : List.Forall₂ R as bs) :
    List.Forall₂ R (sortByRank rank as) (sortByRank rank' bs) := by
  refine List.rel_foldl (P := List.Forall₂ R) (R := R) (fun _ _ sorted _ _ item => ?_) .nil h
  exact insertByRank_related ranks item sorted

end Ranks

section Levels

variable {d d' : DimensionSource} (same : Describes v d d')
include same

theorem sortColumn?_related (twin : c.Respelled v.Spelled c') :
    (sortColumn? d'.table c').map (·.name) = (sortColumn? d.table c).map (·.name) := by
  obtain ⟨_, sortBy, rfl⟩ := twin
  rw [sortColumn?, sortColumn?]
  obtain ⟨none, rfl⟩ | ⟨name, name', known, rfl, spelled⟩ := cases_of_rel sortBy
  · rw [none]
    rfl
  · rw [known]
    exact (map_of_rel (same.table.column? (v.folds _ _ spelled))
      fun _ _ pair => pair.name_eq.symm).symm

theorem sortDiagnostics_related (twin : c.Respelled v.Spelled c') :
    List.Forall₂ v.Alike (sortDiagnostics d.table c) (sortDiagnostics d'.table c') := by
  obtain ⟨_, sortBy, rfl⟩ := twin
  rw [sortDiagnostics, sortDiagnostics, same.table.name_eq]
  obtain ⟨none, rfl⟩ | ⟨name, name', known, rfl, spelled⟩ := cases_of_rel sortBy
  · rw [none]
    exact .nil
  rw [known]
  obtain ⟨none, none'⟩ | ⟨_, _, found, found', -⟩ :=
    cases_of_rel (same.table.column? (v.folds _ _ spelled))
  · dsimp only
    rw [none, none']
    exact .cons (v.alike _ _ rfl fun equal => by rw [equal _ _ spelled]) .nil
  · dsimp only
    rw [found, found']
    exact .nil

theorem Agree.levelAttribute (levels : LevelTable) (twin : c.Respelled v.Spelled c')
    (label : String) (hidden : Bool) : Agree v Eq (levelAttribute d levels c label hidden)
      (levelAttribute d' levels c' label hidden) := by
  have sort := sortColumn?_related same twin
  have noted := sortDiagnostics_related same twin
  unfold Conversion.levelAttribute
  dsimp only
  rw [twin.name_eq, same.table.name_eq, same.dataset, sort]
  have hides : c'.isHidden = c.isHidden := by
    obtain ⟨_, -, rfl⟩ := twin
    rfl
  rw [hides]
  split
  · exact .pure rfl
  · exact .bind_eq (.uniqueName _) fun _ => .bind_eq (.log noted) fun _ => .pure rfl

theorem Agree.addLevel (state : HierarchyState) (twin : c.Respelled v.Spelled c')
    (label : String) (hidden : Bool) : Agree v Eq (addLevel d state c label hidden)
      (addLevel d' state c' label hidden) := by
  unfold Conversion.addLevel
  rw [twin.name_eq]
  exact .bind_eq (.levelAttribute same _ twin _ _) fun _ => .pure rfl

theorem Agree.listedLevels {hierarchy hierarchy' : Tabular.Hierarchy}
    (twin : hierarchy.Respelled v.Spelled hierarchy') (state : HierarchyState) :
    Agree v Eq (listedLevels d hierarchy state) (listedLevels d' hierarchy' state) := by
  obtain ⟨_, levels, rfl⟩ := twin
  have ordinal : ∀ l l', Tabular.Level.Respelled v.Spelled l l' → l.ordinal = l'.ordinal := by
    rintro l _ ⟨_, -, rfl⟩
    rfl
  have sorted := sortByRank_related ordinal levels
  refine .foldlM sorted (fun state _ l l' equal pair => ?_) rfl
  subst equal
  obtain ⟨_, spelled, rfl⟩ := pair
  dsimp only
  obtain ⟨none, none'⟩ | ⟨c, c', found, found', twin⟩ :=
    cases_of_rel (same.table.column? (v.folds _ _ spelled))
  · rw [none, none', same.table.name_eq]
    exact .bind_eq (.log_one rfl fun equal => by rw [equal _ _ spelled]) fun _ => .pure rfl
  · rw [found, found']
    dsimp only
    rw [twin.name_eq]
    split
    · exact .pure rfl
    · exact .addLevel same _ twin _ _

theorem Agree.appendedLevels {hierarchy hierarchy' : Tabular.Hierarchy}
    (named : hierarchy'.name = hierarchy.name) {joins joins' : List Column}
    (h : List.Forall₂ (Column.Respelled v.Spelled) joins joins') (state : HierarchyState) :
    Agree v Eq (appendedLevels d hierarchy joins state)
      (appendedLevels d' hierarchy' joins' state) := by
  refine .foldlM h (fun state _ c c' equal twin => ?_) rfl
  subst equal
  rw [twin.name_eq, same.table.name_eq, named]
  split
  · exact .pure rfl
  · exact .bind_eq (.log_refl _) fun _ => .addLevel same _ twin _ _

theorem Agree.explicitHierarchy {joins joins' : List Column}
    (h : List.Forall₂ (Column.Respelled v.Spelled) joins joins') (attributes : LevelTable)
    {hierarchy hierarchy' : Tabular.Hierarchy}
    (twin : hierarchy.Respelled v.Spelled hierarchy') :
    Agree v Eq (explicitHierarchy d joins attributes hierarchy)
      (explicitHierarchy d' joins' attributes hierarchy') := by
  have listed := Agree.listedLevels same twin
  obtain ⟨_, -, rfl⟩ := twin
  refine .bind_eq (listed _) fun state => .bind_eq (.appendedLevels same rfl h _) fun state => ?_
  dsimp only
  rw [same.table.name_eq]
  split
  · exact .bind_eq (.log_refl _) fun _ => .pure rfl
  · exact .bind_eq (.uniqueName _) fun _ => .pure rfl

omit same in
theorem defaultColumns_related (h : t.Respelled v.Spelled t') {joins joins' : List Column}
    (twins : List.Forall₂ (Column.Respelled v.Spelled) joins joins') :
    List.Forall₂ (Column.Respelled v.Spelled) (defaultColumns t joins)
      (defaultColumns t' joins') := by
  have shown := find?_of_forall₂ (p := isShown) (q := isShown) h.columns fun c c' twin => by
    obtain ⟨_, -, rfl⟩ := twin
    rfl
  unfold defaultColumns
  cases twins with
  | nil =>
    dsimp only [List.isEmpty_nil]
    obtain ⟨none, none'⟩ | ⟨_, _, found, found', twin⟩ :=
      cases_of_rel (rel_or h.keyColumn? shown)
    · rw [none, none']
      exact .nil
    · rw [found, found']
      exact .cons twin .nil
  | cons first rest => exact .cons first rest

theorem Agree.defaultHierarchy {joins joins' : List Column}
    (h : List.Forall₂ (Column.Respelled v.Spelled) joins joins') (attributes : LevelTable) :
    Agree v Eq (defaultHierarchy d joins attributes) (defaultHierarchy d' joins' attributes) := by
  have columns := defaultColumns_related same.table h
  unfold Conversion.defaultHierarchy
  dsimp only
  rw [same.table.name_eq]
  generalize defaultColumns d.table joins = found at columns
  generalize defaultColumns d'.table joins' = found' at columns
  have empty : found'.isEmpty = found.isEmpty := by
    cases columns <;> rfl
  rw [empty]
  split
  · exact .bind_eq (.log_refl _) fun _ => .pure rfl
  refine .bind_eq (.foldlM columns (fun state _ c c' equal twin => ?_) rfl) fun state =>
    .bind_eq (.uniqueName _) fun _ => .pure rfl
  subst equal
  rw [twin.name_eq]
  exact .addLevel same _ twin _ _

theorem Agree.hierarchies {joins joins' : List Column}
    (h : List.Forall₂ (Column.Respelled v.Spelled) joins joins') :
    Agree v Eq (hierarchies d joins) (hierarchies d' joins') := by
  refine .bind_eq (.foldlM same.table.hierarchies (fun known _ _ _ equal twin => ?_) rfl)
    fun known => ?_
  · subst equal
    exact .bind_eq (.explicitHierarchy same h _ twin) fun _ => .pure rfl
  dsimp only
  split
  · exact .bind_eq (.defaultHierarchy same h _) fun _ => .pure rfl
  · exact .pure rfl

theorem Agree.attachSecondaryAttributes (attributes : LevelTable) (found : List Hierarchy) :
    Agree v Eq (attachSecondaryAttributes d attributes found)
      (attachSecondaryAttributes d' attributes found) := by
  cases found with
  | nil => exact .pure rfl
  | cons first others =>
    have secondary := filter_of_forall₂
      (p := fun c => isShown c && (attributes.lookup (Text.lower c.name)).isNone)
      (q := fun c => isShown c && (attributes.lookup (Text.lower c.name)).isNone)
      same.table.columns fun c c' twin => by
        obtain ⟨_, -, rfl⟩ := twin
        rfl
    have place : designatedPosition d'.table attributes first.levels =
        designatedPosition d.table attributes first.levels := by
      unfold designatedPosition
      obtain ⟨none, none'⟩ | ⟨c, c', found, found', twin⟩ := cases_of_rel same.table.keyColumn?
      · rw [none, none']
      · rw [found, found', Option.bind_some, Option.bind_some, twin.name_eq]
    refine .bind_eq (.mapM secondary fun c c' twin => ?_) fun made => ?_
    · unfold secondaryAttribute
      rw [same.table.name_eq, same.dataset]
      obtain ⟨_, -, rfl⟩ := twin
      exact .bind_eq (.uniqueName _) fun _ => .pure rfl
    · dsimp only
      rw [place]
      exact .pure rfl

end Levels

theorem Agree.resolveDimension (h : v.Sources source source') (twin : t.Respelled v.Spelled t') :
    Agree v Eq (resolveDimension source t) (resolveDimension source' t') := by
  have joins := joinColumns_related h twin
  have noted := joinDiagnostics_related h twin
  unfold Conversion.resolveDimension
  rw [twin.name_eq, h.settings]
  refine .bind_eq (.dimensionName _) fun name => .bind_eq (.log noted) fun _ =>
    .bind_eq (.datasetName _) fun dataset => ?_
  have same : Describes v ⟨t, dataset⟩ ⟨t', dataset⟩ := ⟨twin, rfl⟩
  refine .bind_eq (.hierarchies same joins) fun made =>
    .bind_eq (.attachSecondaryAttributes same _ _) fun found => ?_
  obtain ⟨_, _, -, -, rfl⟩ := twin
  exact .bind_eq (.log_refl _) fun _ => .store _

theorem Agree.resolveDimensions (h : v.Sources source source') :
    Agree v Eq (resolveDimensions source) (resolveDimensions source') := by
  refine .bind_eq (.forIn_tables h.tables (fun t t' twin => ?_) fun t ht => ?_) fun _ => .pure rfl
  · refine .bind .get fun s s' related => ?_
    rw [twin.respelled.name_eq, related.classes.dimension_eq]
    split
    · exact .bind_eq (.resolveDimension h twin.respelled) fun _ => .pure rfl
    · exact .pure rfl
  · refine .get_right fun s s' related => ?_
    rw [if_neg (by rw [(related.classes.contains_stranger ht).2.2]; exact Bool.false_ne_true)]
    exact .pure rfl

end SemanticLayer.Conversion
