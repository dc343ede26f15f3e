import SemanticLayer.Proofs.Conversion.References
import SemanticLayer.Proofs.Conversion.Totality

set_option autoImplicit false

namespace SemanticLayer

open Tabular (Table Column Measure)

/-- All that a conversion has noted by its end, be it with a result or without one. -/
def Settings.notes [Sql.Parser] (settings : Settings) (database : Tabular.Database)
    (connection : String) : List Diagnostic :=
  (Conversion.lastState ((Conversion.run ⟨database.model, settings⟩ database connection).run
    (.initial settings))).diagnostics

def unusedNotice (table : String) : Diagnostic :=
  ⟨.info, some table, "table is unused and was skipped"⟩

def tableRequest : String := "formula references unknown table '"

def unknownTableMessage (table : String) : String := tableRequest ++ table ++ "'"

namespace Conversion

open Formula (AggregateCall MeasureSource)

/-- The aggregations that the formula of a measure is, or that stand in it, as it is written or in
its normal form. -/
def calls (m : Measure) : List AggregateCall :=
  (Formula.singleAggregate m.expression.text.toList).toList ++ (forms m).flatMap fun form =>
    (Formula.ofText form).targets.filterMap fun
      | .aggregate call => some call
      | .measure _ => none

theorem mem_calls_of_singleAggregate {m : Measure} {call : AggregateCall}
    (h : Formula.singleAggregate m.expression.text.toList = some call) : call ∈ calls m :=
  List.mem_append_left _ (Option.mem_toList.2 h)

theorem mem_calls_of_mem_targets {m : Measure} {call : AggregateCall} {form : String}
    (listed : form ∈ forms m) (h : .aggregate call ∈ (Formula.ofText form).targets) :
    call ∈ calls m :=
  List.mem_append_right _ (List.mem_flatMap.2 ⟨form, listed,
    List.mem_filterMap.2 ⟨.aggregate call, h, rfl⟩⟩)

/-- The messages of a conversion, apart from those about the time units of levels. -/
inductive Remark (source : Source) : Diagnostic → Prop
  | renamed {d : Diagnostic} (q : Identifier.Request) (given : Identifier.Allocation)
    (h : d ∈ renameDiagnostics q given) : Remark source d
  | unused (table : String) : Remark source (unusedNotice table)
  | call {m : Measure} {call : AggregateCall} {problem : String}
    (measure : ∃ t ∈ source.model.tables, m ∈ t.measures) (called : call ∈ calls m)
    (failed : aggregateTarget source call = .error problem) :
    Remark source ⟨.warning, some m.name, problem⟩
  | normalized (m : Measure) : Remark source ⟨.info, some m.name,
      "formula translated after removing comments and redundant parentheses"⟩
  | remainder (m : Measure) (remainder : String) :
    Remark source ⟨.warning, some m.name, remainderMessage m remainder⟩
  | circular (m : Measure) :
    Remark source ⟨.warning, some m.name, "measure reaches itself through other measures"⟩
  | helper (name : String) : Remark source ⟨.info, some name,
      "helper metric is not referenced by any translated formula"⟩
  | dataset {d : Diagnostic} (t : Table) (h : d ∈ tableDiagnostics source t) :
    Remark source d
  | summary {d : Diagnostic} (t : Table) (c : Column) (h : d ∈ summaryDiagnostics t c) :
    Remark source d
  | nonAdditive (t : Table) (c : Column) : Remark source ⟨.info, some (columnObject t.name c.name),
      "column looks non-additive; no metric created"⟩
  | join {d : Diagnostic} (t : Table) (h : d ∈ joinDiagnostics source t) : Remark source d
  | sort {d : Diagnostic} (t : Table) (c : Column) (h : d ∈ sortDiagnostics t c) : Remark source d
  | level (t : Table) (h : Tabular.Hierarchy) (l : Tabular.Level) :
    Remark source ⟨.warning, some (t.name ++ "/" ++ h.name),
      "level '" ++ l.name ++ "' uses unknown column '" ++ l.column ++ "'"⟩
  | appended (t : Table) (h : Tabular.Hierarchy) (c : Column) :
    Remark source ⟨.info, some (t.name ++ "/" ++ h.name),
      "appended hidden level '" ++ c.name ++ "' so relationships can join"⟩
  | noLevels (t : Table) (h : Tabular.Hierarchy) :
    Remark source ⟨.warning, some (t.name ++ "/" ++ h.name),
      "hierarchy has no usable levels; skipped"⟩
  | noHierarchy (t : Table) : Remark source ⟨.warning, some t.name,
      "dimension has no column to build a hierarchy from"⟩
  | skipped (r : Tabular.Relationship) {severity : Severity} {reason : String}
    (h : joinEnds source.model r = .error (severity, reason)) :
    Remark source ⟨severity, some (relationshipObject r), reason⟩
  | joinsNoLevel (r : Tabular.Relationship) : Remark source ⟨.warning, some (relationshipObject r),
      "join column is not a level of the target dimension"⟩
  | unconverted (r : Tabular.Relationship) : Remark source ⟨.warning, some (relationshipObject r),
      "relationship endpoints were not converted"⟩
  | selfJoinless (t : Table) : Remark source ⟨.warning, some t.name,
      "dimension has no level to join its own dataset to"⟩
  | selfJoined (t : Table) : Remark source ⟨.info, some t.name,
      "joined dataset to its own dimension"⟩
  | ambiguous (dataset through other : String) : Remark source ⟨.warning, some dataset,
      "dimension '" ++ other ++ "' is joined directly and also reachable through '" ++
        through ++ "'"⟩
  | repeated (table : String) (count : Nat) : Remark source ⟨.info, some table,
      toString count ++ " metric(s) repeat across unrelated dimensions"⟩
  | absentTable (object : String) : Remark source ⟨.warning, some object,
      "perspective references an unknown table"⟩
  | absentMeasure (object name : String) : Remark source ⟨.warning, some object,
      "perspective measure '" ++ name ++ "' was not converted"⟩
  | absentHierarchy (object name : String) : Remark source ⟨.warning, some object,
      "perspective hierarchy '" ++ name ++ "' was not converted"⟩
  | orphan (name : String) : Remark source ⟨.info, some name,
      "dimension is not reachable from any dataset; not referenced by the model"⟩

inductive Note (source : Source) : Diagnostic → Prop
  | remark {d : Diagnostic} (h : Remark source d) : Note source d
  | time {d : Diagnostic} (t : Table) (attributes : List LevelAttribute)
    (h : d ∈ timeDiagnostics source.settings t attributes) : Note source d

/-- However a run ends, it only adds to the log, and only messages of a kind. -/
def Notes (N : Diagnostic → Prop) {A : Type} (x : Run A) : Prop :=
  ∀ s, ∃ entries, (lastState (x.run s)).diagnostics = s.diagnostics ++ entries ∧
    ∀ d ∈ entries, N d

namespace Notes

variable {A B : Type} {source : Source} {N N' : Diagnostic → Prop}

theorem idle {x : Run A} (same : ∀ s, (lastState (x.run s)).diagnostics = s.diagnostics) :
    Notes N x := fun s =>
  ⟨[], (same s).trans (List.append_nil _).symm, List.forall_mem_nil _⟩

theorem mono {x : Run A} (hx : Notes N x) (h : ∀ d, N d → N' d) : Notes N' x := fun s =>
  (hx s).imp fun _ added => ⟨added.1, fun d hd => h d (added.2 d hd)⟩

protected theorem pure (a : A) : Notes N (pure a : Run A) := .idle fun _ => rfl

protected theorem get : Notes N get := .idle fun _ => rfl

protected theorem lift (x : Except ConversionError A) : Notes N (liftM x : Run A) := by
  cases x with
  | ok a => exact .idle fun _ => rfl
  | error e => exact .idle fun _ => rfl

protected theorem modify {f : State → State} (same : ∀ s, (f s).diagnostics = s.diagnostics) :
    Notes N (modify f : Run Unit) := .idle same

protected theorem log {entries : List Diagnostic} (h : ∀ d ∈ entries, N d) :
    Notes N (log entries) := fun _ => ⟨entries, rfl, h⟩

theorem log_one {d : Diagnostic} (h : N d) : Notes N (log [d]) :=
  .log fun _ hd => List.mem_singleton.1 hd ▸ h

protected theorem bind {x : Run A} {f : A → Run B} (hx : Notes N x) (hf : ∀ a, Notes N (f a)) :
    Notes N (x >>= f) := by
  intro s
  obtain ⟨entries, added, kinds⟩ := hx s
  rw [StateT.run_bind]
  cases ran : x.run s with
  | error halt =>
    rw [ran] at added
    exact ⟨entries, added, kinds⟩
  | ok p =>
    obtain ⟨a, s₁⟩ := p
    rw [ran] at added
    obtain ⟨more, added', kinds'⟩ := hf a s₁
    have first : s₁.diagnostics = s.diagnostics ++ entries := added
    rw [first, List.append_assoc] at added'
    exact ⟨entries ++ more, added', fun d hd => (List.mem_append.1 hd).elim (kinds d) (kinds' d)⟩

theorem composes : Composes (Notes N) where
  pure := .pure
  bind := .bind

protected theorem store (change : Output → Except ConversionError Output) :
    Notes N (store change) := by
  refine .idle fun s => ?_
  rw [run_store]
  cases change s.output with
  | ok output => rfl
  | error e => rfl

protected theorem forIn {xs : List A} {f : A → PUnit → Run (ForInStep PUnit)}
    (hf : ∀ x ∈ xs, Notes N (f x ⟨⟩)) : Notes N (forIn xs PUnit.unit f) :=
  composes.forIn hf

protected theorem foldlM {xs : List A} {f : B → A → Run B}
    (hf : ∀ b, ∀ x ∈ xs, Notes N (f b x)) (b : B) : Notes N (xs.foldlM f b) :=
  composes.foldlM hf b

protected theorem uniqueName (q : Identifier.Request) :
    Notes (Remark source) (uniqueName q) := fun s =>
  ⟨_, congrArg (fun r => (lastState r).diagnostics) (run_uniqueName q s),
    fun _ hd => .renamed q _ hd⟩

protected theorem datasetName (table : String) : Notes (Remark source) (datasetName table) :=
  .uniqueName _

protected theorem dimensionName (table : String) : Notes (Remark source) (dimensionName table) :=
  .uniqueName _

theorem remarks {x : Run A} (hx : Notes (Remark source) x) : Notes (Note source) x :=
  hx.mono fun _ => .remark

end Notes

section Steps

variable {source : Source}

section Measures

theorem Notes.aggregateTarget? {m : Measure} {call : AggregateCall}
    (measure : ∃ t ∈ source.model.tables, m ∈ t.measures) (called : call ∈ calls m) :
    Notes (Remark source) (aggregateTarget? source call m.name) := by
  unfold Conversion.aggregateTarget?
  cases found : aggregateTarget source call with
  | ok target => exact .pure _
  | error problem => exact .bind (.log_one (.call measure called found)) fun _ => .pure _

theorem Notes.registerMetric (m : Metric) (table key : String) :
    Notes (Remark source) (registerMetric m table key) :=
  .bind (.store _) fun _ => .modify fun _ => rfl

theorem Notes.resolveAs (key uniqueName : String) :
    Notes (Remark source) (resolveAs key uniqueName) :=
  .modify fun _ => rfl

theorem Notes.simpleMeasure {owner : Table} {m : Measure} {call : AggregateCall}
    (measure : ∃ t ∈ source.model.tables, m ∈ t.measures) (called : call ∈ calls m) :
    Notes (Remark source) (simpleMeasure source owner m call) := by
  refine .bind (.aggregateTarget? measure called) fun target => ?_
  cases target with
  | none => exact .pure _
  | some target =>
    exact .bind (.uniqueName _) fun _ => .bind (.datasetName _) fun _ =>
      .bind (.registerMetric _ _ _) fun _ => .resolveAs _ _

theorem Notes.resolveSimpleMeasures : Notes (Remark source) (resolveSimpleMeasures source) := by
  refine .bind (.forIn fun t ht => .bind (.forIn fun m hm => ?_) fun _ => .pure _) fun _ => .pure _
  split
  · rename_i call single
    exact .bind (.simpleMeasure ⟨t, ht, hm⟩ (mem_calls_of_singleAggregate single)) fun _ => .pure _
  · exact .pure _

theorem Notes.aggregateMetric {m : Measure} {call : AggregateCall}
    (measure : ∃ t ∈ source.model.tables, m ∈ t.measures) (called : call ∈ calls m) :
    Notes (Remark source) (aggregateMetric source call m.name) := by
  refine .bind (.aggregateTarget? measure called) fun target => ?_
  cases target with
  | none => exact .pure _
  | some target =>
    refine .bind .get fun s => ?_
    split
    · exact .pure _
    · exact .bind (.uniqueName _) fun _ => .bind (.datasetName _) fun _ =>
        .bind (.registerMetric _ _ _) fun _ => .bind (.modify fun _ => rfl) fun _ => .pure _

theorem Notes.render {references : MeasureSource Run} (form : String)
    (answers : ∀ target ∈ (Formula.ofText form).targets,
      Notes (Remark source) (target.resolve references)) :
    Notes (Remark source) (Formula.render references form) := by
  refine .bind (Notes.composes.evaluate _ answers) fun _ => ?_
  dsimp only
  split <;> exact .pure _

theorem Notes.renderMeasure {references : MeasureSource Run} {m : Measure}
    (answers : ∀ form ∈ forms m, ∀ target ∈ (Formula.ofText form).targets,
      Notes (Remark source) (target.resolve references)) :
    Notes (Remark source) (renderMeasure references m) := by
  refine .bind (.render _ (answers _ List.mem_cons_self)) fun written => ?_
  split
  · exact .pure _
  dsimp only
  split
  · exact .pure _
  refine .bind (.render _ (answers _ (List.mem_cons_of_mem _ List.mem_cons_self)))
    fun normal => ?_
  split
  · exact .bind (.log_one (.normalized m)) fun _ => .pure _
  · exact .pure _

theorem Notes.emitCalc (owner : Table) (m : Measure) (made : String → MetricCalc) :
    Notes (Remark source) (emitCalc owner m made) :=
  .bind (.uniqueName _) fun _ => .bind (.store _) fun _ => .bind (.resolveAs _ _) fun _ => .pure _

theorem Notes.calculatedMeasure (idle : List String) {owner : Table} {m : Measure}
    (owned : owner ∈ source.model.tables) (hm : m ∈ owner.measures) :
    Notes (Remark source) (calculatedMeasure source idle owner m) := by
  rw [calculatedMeasure_eq]
  refine .bind .get fun s => ?_
  split
  · exact .pure _
  split
  swap
  · exact .bind (.log_one (.circular m)) fun _ => .pure _
  rename_i idleKey
  have fewer := withoutKey_length_lt idleKey
  -- References of the formula may be measures again, with one idle measure less.
  refine .bind (.renderMeasure fun form listed target found => ?_) fun outcome => ?_
  · cases target with
    | aggregate call =>
      exact .aggregateMetric ⟨owner, owned, hm⟩ (mem_calls_of_mem_targets listed found)
    | measure name =>
      dsimp only [Formula.Reference.resolve, referencesOf]
      split
      · rename_i t m' meant
        obtain ⟨ht, hm'⟩ := mem_of_referencedMeasure? meant
        exact Notes.calculatedMeasure _ ht hm'
      · exact .pure _
  cases outcome with
  | error remainder =>
    exact .bind (.log_one (.remainder m remainder)) fun _ => .emitCalc _ _ _
  | ok expression => exact .emitCalc _ _ _
termination_by idle.length
decreasing_by
  assumption

theorem Notes.ensureDataset (t : Table) : Notes (Remark source) (ensureDataset source t) := by
  refine .bind (.datasetName _) fun _ => .bind .get fun s => ?_
  split
  · exact .pure _
  · exact .bind (.log fun _ => .dataset t) fun _ => .bind (.store _) fun _ => .pure _

theorem Notes.resolveDatasets : Notes (Remark source) (resolveDatasets source) := by
  have measures {t : Table} (ht : t ∈ source.model.tables) :
      Notes (Remark source) (resolveCalculatedMeasures source t) :=
    .bind (.forIn fun _ hm => .bind (.calculatedMeasure _ ht hm) fun _ => .pure _) fun _ => .pure _
  refine .bind (.forIn fun t ht => ?_) fun _ => .bind .get fun s =>
    .bind (.forIn fun name _ => ?_) fun _ => .pure _
  · refine .bind .get fun s => ?_
    dsimp only
    split
    · exact .pure _
    split
    · exact .bind (measures ht) fun _ => .pure _
    · exact .bind (.ensureDataset t) fun _ => .bind (measures ht) fun _ => .pure _
  · split
    · exact .bind (.ensureDataset _) fun _ => .pure _
    · exact .pure _

theorem Notes.reportUnreferencedHelpers : Notes (Remark source) reportUnreferencedHelpers := by
  refine .bind .get fun s => .log fun d hd => ?_
  obtain ⟨name, -, rfl⟩ := List.mem_map.1 hd
  exact .helper name

theorem Notes.columnMetric (t : Table) (c : Column) (f : Formula.AggregateFunction) :
    Notes (Remark source) (columnMetric source t c f) := by
  unfold Conversion.columnMetric
  split
  · exact .bind (.log_one (.nonAdditive t c)) fun _ => .pure _
  refine .bind .get fun _ => ?_
  split
  · exact .pure _
  · exact .bind (.uniqueName _) fun _ => .bind (.datasetName _) fun _ => .registerMetric _ _ _

theorem Notes.resolveColumnMeasures : Notes (Remark source) (resolveColumnMeasures source) := by
  unfold Conversion.resolveColumnMeasures
  split
  · exact .pure _
  refine .bind (.forIn fun t _ => ?_) fun _ => .pure _
  refine .bind .get fun s => ?_
  split
  swap
  · exact .pure _
  refine .bind .get fun s => .bind (.forIn fun c _ => ?_) fun _ => .pure _
  refine .bind (.log fun _ => .summary t c) fun _ => ?_
  split
  · exact .bind (.columnMetric t c _) fun _ => .pure _
  · exact .pure _

end Measures

section Dimensions

variable (d : DimensionSource)

theorem Notes.levelAttribute (levels : LevelTable) (c : Column) (label : String) (hidden : Bool) :
    Notes (Remark source) (levelAttribute d levels c label hidden) := by
  unfold Conversion.levelAttribute
  dsimp only
  split
  · exact .pure _
  · exact .bind (.uniqueName _) fun _ => .bind (.log fun _ => .sort d.table c) fun _ => .pure _

theorem Notes.addLevel (h : HierarchyState) (c : Column) (label : String) (hidden : Bool) :
    Notes (Remark source) (addLevel d h c label hidden) :=
  .bind (.levelAttribute d _ _ _ _) fun _ => .pure _

theorem Notes.listedLevels (hierarchy : Tabular.Hierarchy) (h : HierarchyState) :
    Notes (Remark source) (listedLevels d hierarchy h) := by
  refine .foldlM (fun h level _ => ?_) _
  split
  · exact .bind (.log_one (.level d.table hierarchy level)) fun _ => .pure _
  split
  · exact .pure _
  · exact .addLevel d _ _ _ _

theorem Notes.appendedLevels (hierarchy : Tabular.Hierarchy) (joins : List Column)
    (h : HierarchyState) : Notes (Remark source) (appendedLevels d hierarchy joins h) := by
  refine .foldlM (fun h c _ => ?_) _
  split
  · exact .pure _
  · exact .bind (.log_one (.appended d.table hierarchy c)) fun _ => .addLevel d _ _ _ _

theorem Notes.explicitHierarchy (joins : List Column) (attributes : LevelTable)
    (hierarchy : Tabular.Hierarchy) :
    Notes (Remark source) (explicitHierarchy d joins attributes hierarchy) := by
  refine .bind (.listedLevels d _ _) fun h => .bind (.appendedLevels d _ _ _) fun h => ?_
  split
  · exact .bind (.log_one (.noLevels d.table hierarchy)) fun _ => .pure _
  · exact .bind (.uniqueName _) fun _ => .pure _

theorem Notes.defaultHierarchy (joins : List Column) (attributes : LevelTable) :
    Notes (Remark source) (defaultHierarchy d joins attributes) := by
  unfold Conversion.defaultHierarchy
  dsimp only
  split
  · exact .bind (.log_one (.noHierarchy d.table)) fun _ => .pure _
  · exact .bind (.foldlM (fun _ _ _ => .addLevel d _ _ _ _) _) fun _ =>
      .bind (.uniqueName _) fun _ => .pure _

theorem Notes.hierarchies (joins : List Column) : Notes (Remark source) (hierarchies d joins) := by
  refine .bind (.foldlM (fun _ _ _ =>
    .bind (.explicitHierarchy d _ _ _) fun _ => .pure _) _) fun _ => ?_
  dsimp only
  split
  · exact .bind (.defaultHierarchy d _ _) fun _ => .pure _
  · exact .pure _

theorem Notes.attachSecondaryAttributes (attributes : LevelTable) (found : List Hierarchy) :
    Notes (Remark source) (attachSecondaryAttributes d attributes found) := by
  cases found with
  | nil => exact .pure _
  | cons first others =>
    exact .bind (Notes.composes.mapM fun _ _ => .bind (.uniqueName _) fun _ => .pure _)
      fun _ => .pure _

omit d in
theorem Notes.resolveDimension (t : Table) : Notes (Note source) (resolveDimension source t) :=
  .bind (Notes.dimensionName _).remarks fun _ => .bind (.log fun _ h => .remark (.join t h))
    fun _ => .bind (Notes.datasetName _).remarks fun _ => .bind (Notes.hierarchies _ _).remarks
      fun _ => .bind (Notes.attachSecondaryAttributes _ _ _).remarks fun _ =>
        .bind (.log fun _ => .time t _) fun _ => .store _

omit d in
theorem Notes.resolveDimensions : Notes (Note source) (resolveDimensions source) := by
  refine .bind (.forIn fun t _ => .bind .get fun s => ?_) fun _ => .pure _
  split
  · exact .bind (.resolveDimension t) fun _ => .pure _
  · exact .pure _

end Dimensions

section Joins

theorem Notes.storeJoin (ends : JoinEnds) (side : JoinSource) (target : JoinTarget) :
    Notes (Remark source) (storeJoin ends side target) := by
  rw [storeJoin_eq]
  refine .bind .get fun s => .bind ?_ fun _ => ?_
  · unfold directJoin
    split
    · exact .bind (.uniqueName _) fun _ => .store _
    · exact .pure _
  · unfold nestedJoin
    split
    · exact .bind (.uniqueName _) fun _ => .bind (.dimensionName _) fun _ => .store _
    · exact .pure _

theorem Notes.resolveRelationship (r : Tabular.Relationship) :
    Notes (Remark source) (resolveRelationship source r) := by
  unfold Conversion.resolveRelationship
  dsimp only
  split
  · rename_i failed
    exact .log_one (.skipped r failed)
  refine .bind .get fun s => ?_
  split
  · exact .log_one (.joinsNoLevel r)
  refine .bind (.dimensionName _) fun _ => .bind (.datasetName _) fun _ =>
    .bind .get fun s => ?_
  split
  · exact .storeJoin _ _ _
  · exact .log_one (.unconverted r)

theorem Notes.addSelfJoin (table : String) : Notes (Remark source) (addSelfJoin source table) := by
  refine .bind .get fun s => ?_
  split
  · exact .pure _
  split
  swap
  · exact .pure _
  rename_i t found
  refine .bind (.dimensionName _) fun _ => .bind .get fun s => ?_
  split
  swap
  · exact .pure _
  split
  · exact .log_one (.selfJoinless t)
  · exact .bind (.datasetName _) fun _ => .bind (.uniqueName _) fun _ =>
      .bind (.store _) fun _ => .log_one (.selfJoined t)

theorem note_of_ambiguityDiagnostics {graph : DimensionGraph} {maxDepth : Nat}
    {direct : List (String × List String)} {entries : List Diagnostic}
    (h : ambiguityDiagnostics graph maxDepth direct = .ok entries) :
    ∀ d ∈ entries, Remark source d := by
  unfold ambiguityDiagnostics at h
  obtain ⟨lists, made, h⟩ := bind_except_ok h
  cases h
  intro d hd
  obtain ⟨list, listed, hd⟩ := List.mem_flatten.1 hd
  obtain ⟨⟨dataset, dimensions⟩, -, made⟩ := mapM_except_ok made list listed
  obtain ⟨pairs, -, made⟩ := bind_except_ok made
  cases made
  obtain ⟨⟨through, other⟩, -, rfl⟩ := List.mem_map.1 hd
  exact .ambiguous dataset through other

theorem Notes.warnAmbiguousPaths : Notes (Remark source) (warnAmbiguousPaths source) := by
  refine .bind .get fun s => ?_
  dsimp only
  cases found : ambiguityDiagnostics (DimensionGraph.ofDimensions s.output.dimensions)
      source.settings.relationships.maxDepth (directDimensions s.names s.output) with
  | error e => exact .idle fun _ => rfl
  | ok entries => exact Notes.log (note_of_ambiguityDiagnostics found)

theorem Notes.resolveRelationships : Notes (Remark source) (resolveRelationships source) :=
  .bind (.forIn fun r _ => .bind (.resolveRelationship r) fun _ => .pure _) fun _ =>
    .bind .get fun _ => .bind (.forIn fun table _ =>
      .bind (.addSelfJoin table) fun _ => .pure _) fun _ => .warnAmbiguousPaths

theorem Notes.backfillRelationships : Notes (Remark source) (backfillRelationships source) := by
  have rest (dataset table : String) : Notes (Remark source) (do
      let count := ((← MonadState.get).output.metrics.filter (·.dataset == dataset)).length
      MonadState.modifyGet fun s : State =>
        (PUnit.unit, { s with output := repeatMetrics dataset s.output })
      info table (toString count ++ " metric(s) repeat across unrelated dimensions")
        : Run Unit) :=
    .bind .get fun _ => .bind (.modify fun _ => rfl) fun _ => .log_one (.repeated table _)
  refine .bind .get fun s => .bind (.forIn fun table _ => ?_) fun _ => .pure _
  refine .bind (.bind (.datasetName _) fun dataset =>
    .bind (.dimensionName _) fun _ => .bind .get fun s => ?_) fun _ => .pure _
  split
  · exact rest dataset table
  · exact .bind (.addSelfJoin table) fun _ => rest dataset table

end Joins

theorem Notes.addPerspectiveTable (perspective : String) (content : PerspectiveContent)
    (entry : Tabular.PerspectiveTable) :
    Notes (Remark source) (addPerspectiveTable source perspective content entry) := by
  unfold Conversion.addPerspectiveTable
  dsimp only
  split
  · exact .bind (.log_one (.absentTable _)) fun _ => .pure _
  refine .bind .get fun s => .bind (.log fun d hd => ?_) fun _ => ?_
  · obtain ⟨name, -, rfl⟩ := List.mem_map.1 hd
    exact .absentMeasure _ name
  split
  · exact .pure _
  refine .bind (.dimensionName _) fun _ => .bind .get fun s =>
    .bind (.log fun d hd => ?_) fun _ => .pure _
  obtain ⟨name, -, rfl⟩ := List.mem_map.1 hd
  exact .absentHierarchy _ name

theorem Notes.resolvePerspectives : Notes (Remark source) (resolvePerspectives source) :=
  .bind (.forIn fun _ _ => .bind (.bind (.foldlM (fun _ _ _ => .addPerspectiveTable _ _ _) _)
    fun _ => .bind .get fun _ => .bind (.lift _) fun _ => .bind (.uniqueName _) fun _ =>
      .store _) fun _ => .pure _) fun _ => .pure _

theorem Notes.assembleModel (label : String) :
    Notes (Remark source) (assembleModel source label) := by
  refine .bind (.uniqueName _) fun _ => .bind .get fun _ =>
    .bind (.lift _) fun _ => .bind (.log fun d hd => ?_) fun _ => .pure _
  obtain ⟨name, -, rfl⟩ := List.mem_map.1 hd
  exact .orphan name

theorem Notes.classifyTables : Notes (Remark source) (classifyTables source) := by
  refine .bind (.modify fun _ => rfl) fun _ => .log fun d hd => ?_
  obtain ⟨name, -, rfl⟩ := List.mem_map.1 hd
  exact .unused name

theorem Notes.prepare (source : Source) (database : Tabular.Database) (connection : String) :
    Notes (Remark source) (prepare source database connection) :=
  .bind (.bind (.uniqueName _) fun _ => .pure _) fun _ =>
    .bind (.bind (.uniqueName _) fun _ => .bind (.modify fun _ => rfl) fun _ => .store _) fun _ =>
      .bind .classifyTables fun _ => .bind (.bind .get fun _ => .bind (.forIn fun _ _ =>
        .bind (.dimensionName _) fun _ => .pure _) fun _ => .pure _) fun _ =>
          .bind .resolveSimpleMeasures fun _ => .bind .resolveDatasets fun _ => .pure _

theorem Notes.reclassify (source : Source) : Notes (Remark source) (reclassify source) :=
  .bind .get fun _ => .modify fun _ => rfl

theorem Notes.afterDimensions (source : Source) (catalog : Catalog) (label : String) :
    Notes (Remark source) (do
      Conversion.resolveRelationships source
      Conversion.resolveColumnMeasures source
      Conversion.backfillRelationships source
      Conversion.resolvePerspectives source
      let model ← Conversion.assembleModel source label
      return (catalog, model)) :=
  .bind .resolveRelationships fun _ => .bind .resolveColumnMeasures fun _ =>
    .bind .backfillRelationships fun _ => .bind .resolvePerspectives fun _ =>
      .bind (.assembleModel _) fun _ => .pure _

theorem notes_run (source : Source) (database : Tabular.Database) (connection : String) :
    Notes (Note source) (run source database connection) := by
  rw [run_eq]
  exact .bind (Notes.prepare source database connection).remarks fun catalog =>
    .bind Notes.reportUnreferencedHelpers.remarks fun _ => .bind (Notes.reclassify source).remarks
      fun _ => .bind .resolveDimensions fun _ => (Notes.afterDimensions source catalog _).remarks

end Steps

theorem note_of_mem_notes [Sql.Parser] {settings : Settings} {database : Tabular.Database}
    {connection : String} {d : Diagnostic} (h : d ∈ settings.notes database connection) :
    Note ⟨database.model, settings⟩ d := by
  obtain ⟨entries, added, kinds⟩ :=
    notes_run ⟨database.model, settings⟩ database connection (.initial settings)
  exact kinds d ((added.trans (List.nil_append entries)) ▸ h)

end Conversion

end SemanticLayer
