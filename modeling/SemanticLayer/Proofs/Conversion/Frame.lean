import Mathlib.Order.Defs.Unbundled
import SemanticLayer.Conversion.Basic
import SemanticLayer.Proofs.Conversion.Output
import SemanticLayer.Proofs.Conversion.Run
import SemanticLayer.Proofs.Formula.Completeness
import SemanticLayer.Proofs.Identifier.Key

set_option autoImplicit false

/-!
What the steps of a conversion leave alone. A frame is a relation between states that answers of the
registry keep; which kinds of objects it admits decides which steps keep it. So one theorem for each
step serves every frame.
-/
namespace SemanticLayer.Conversion

open Formula (MeasureSource Reference)
open Identifier
open Tabular (Table Measure)

variable {A B : Type} {R : State → State → Prop}

/-- A property of runs that carries over from the parts of a run to the whole. -/
structure Composes (Q : {A : Type} → Run A → Prop) : Prop where
  pure : ∀ {A : Type} (a : A), Q (pure a : Run A)
  bind : ∀ {A B : Type} {x : Run A} {f : A → Run B}, Q x → (∀ a, Q (f a)) → Q (x >>= f)

namespace Composes

variable {Q : {A : Type} → Run A → Prop} (composes : Composes Q)
include composes

theorem forIn {xs : List A} {f : A → PUnit → Run (ForInStep PUnit)}
    (hf : ∀ x ∈ xs, Q (f x ⟨⟩)) : Q (forIn xs PUnit.unit f) := by
  induction xs with
  | nil => exact composes.pure _
  | cons x xs ih =>
    rw [List.forIn_cons]
    refine composes.bind (hf x List.mem_cons_self) fun r => ?_
    cases r with
    | done _ => exact composes.pure _
    | yield _ => exact ih fun y hy => hf y (List.mem_cons_of_mem x hy)

theorem foldlM {xs : List A} {f : B → A → Run B} (hf : ∀ b, ∀ x ∈ xs, Q (f b x)) (b : B) :
    Q (xs.foldlM f b) := by
  induction xs generalizing b with
  | nil => exact composes.pure _
  | cons x xs ih =>
    rw [List.foldlM_cons]
    exact composes.bind (hf b x List.mem_cons_self) fun b' =>
      ih (fun b y hy => hf b y (List.mem_cons_of_mem x hy)) b'

theorem mapM {xs : List A} {f : A → Run B} (hf : ∀ x ∈ xs, Q (f x)) : Q (xs.mapM f) := by
  induction xs with
  | nil => exact composes.pure _
  | cons x xs ih =>
    rw [List.mapM_cons]
    exact composes.bind (hf x List.mem_cons_self) fun _ =>
      composes.bind (ih fun y hy => hf y (List.mem_cons_of_mem x hy)) fun _ => composes.pure _

variable {references : MeasureSource Run}

theorem evaluate (f : Formula) (answers : ∀ target ∈ f.targets, Q (target.resolve references)) :
    Q (f.evaluate references) := by
  induction f with
  | stop run rest => exact composes.pure _
  | reference run here target tail ih =>
    refine composes.bind (answers target List.mem_cons_self) fun found => ?_
    split
    · exact composes.bind (ih fun other later => answers other (List.mem_cons_of_mem _ later))
        fun _ => composes.pure _
    · exact composes.pure _
  | ratio run here numerator denominator tail ihNumerator ihDenominator ihTail =>
    have above := ihNumerator fun target h =>
      answers target (List.mem_append_left _ (List.mem_append_left _ h))
    have below := ihDenominator fun target h =>
      answers target (List.mem_append_left _ (List.mem_append_right _ h))
    have rest := ihTail fun target h => answers target (List.mem_append_right _ h)
    rw [Formula.evaluate]
    split
    · exact composes.pure _
    refine composes.bind above fun upper => ?_
    split
    swap
    · exact composes.pure _
    split
    · exact composes.pure _
    refine composes.bind below fun lower => ?_
    split
    · exact composes.bind rest fun _ => composes.pure _
    · exact composes.pure _

variable (answers : ∀ target : Reference, target.Shaped → Q (target.resolve references))
include answers

theorem render (text : String) : Q (Formula.render references text) := by
  refine composes.bind (composes.evaluate _ fun target found =>
    answers target (Formula.shaped_of_mem_targets _ target found)) fun _ => ?_
  dsimp only
  split <;> exact composes.pure _

theorem renderMeasure (log : ∀ entries, Q (log entries)) (measure : Measure) :
    Q (renderMeasure references measure) := by
  refine composes.bind (composes.render answers _) fun written => ?_
  split
  · exact composes.pure _
  dsimp only
  split
  · exact composes.pure _
  refine composes.bind (composes.render answers _) fun normal => ?_
  split
  · exact composes.bind (log _) fun _ => composes.pure _
  · exact composes.pure _

end Composes

/-- However a run ends, it ends in a state that is related to the one it started in. -/
def Keeps (R : State → State → Prop) (x : Run A) : Prop :=
  ∀ s a s', x.run s = .ok (a, s') → R s s'

def JoinFree (key : String) : Prop := Key.word key ≠ "relationship"

theorem JoinFree.of_word {key word : String} (h : Key.word key = word)
    (other : word ≠ "relationship" := by decide) : JoinFree key :=
  fun same => other (h.symm.trans same)

/-- A relation that is kept by further messages, and by answers of the registry as long as these are
not for joins. -/
class JoinFreeStepFrame (R : State → State → Prop) : Prop extends IsTrans State R where
  logged : ∀ s s' : State, s'.names = s.names → s'.tables = s.tables → s'.output = s.output →
    s'.measures = s.measures → s.diagnostics ⊆ s'.diagnostics → R s s'
  other : ∀ (s : State) (q : Request), JoinFree q.key →
    R s { s with names := (s.names.allocate q).2 }

/-- A relation that is kept by answers of the registry and by further messages. -/
class StepFrame (R : State → State → Prop) : Prop extends JoinFreeStepFrame R where
  name : ∀ (s : State) (q : Request), R s { s with names := (s.names.allocate q).2 }
  other := fun s q _ => name s q

/-- A relation that moreover looks at the registry, the result and the log only, be it one that
answers for joins need not keep. -/
class JoinFreeFrame (R : State → State → Prop) : Prop extends IsTrans State R where
  same : ∀ s s' : State, s'.names = s.names → s'.output = s.output →
    s.diagnostics ⊆ s'.diagnostics → R s s'
  other : ∀ (s : State) (q : Request), JoinFree q.key →
    R s { s with names := (s.names.allocate q).2 }

/-- A relation that moreover all answers of the registry keep. -/
class Frame (R : State → State → Prop) : Prop extends JoinFreeFrame R where
  name : ∀ (s : State) (q : Request), R s { s with names := (s.names.allocate q).2 }
  other := fun s q _ => name s q

instance [JoinFreeFrame R] : JoinFreeStepFrame R where
  logged s s' names _ output _ := JoinFreeFrame.same s s' names output
  other := JoinFreeFrame.other

instance [Frame R] : StepFrame R where
  name := Frame.name

instance [JoinFreeStepFrame R] : Std.Refl R :=
  ⟨fun s => JoinFreeStepFrame.logged s s rfl rfl rfl rfl (List.Subset.refl _)⟩

def Spares {B : Type} (part : Output → B) (s s' : State) : Prop := part s'.output = part s.output

instance {B : Type} (part : Output → B) : Frame (Spares part) where
  trans _ _ _ h h' := h'.trans h
  same _ _ _ output _ := congrArg part output
  name _ _ := rfl

def KeepsExhausted (s s' : State) : Prop := s'.names.exhausted = [] → s.names.exhausted = []

instance : Frame KeepsExhausted where
  trans _ _ _ h h' := h ∘ h'
  same _ _ names _ _ fresh := names ▸ fresh
  name _ _ := Identifier.Registry.exhausted_of_allocate

/-- The classes of the tables and the memo are left as they were. -/
structure Steady (s s' : State) : Prop where
  tables : s'.tables = s.tables
  measures : s'.measures = s.measures

instance : StepFrame Steady where
  trans _ _ _ h h' := ⟨h'.tables.trans h.tables, h'.measures.trans h.measures⟩
  logged _ _ _ tables _ measures _ := ⟨tables, measures⟩
  name _ _ := ⟨rfl, rfl⟩

/-- Whether a relation is kept by a change of the result. -/
def Admits (R : State → State → Prop) (change : Output → Except ConversionError Output) : Prop :=
  ∀ (s : State) (output : Output), change s.output = .ok output → R s { s with output }

section Spares

variable {part : Output → B}

theorem Admits.addConnection {c : Connection}
    (h : ∀ {o : Output} {connectionMap}, part { o with connectionMap } = part o) :
    Admits (Spares part) (·.addConnection c) := fun _ _ added => by
  obtain ⟨rfl, -⟩ := Output.addConnection_ok added
  exact h

theorem Admits.addMetric {m : Metric}
    (h : ∀ {o : Output} {metricMap}, part { o with metricMap } = part o) :
    Admits (Spares part) (·.addMetric m) := fun _ _ added => by
  obtain ⟨rfl, -⟩ := Output.addMetric_ok added
  exact h

theorem Admits.addMetricCalc {m : MetricCalc}
    (h : ∀ {o : Output} {metricCalcMap}, part { o with metricCalcMap } = part o) :
    Admits (Spares part) (·.addMetricCalc m) := fun _ _ added => by
  obtain ⟨rfl, -⟩ := Output.addMetricCalc_ok added
  exact h

theorem Admits.addPerspective {p : Perspective}
    (h : ∀ {o : Output} {perspectiveMap}, part { o with perspectiveMap } = part o) :
    Admits (Spares part) (·.addPerspective p) := fun _ _ added => by
  obtain ⟨rfl, -⟩ := Output.addPerspective_ok added
  exact h

theorem Admits.addJoin {r : Relationship}
    (h : ∀ {o : Output} {relationshipMap}, part { o with relationshipMap } = part o) :
    Admits (Spares part) (·.addJoin r) := fun _ _ added => by
  obtain ⟨rfl, -⟩ := Output.addJoin_ok added
  exact h

theorem Admits.addDimension
    (h : ∀ {o : Output} {dimensionMap}, part { o with dimensionMap } = part o)
    (d : Dimension) (plain : d.relationships = []) : Admits (Spares part) (·.addDimension d) :=
  fun _ _ added => by
    obtain ⟨rfl, -⟩ := Output.addDimension_ok added plain
    exact h

theorem Admits.addNestedJoin
    (h : ∀ {o : Output} {dimensionMap embedded}, part { o with dimensionMap, embedded } = part o)
    (owner : String) (r : Relationship) : Admits (Spares part) (·.addNestedJoin owner r) :=
  fun _ _ added => by
    obtain ⟨rfl, -⟩ := Output.addNestedJoin_ok added
    exact h

theorem Admits.addDataset {d : Dataset}
    (h : ∀ {o : Output} {datasetMap}, part { o with datasetMap } = part o) :
    Admits (Spares part) (·.addDataset d) := fun _ _ added => by
  obtain ⟨rfl, -⟩ := Output.addDataset_ok added
  exact h

end Spares

theorem Keeps.store {change : Output → Except ConversionError Output} (h : Admits R change) :
    Keeps R (store change) := fun s _ _ run => by
  obtain ⟨output, made, rfl⟩ := store_ok run
  exact h s output made

section Preorder

variable [Std.Refl R]

theorem Keeps.pure (a : A) : Keeps R (pure a : Run A) := fun s _ _ h => by
  obtain ⟨-, rfl⟩ := pure_ok h
  exact Std.Refl.refl s

theorem Keeps.get : Keeps R (get : Run State) := fun s _ _ h => by
  obtain ⟨-, rfl⟩ := get_ok h
  exact Std.Refl.refl s

theorem Keeps.lift (x : Except ConversionError A) : Keeps R (liftM x : Run A) := fun s _ _ h => by
  obtain ⟨-, rfl⟩ := lift_ok h
  exact Std.Refl.refl s

variable [IsTrans State R]

omit [Std.Refl R] in
theorem Keeps.bind {x : Run A} {f : A → Run B} (hx : Keeps R x) (hf : ∀ a, Keeps R (f a)) :
    Keeps R (x >>= f) := fun s b s' h => by
  obtain ⟨a, s₁, first, second⟩ := bind_ok h
  exact Trans.trans (hx s a s₁ first) (hf a s₁ b s' second)

theorem Keeps.composes : Composes (Keeps R) where
  pure := .pure
  bind := .bind

theorem Keeps.forIn {xs : List A} {f : A → PUnit → Run (ForInStep PUnit)}
    (hf : ∀ x ∈ xs, Keeps R (f x ⟨⟩)) : Keeps R (forIn xs PUnit.unit f) :=
  Keeps.composes.forIn hf

theorem Keeps.renderMeasure {references : MeasureSource Run}
    (answers : ∀ target : Reference, target.Shaped → Keeps R (target.resolve references))
    (log : ∀ entries, Keeps R (log entries)) (measure : Measure) :
    Keeps R (renderMeasure references measure) :=
  Keeps.composes.renderMeasure answers log measure

end Preorder

section Basics

theorem Keeps.modify [JoinFreeFrame R] {f : State → State} (names : ∀ s, (f s).names = s.names)
    (output : ∀ s, (f s).output = s.output) (log : ∀ s, (f s).diagnostics = s.diagnostics) :
    Keeps R (modify f : Run Unit) := fun s _ _ h => by
  obtain rfl := modify_ok h
  exact JoinFreeFrame.same s _ (names s) (output s) (log s ▸ List.Subset.refl _)

variable [JoinFreeStepFrame R]

theorem Keeps.log (entries : List Diagnostic) : Keeps R (log entries) := fun s _ _ h => by
  obtain rfl := log_ok h
  exact JoinFreeStepFrame.logged s _ rfl rfl rfl rfl (List.subset_append_left _ _)

theorem Keeps.answer {q : Request}
    (answered : ∀ s : State, R s { s with names := (s.names.allocate q).2 }) :
    Keeps R (Conversion.uniqueName q) := fun s _ _ h => by
  obtain ⟨-, rfl⟩ := uniqueName_ok h
  exact Trans.trans (answered s)
    (JoinFreeStepFrame.logged (R := R) _ _ rfl rfl rfl rfl (List.subset_append_left _ _))

theorem Keeps.otherName (q : Request) (h : JoinFree q.key) : Keeps R (uniqueName q) :=
  .answer fun s => JoinFreeStepFrame.other s q h

theorem Keeps.datasetName (table : String) : Keeps R (datasetName table) :=
  .otherName _ (.of_word (Key.word_dataset _))

theorem Keeps.dimensionName (table : String) : Keeps R (dimensionName table) :=
  .otherName _ (.of_word (Key.word_dimension _))

omit [JoinFreeStepFrame R] in
theorem Keeps.uniqueName [StepFrame R] (q : Request) : Keeps R (uniqueName q) :=
  .answer fun s => StepFrame.name s q

end Basics

section Light

/-- A step that asks for identifiers of anything but joins, logs and looks things up, and makes
nothing. -/
inductive Light : {A : Type} → Run A → Prop where
  | pure {A : Type} (a : A) : Light (pure a)
  | get : Light get
  | log (entries : List Diagnostic) : Light (log entries)
  | uniqueName (q : Request) (h : JoinFree q.key) : Light (uniqueName q)
  | bind {A B : Type} {x : Run A} {f : A → Run B} (hx : Light x) (hf : ∀ a, Light (f a)) :
    Light (x >>= f)

theorem Light.keeps [JoinFreeStepFrame R] {x : Run A} (h : Light x) : Keeps R x := by
  induction h with
  | pure a => exact .pure a
  | get => exact .get
  | log entries => exact .log entries
  | uniqueName q h => exact .otherName q h
  | bind _ _ ihx ihf => exact .bind ihx ihf

theorem Light.datasetName (table : String) : Light (datasetName table) :=
  .uniqueName _ (.of_word (Key.word_dataset _))

theorem Light.dimensionName (table : String) : Light (dimensionName table) :=
  .uniqueName _ (.of_word (Key.word_dimension _))

theorem Light.composes : Composes Light where
  pure := .pure
  bind := .bind

theorem Light.forIn {xs : List A} {f : A → PUnit → Run (ForInStep PUnit)}
    (hf : ∀ x ∈ xs, Light (f x ⟨⟩)) : Light (forIn xs PUnit.unit f) :=
  Light.composes.forIn hf

theorem Light.foldlM {xs : List A} {f : B → A → Run B} (hf : ∀ b, ∀ x ∈ xs, Light (f b x)) (b : B) :
    Light (xs.foldlM f b) :=
  Light.composes.foldlM hf b

theorem Light.mapM {xs : List A} {f : A → Run B} (hf : ∀ x ∈ xs, Light (f x)) :
    Light (xs.mapM f) :=
  Light.composes.mapM hf

theorem Light.aggregateTarget? (source : Source) (call : Formula.AggregateCall) (object : String) :
    Light (aggregateTarget? source call object) := by
  unfold Conversion.aggregateTarget?
  split
  · exact .pure _
  · exact .bind (.log _) fun _ => .pure _

theorem Light.levelAttribute (d : DimensionSource) (levels : LevelTable) (c : Tabular.Column)
    (label : String) (hidden : Bool) : Light (levelAttribute d levels c label hidden) := by
  unfold Conversion.levelAttribute
  dsimp only
  split
  · exact .pure _
  · exact .bind (.uniqueName _ (.of_word (Key.word_level _ _))) fun _ => .bind (.log _) fun _ =>
      .pure _

theorem Light.addLevel (d : DimensionSource) (h : HierarchyState) (c : Tabular.Column)
    (label : String) (hidden : Bool) : Light (addLevel d h c label hidden) :=
  .bind (.levelAttribute _ _ _ _ _) fun _ => .pure _

theorem Light.listedLevels (d : DimensionSource) (hierarchy : Tabular.Hierarchy)
    (h : HierarchyState) : Light (listedLevels d hierarchy h) := by
  refine .foldlM (fun h level _ => ?_) _
  split
  · exact .bind (.log _) fun _ => .pure _
  split
  · exact .pure _
  · exact .addLevel _ _ _ _ _

theorem Light.appendedLevels (d : DimensionSource) (hierarchy : Tabular.Hierarchy)
    (joins : List Tabular.Column) (h : HierarchyState) :
    Light (appendedLevels d hierarchy joins h) := by
  refine .foldlM (fun h c _ => ?_) _
  split
  · exact .pure _
  · exact .bind (.log _) fun _ => .addLevel _ _ _ _ _

theorem Light.explicitHierarchy (d : DimensionSource) (joins : List Tabular.Column)
    (attributes : LevelTable) (hierarchy : Tabular.Hierarchy) :
    Light (explicitHierarchy d joins attributes hierarchy) := by
  refine .bind (.listedLevels _ _ _) fun h =>
    .bind (.appendedLevels _ _ _ _) fun h => ?_
  split
  · exact .bind (.log _) fun _ => .pure _
  · exact .bind (.uniqueName _ (.of_word (Key.word_hierarchy _ _))) fun _ => .pure _

theorem Light.defaultHierarchy (d : DimensionSource) (joins : List Tabular.Column)
    (attributes : LevelTable) : Light (defaultHierarchy d joins attributes) := by
  unfold Conversion.defaultHierarchy
  dsimp only
  split
  · exact .bind (.log _) fun _ => .pure _
  · exact .bind (.foldlM (fun _ _ _ => .addLevel _ _ _ _ _) _) fun _ =>
      .bind (.uniqueName _ (.of_word (Key.word_hierarchy _ _))) fun _ => .pure _

theorem Light.hierarchies (d : DimensionSource) (joins : List Tabular.Column) :
    Light (hierarchies d joins) := by
  refine .bind (.foldlM (fun _ _ _ =>
    .bind (.explicitHierarchy _ _ _ _) fun _ => .pure _) _) fun _ => ?_
  dsimp only
  split
  · exact .bind (.defaultHierarchy _ _ _) fun _ => .pure _
  · exact .pure _

theorem Light.attachSecondaryAttributes (d : DimensionSource) (attributes : LevelTable)
    (found : List Hierarchy) : Light (attachSecondaryAttributes d attributes found) := by
  cases found with
  | nil => exact .pure _
  | cons first others =>
    exact .bind (.mapM fun _ _ => .bind (.uniqueName _ (.of_word (Key.word_secondaryAttribute _ _)))
      fun _ => .pure _) fun _ => .pure _

theorem Light.addPerspectiveTable (source : Source) (perspective : String)
    (content : PerspectiveContent) (entry : Tabular.PerspectiveTable) :
    Light (addPerspectiveTable source perspective content entry) := by
  unfold Conversion.addPerspectiveTable
  dsimp only
  split
  · exact .bind (.log _) fun _ => .pure _
  refine .bind .get fun s => .bind (.log _) fun _ => ?_
  split
  · exact .pure _
  · exact .bind (.dimensionName _) fun _ => .bind .get fun s =>
      .bind (.log _) fun _ => .pure _

theorem Light.resolveCatalog (source : Source) (label : String) :
    Light (resolveCatalog source label) :=
  .bind (.uniqueName _ (.of_word (Key.word_catalog _))) fun _ => .pure _

theorem Light.reserveDimensionNames : Light reserveDimensionNames :=
  .bind .get fun _ => .bind (.forIn fun _ _ =>
    .bind (.dimensionName _) fun _ => .pure _) fun _ => .pure _

theorem Light.reportUnreferencedHelpers : Light reportUnreferencedHelpers :=
  .bind .get fun _ => .log _

end Light

section Measures

theorem aggregateTarget_word {source : Source} {call : Formula.AggregateCall}
    {target : AggregateTarget} (h : aggregateTarget source call = .ok target) :
    Key.word target.key = "aggregate" := by
  unfold Conversion.aggregateTarget at h
  split at h
  · cases h
  dsimp only at h
  split at h
  · cases h
    exact Key.word_aggregate _ _ _
  split at h
  · cases h
  · cases h
    exact Key.word_aggregate _ _ _

variable [JoinFreeFrame R] (source : Source)

theorem Keeps.registerMetric {m : Metric} (metric : Admits R (·.addMetric m)) (table key : String) :
    Keeps R (registerMetric m table key) :=
  .bind (.store metric) fun _ => .modify (fun _ => rfl) (fun _ => rfl) fun _ => rfl

theorem Keeps.resolveAs (key name : String) : Keeps R (resolveAs key name) :=
  .modify (fun _ => rfl) (fun _ => rfl) fun _ => rfl

variable (metric : ∀ m : Metric, m.unrelatedDimensions = none → Admits R (·.addMetric m))
include metric

theorem Keeps.simpleMeasure (owner : Table) (measure : Measure) (call : Formula.AggregateCall) :
    Keeps R (simpleMeasure source owner measure call) := by
  refine .bind (Light.keeps (.aggregateTarget? source _ _)) fun target => ?_
  split
  · exact .bind (.otherName _ (.of_word (Key.word_measure _ _))) fun _ =>
      .bind (.datasetName _) fun _ => .bind (.registerMetric (metric _ rfl) _ _) fun _ =>
        .resolveAs _ _
  · exact .pure _

theorem Keeps.resolveSimpleMeasures : Keeps R (resolveSimpleMeasures source) := by
  refine .bind (.forIn fun t _ => ?_) fun _ => .pure _
  refine .bind (.forIn fun m _ => ?_) fun _ => .pure _
  split
  · exact .bind (.simpleMeasure source metric _ _ _) fun _ => .pure _
  · exact .pure _

theorem Keeps.aggregateMetric (call : Formula.AggregateCall) (object : String) :
    Keeps R (aggregateMetric source call object) := by
  rw [Conversion.aggregateMetric, Conversion.aggregateTarget?]
  cases found : aggregateTarget source call with
  | error problem =>
    dsimp only
    rw [bind_assoc]
    exact .bind (.log _) fun _ => .pure _
  | ok target =>
    dsimp only
    rw [pure_bind]
    have kind : JoinFree target.key := .of_word (aggregateTarget_word found)
    refine .bind .get fun _ => ?_
    split
    · exact .pure _
    · exact .bind (.otherName _ kind) fun _ => .bind (.datasetName _) fun _ =>
        .bind (.registerMetric (metric _ rfl) _ _) fun _ =>
          .bind (.modify (fun _ => rfl) (fun _ => rfl) fun _ => rfl) fun _ => .pure _

end Measures

section Columns

variable [StepFrame R] (source : Source)

theorem Keeps.columnMetric {t : Table} (registers : ∀ m : Metric, m.unrelatedDimensions = none →
    ∀ key, Keeps R (Conversion.registerMetric m t.name key)) (c : Tabular.Column)
    (f : Formula.AggregateFunction) : Keeps R (columnMetric source t c f) := by
  unfold Conversion.columnMetric
  split
  · exact .bind (.log _) fun _ => .pure _
  refine .bind .get fun _ => ?_
  split
  · exact .pure _
  · exact .bind (.uniqueName _) fun _ => .bind (.datasetName _) fun _ => registers _ rfl _

theorem Keeps.eachColumn (each : ∀ (t : Table) (c : Tabular.Column) (f : Formula.AggregateFunction),
    impliedFunction? c = some f → Keeps R (Conversion.columnMetric source t c f)) :
    Keeps R (resolveColumnMeasures source) := by
  unfold Conversion.resolveColumnMeasures
  split
  · exact .pure _
  refine .bind (.forIn fun t _ => ?_) fun _ => .pure _
  refine .bind .get fun s => ?_
  split
  swap
  · exact .pure _
  refine .bind .get fun s => ?_
  refine .bind (.forIn fun c _ => ?_) fun _ => .pure _
  refine .bind (.log _) fun _ => ?_
  split
  · rename_i implied
    exact .bind (each t c _ implied) fun _ => .pure _
  · exact .pure _

theorem Keeps.columnMeasures (registers : ∀ m : Metric, m.unrelatedDimensions = none →
    ∀ table key, Keeps R (Conversion.registerMetric m table key)) :
    Keeps R (resolveColumnMeasures source) :=
  .eachColumn source fun t c f _ =>
    .columnMetric source (fun m plain => registers m plain t.name) c f

end Columns

theorem Keeps.resolveColumnMeasures [Frame R] (source : Source)
    (metric : ∀ m : Metric, m.unrelatedDimensions = none → Admits R (·.addMetric m)) :
    Keeps R (resolveColumnMeasures source) :=
  .columnMeasures source fun m plain _ _ => .registerMetric (metric m plain) _ _

def referencesOf (source : Source) (idle : List String) (measure : Measure) :
    MeasureSource Run where
  aggregate call := aggregateMetric source call measure.name
  measure name :=
    match referencedMeasure? source.model name with
    | some (t, m) => calculatedMeasure source idle t m
    | none => pure none

def calcRequest (owner : Table) (measure : Measure) : Request where
  candidate := measure.name
  key := Key.measure owner.name measure.name
  kind := .metricCalc
  owner := owner.name

/-- A calculated metric takes its identifier, enters the result and then the memo. -/
def emitCalc (owner : Table) (measure : Measure) (made : String → MetricCalc) :
    Run (Option String) := do
  let name ← uniqueName (calcRequest owner measure)
  store (·.addMetricCalc (made name))
  resolveAs (Key.measure owner.name measure.name) name
  return some name

def emitOutcome (owner : Table) (measure : Measure) : Except String String → Run (Option String)
  | .ok expression => emitCalc owner measure fun name => renderedCalc measure name expression
  | .error remainder => do
    warn measure.name (remainderMessage measure remainder)
    emitCalc owner measure (placeholderCalc measure)

theorem calculatedMeasure_eq (source : Source) (idle : List String) (owner : Table)
    (measure : Measure) :
    calculatedMeasure source idle owner measure = (do
      match (← get).measures.resolved.lookup (Key.measure owner.name measure.name) with
      | some known => return some known
      | none =>
        if Key.measure owner.name measure.name ∈ idle then
          let rest := withoutKey (Key.measure owner.name measure.name) idle
          emitOutcome owner measure (← renderMeasure (referencesOf source rest measure) measure)
        else
          warn measure.name "measure reaches itself through other measures"
          return none) := by
  rw [calculatedMeasure]
  refine bind_congr fun s => ?_
  cases s.measures.resolved.lookup (Key.measure owner.name measure.name) with
  | some known => rfl
  | none =>
    dsimp only
    by_cases idleKey : Key.measure owner.name measure.name ∈ idle
    · rw [dif_pos idleKey, if_pos idleKey]
      refine bind_congr fun outcome => ?_
      cases outcome <;> rfl
    · rw [dif_neg idleKey, if_neg idleKey]

section Formulas

variable [JoinFreeFrame R] (source : Source)
  (metric : ∀ m : Metric, m.unrelatedDimensions = none → Admits R (·.addMetric m))
  (metricCalc : ∀ m, Admits R (·.addMetricCalc m))
include metric metricCalc

omit metric in
theorem Keeps.emitCalc (owner : Table) (measure : Measure) (made : String → MetricCalc) :
    Keeps R (emitCalc owner measure made) :=
  .bind (.otherName _ (.of_word (Key.word_measure _ _))) fun _ => .bind (.store (metricCalc _))
    fun _ => .bind (.resolveAs _ _) fun _ => .pure _

theorem Keeps.calculatedMeasure (idle : List String) (owner : Table) (measure : Measure) :
    Keeps R (calculatedMeasure source idle owner measure) := by
  rw [calculatedMeasure_eq]
  refine .bind .get fun s => ?_
  split
  · exact .pure _
  split
  swap
  · exact .bind (.log _) fun _ => .pure _
  rename_i idleKey
  have fewer := withoutKey_length_lt idleKey
  -- References of the formula may be measures again, with one idle measure less.
  refine .bind (.renderMeasure (fun target _ => ?_) .log _) fun outcome => ?_
  · cases target with
    | aggregate call => exact .aggregateMetric source metric _ _
    | measure name =>
      dsimp only [Formula.Reference.resolve, referencesOf]
      split
      · exact Keeps.calculatedMeasure _ _ _
      · exact .pure _
  cases outcome with
  | error remainder => exact .bind (.log _) fun _ => .emitCalc metricCalc _ _ _
  | ok expression => exact .emitCalc metricCalc _ _ _
termination_by idle.length
decreasing_by
  assumption

theorem Keeps.resolveCalculatedMeasures (t : Table) :
    Keeps R (resolveCalculatedMeasures source t) :=
  .bind (.forIn fun _ _ =>
    .bind (.calculatedMeasure source metric metricCalc _ _ _) fun _ => .pure _)
    fun _ => .pure _

omit metric metricCalc in
theorem Keeps.ensureDataset {t : Table} (dataset : ∀ connectionId uniqueName,
    Admits R (·.addDataset (tableDataset source.settings connectionId uniqueName t))) :
    Keeps R (ensureDataset source t) := by
  refine .bind (.datasetName _) fun _ => .bind .get fun s => ?_
  split
  · exact .pure _
  · exact .bind (.log _) fun _ => .bind (.store (dataset _ _)) fun _ =>
      .pure _

theorem Keeps.resolveDatasets (dataset : ∀ t ∈ source.model.tables, ∀ connectionId uniqueName,
    Admits R (·.addDataset (tableDataset source.settings connectionId uniqueName t))) :
    Keeps R (resolveDatasets source) := by
  have ensure {t : Table} (ht : t ∈ source.model.tables) :=
    Keeps.ensureDataset source (dataset t ht)
  have measures (t : Table) := Keeps.resolveCalculatedMeasures source metric metricCalc t
  refine .bind (.forIn fun t ht => ?_) fun _ => .bind .get fun s =>
    .bind (.forIn fun name _ => ?_) fun _ => .pure _
  · refine .bind .get fun s => ?_
    dsimp only
    split
    · exact .pure _
    split
    · exact .bind (measures t) fun _ => .pure _
    · exact .bind (ensure ht) fun _ => .bind (measures t) fun _ => .pure _
  · split
    · rename_i found
      exact .bind (ensure (List.mem_of_find?_eq_some found)) fun _ => .pure _
    · exact .pure _

end Formulas

section Dimensions

variable [JoinFreeStepFrame R]

variable (source : Source)
  (dimension : ∀ d : Dimension, d.relationships = [] → Admits R (·.addDimension d))
include dimension

theorem Keeps.resolveDimension (t : Table) : Keeps R (resolveDimension source t) :=
  .bind (.dimensionName _) fun _ => .bind (.log _) fun _ =>
    .bind (.datasetName _) fun _ => .bind (Light.keeps (.hierarchies _ _)) fun _ =>
      .bind (Light.keeps (.attachSecondaryAttributes _ _ _)) fun _ =>
        .bind (.log _) fun _ => .store (dimension _ rfl)

theorem Keeps.resolveDimensions : Keeps R (resolveDimensions source) := by
  refine .bind (.forIn fun t _ => ?_) fun _ => .pure _
  refine .bind .get fun s => ?_
  split
  · exact .bind (.resolveDimension source dimension t) fun _ => .pure _
  · exact .pure _

end Dimensions

section Joins

variable [StepFrame R] (source : Source)

theorem Keeps.addSelfJoin (join : ∀ r, Admits R (·.addJoin r)) (table : String) :
    Keeps R (addSelfJoin source table) := by
  refine .bind .get fun s => ?_
  split
  · exact .pure _
  split
  swap
  · exact .pure _
  refine .bind (.dimensionName _) fun _ => .bind .get fun s => ?_
  split
  swap
  · exact .pure _
  split
  · exact .log _
  · exact .bind (.datasetName _) fun _ => .bind (.uniqueName _) fun _ =>
      .bind (.store (join _)) fun _ => .log _

/-- The requests for the identifiers of a join, in each of its forms. -/
def JoinEnds.Asks (ends : JoinEnds) (q : Request) : Prop :=
  q.key = Key.relationship ends.fromTable.name ends.fromColumn.name ends.toTable.name
      ends.toColumn.name ∨
    q.key = Key.embeddedRelationship ends.fromTable.name ends.fromColumn.name ends.toTable.name
      ends.toColumn.name

def directJoin (ends : JoinEnds) (join : JoinSource) (target : JoinTarget) (tables : TableLists) :
    Run Unit :=
  if tables.fact.contains ends.fromTable.name then do
    let name ← uniqueName {
      candidate := ends.fromTable.name ++ "_" ++ ends.toTable.name
      key := Key.relationship ends.fromTable.name ends.fromColumn.name ends.toTable.name
        ends.toColumn.name
      kind := .relationship
      owner := ends.fromTable.name }
    store (·.addJoin ⟨name, join, target⟩)
  else return

def nestedJoin (ends : JoinEnds) (join : JoinSource) (target : JoinTarget) (tables : TableLists) :
    Run Unit :=
  if tables.dimension.contains ends.fromTable.name then do
    let name ← uniqueName {
      candidate := ends.fromTable.name ++ "_" ++ ends.toTable.name
      key := Key.embeddedRelationship ends.fromTable.name ends.fromColumn.name ends.toTable.name
        ends.toColumn.name
      kind := .relationship
      owner := ends.fromTable.name }
    let owner ← dimensionName ends.fromTable.name
    store (·.addNestedJoin owner ⟨name, join, target⟩)
  else return

theorem storeJoin_eq (ends : JoinEnds) (join : JoinSource) (target : JoinTarget) :
    storeJoin ends join target = (do
      let s ← get
      directJoin ends join target s.tables
      nestedJoin ends join target s.tables) := by
  refine bind_congr fun s => ?_
  dsimp only [directJoin]
  split
  · rw [bind_assoc]
    rfl
  · rfl

section Relationship

omit [StepFrame R]

variable [JoinFreeStepFrame R] (join : ∀ r, Admits R (·.addJoin r))
  (nested : ∀ owner r, Admits R (·.addNestedJoin owner r))
  {ends : JoinEnds} (answers : ∀ q, ends.Asks q → Keeps R (Conversion.uniqueName q))
  (side : JoinSource) (target : JoinTarget) (tables : TableLists)

include join answers in
theorem Keeps.directJoin : Keeps R (directJoin ends side target tables) := by
  unfold Conversion.directJoin
  split
  · exact .bind (answers _ (Or.inl rfl)) fun _ => .store (join _)
  · exact .pure _

include nested answers in
theorem Keeps.nestedJoin : Keeps R (nestedJoin ends side target tables) := by
  unfold Conversion.nestedJoin
  split
  · exact .bind (answers _ (Or.inr rfl)) fun _ => .bind (.dimensionName _) fun _ =>
      .store (nested _ _)
  · exact .pure _

include join nested

include answers in
theorem Keeps.storeJoin : Keeps R (storeJoin ends side target) := by
  rw [storeJoin_eq]
  exact .bind .get fun s => .bind (.directJoin join answers side target _) fun _ =>
    .nestedJoin nested answers side target _

theorem Keeps.relationship (r : Tabular.Relationship)
    (answers : ∀ ends, joinEnds source.model r = .ok ends → ∀ q, ends.Asks q →
      Keeps R (Conversion.uniqueName q)) : Keeps R (resolveRelationship source r) := by
  unfold Conversion.resolveRelationship
  dsimp only
  split
  · exact .log _
  rename_i ends made
  refine .bind .get fun s => ?_
  split
  · exact .log _
  refine .bind (.dimensionName _) fun _ => .bind (.datasetName _) fun _ =>
    .bind .get fun s => ?_
  split
  · exact .storeJoin join nested (answers ends made) _ _
  · exact .log _

end Relationship

theorem Keeps.resolveRelationship (join : ∀ r, Admits R (·.addJoin r))
    (nested : ∀ owner r, Admits R (·.addNestedJoin owner r)) (r : Tabular.Relationship) :
    Keeps R (resolveRelationship source r) :=
  .relationship source join nested r fun _ _ q _ => .uniqueName q

theorem Keeps.warnAmbiguousPaths : Keeps R (warnAmbiguousPaths source) :=
  .bind .get fun _ => .bind (.lift _) fun _ => .log _

variable (own : ∀ table, Keeps R (Conversion.addSelfJoin source table))
include own

theorem Keeps.resolveRelationships (each : ∀ r, Keeps R (Conversion.resolveRelationship source r)) :
    Keeps R (resolveRelationships source) :=
  .bind (.forIn fun r _ => .bind (each r) fun _ => .pure _) fun _ =>
    .bind .get fun _ => .bind (.forIn fun table _ =>
      .bind (own table) fun _ => .pure _) fun _ => .warnAmbiguousPaths source

section Backfill

variable (repeats : ∀ s dataset, R s { s with output := repeatMetrics dataset s.output })
include repeats

theorem Keeps.backfillTable (table : String) : Keeps R (backfillTable source table) := by
  have rest (dataset : String) : Keeps R (do
      let count := ((← MonadState.get).output.metrics.filter (·.dataset == dataset)).length
      MonadState.modifyGet fun s : State =>
        (PUnit.unit, { s with output := repeatMetrics dataset s.output })
      info table (toString count ++ " metric(s) repeat across unrelated dimensions")
        : Run Unit) := by
    refine .bind .get fun _ => .bind (fun s _ s' h => ?_) fun _ =>
      .log _
    obtain rfl := modify_ok h
    exact repeats s dataset
  refine .bind (.datasetName _) fun dataset => .bind (.dimensionName _) fun _ =>
    .bind .get fun s => ?_
  dsimp only
  split
  · exact rest dataset
  · exact .bind (own table) fun _ => rest dataset

/-- The tables that only ever describe others have their metrics repeat. -/
theorem Keeps.backfillRelationships : Keeps R (backfillRelationships source) :=
  .bind .get fun _ => .bind (.forIn fun table _ =>
    .bind (.backfillTable source own repeats table) fun _ => .pure _) fun _ => .pure _

end Backfill

end Joins

section Rest

variable [StepFrame R] (source : Source)

theorem Keeps.resolvePerspective (perspective : ∀ p, Admits R (·.addPerspective p))
    (p : Tabular.Perspective) : Keeps R (resolvePerspective source p) :=
  .bind (Light.keeps (.foldlM (fun _ _ _ => .addPerspectiveTable source _ _ _) _)) fun _ =>
    .bind .get fun _ => .bind (.lift _) fun _ => .bind (.uniqueName _) fun _ =>
      .store (perspective _)

theorem Keeps.resolvePerspectives (perspective : ∀ p, Admits R (·.addPerspective p)) :
    Keeps R (resolvePerspectives source) :=
  .bind (.forIn fun p _ => .bind (.resolvePerspective source perspective p) fun _ => .pure _)
    fun _ => .pure _

theorem Keeps.assembleModel (label : String) : Keeps R (assembleModel source label) :=
  .bind (.uniqueName _) fun _ => .bind .get fun _ =>
    .bind (.lift _) fun _ => .bind (.log _) fun _ => .pure _

end Rest

section Classes

variable [JoinFreeFrame R] (source : Source)

omit source in
theorem Keeps.resolveConnection (connection : ∀ c, Admits R (·.addConnection c)) (label : String) :
    Keeps R (resolveConnection label) :=
  .bind (.otherName _ (.of_word (Key.word_connection _))) fun _ =>
    .bind (.modify (fun _ => rfl) (fun _ => rfl) fun _ => rfl) fun _ =>
      .store (connection _)

theorem Keeps.classifyTables : Keeps R (classifyTables source) :=
  .bind (.modify (fun _ => rfl) (fun _ => rfl) fun _ => rfl) fun _ => .log _

theorem Keeps.reclassify : Keeps R (reclassify source) :=
  .bind .get fun _ => .modify (fun _ => rfl) (fun _ => rfl) fun _ => rfl

end Classes

end SemanticLayer.Conversion
