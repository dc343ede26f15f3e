import SemanticLayer.Conversion.Basic
import SemanticLayer.Proofs.Conversion.Notes
import SemanticLayer.Proofs.Tabular.Respelling

set_option autoImplicit false

/-!
Two runs side by side. Their sources differ in how references are spelled, or in tables that the
second one has besides and that nothing refers to. The states differ in their logs and in which
tables are known to be unused; all else stays equal, and so do the values that the steps answer.

Formulas are the one place where a name can come up that no list of names gives away. A formula of
the first source that asks for a table which is there in the second one only leaves a message, and
with it the two runs part.
-/
namespace SemanticLayer

open Tabular (Table)
open Text (equalFold)

/-- How two sources may differ, and which messages count as the same. -/
structure Variation where
  /-- Spellings of one name. -/
  Spelled : String → String → Prop
  /-- Messages that say the same. -/
  Alike : Diagnostic → Diagnostic → Prop
  /-- The tables that only the second source has. -/
  strangers : List Table
  folds : ∀ a b, Spelled a b → equalFold a b = true
  /-- Messages of one severity say the same if they differ through spellings only. -/
  alike : ∀ d d', d.severity = d'.severity → ((∀ a b, Spelled a b → a = b) → d = d') → Alike d d'
  measureless : ∀ t ∈ strangers, t.measures = []
  distinct : (strangers.map (·.name)).Nodup

namespace Variation

variable (v : Variation)

def Plain (name : String) : Prop := ∀ t ∈ v.strangers, equalFold t.name name = false

/-- No formula has asked for a stranger. -/
def Unsought (log : List Diagnostic) : Prop :=
  ∀ d ∈ log, ∀ name, d.message = unknownTableMessage name → v.Plain name

structure Tables (t t' : Table) : Prop where
  plain : v.Plain t.name
  respelled : t.Respelled v.Spelled t'

structure Relationships (r r' : Tabular.Relationship) : Prop where
  plain : v.Plain r.fromTable ∧ v.Plain r.toTable
  respelled : r.Respelled v.Spelled r'

structure Entries (e e' : Tabular.PerspectiveTable) : Prop where
  plain : v.Plain e.name
  respelled : e.Respelled v.Spelled e'

/-- Lists of tables, the second of which has the strangers somewhere. -/
def TableLists (ts ts' : List Table) : Prop :=
  ∃ before after before' after', ts = before ++ after ∧
    ts' = before' ++ v.strangers ++ after' ∧ List.Forall₂ v.Tables before before' ∧
      List.Forall₂ v.Tables after after'

structure Sources (source source' : Conversion.Source) : Prop where
  settings : source'.settings = source.settings
  parser : source'.parser = source.parser
  tables : v.TableLists source.model.tables source'.model.tables
  relationships :
    List.Forall₂ v.Relationships source.model.relationships source'.model.relationships
  perspectives : List.Forall₂ (fun p p' => p'.name = p.name ∧ List.Forall₂ v.Entries p.tables
    p'.tables) source.model.perspectives source'.model.perspectives

/-- Classes of tables. The strangers are unused. -/
structure Classes (lists lists' : SemanticLayer.TableLists) : Prop where
  same : lists' = { lists with unused := lists'.unused }
  unused : ∃ before after, lists.unused = before ++ after ∧
    lists'.unused = before ++ v.strangers.map (·.name) ++ after
  fact : ∀ name ∈ lists.fact, v.Plain name
  dimension : ∀ name ∈ lists.dimension, v.Plain name

/-- Logs that say the same, but for one note of each stranger. -/
def Logs (log log' : List Diagnostic) : Prop :=
  ∃ before after before' after', log = before ++ after ∧
    log' = before' ++ v.strangers.map (unusedNotice ·.name) ++ after' ∧
      List.Forall₂ v.Alike before before' ∧ List.Forall₂ v.Alike after after'

structure States (s s' : Conversion.State) : Prop where
  names : s'.names = s.names
  output : s'.output = s.output
  measures : s'.measures = s.measures
  connectionId : s'.connectionId = s.connectionId
  classes : v.Classes s.tables s'.tables
  backing : ∀ e ∈ s.measures.metricTables, v.Plain e.2
  logs : v.Logs s.diagnostics s'.diagnostics

variable {v}

theorem Plain.congr {a b : String} (h : v.Plain a) (same : equalFold a b = true) : v.Plain b :=
  fun t ht => (Text.equalFold_congr same t.name).symm.trans (h t ht)

theorem not_plain {t : Table} (h : t ∈ v.strangers) : ¬ v.Plain t.name := fun plain => by
  have apart := plain t h
  rw [Text.equalFold_refl] at apart
  cases apart

theorem Unsought.mono {log log' : List Diagnostic} (h : v.Unsought log') (grown : log ⊆ log') :
    v.Unsought log :=
  fun d hd => h d (grown hd)

theorem Logs.append {log log' entries entries' : List Diagnostic} (h : v.Logs log log')
    (same : List.Forall₂ v.Alike entries entries') :
    v.Logs (log ++ entries) (log' ++ entries') := by
  obtain ⟨before, after, before', after', rfl, rfl, first, second⟩ := h
  refine ⟨before, after ++ entries, before', after' ++ entries', List.append_assoc _ _ _,
    List.append_assoc _ _ _, first, List.rel_append second same⟩

theorem alike_refl (d : Diagnostic) : v.Alike d d := v.alike d d rfl fun _ => rfl

theorem forall₂_alike_refl (log : List Diagnostic) : List.Forall₂ v.Alike log log :=
  List.forall₂_same.2 fun d _ => v.alike_refl d

section Classes

variable {lists lists' : SemanticLayer.TableLists} (h : v.Classes lists lists')
include h

theorem Classes.fact_eq : lists'.fact = lists.fact := by rw [h.same]

theorem Classes.dimension_eq : lists'.dimension = lists.dimension := by rw [h.same]

theorem Classes.measureOnly_eq : lists'.measureOnly = lists.measureOnly := by rw [h.same]

theorem Classes.unused_contains {name : String} (plain : v.Plain name) :
    lists'.unused.contains name = lists.unused.contains name := by
  have strange : name ∉ v.strangers.map (·.name) := fun found => by
    obtain ⟨t, ht, rfl⟩ := List.mem_map.1 found
    exact not_plain ht plain
  obtain ⟨before, after, unused, unused'⟩ := h.unused
  rw [unused, unused']
  simp [strange]

theorem Classes.contains_stranger {t : Table} (ht : t ∈ v.strangers) :
    lists'.unused.contains t.name = true ∧ lists'.fact.contains t.name = false ∧
      lists'.dimension.contains t.name = false := by
  obtain ⟨before, after, -, unused'⟩ := h.unused
  rw [unused', h.fact_eq, h.dimension_eq]
  refine ⟨?_, ?_, ?_⟩
  · exact List.contains_iff_mem.2 (List.mem_append_left _ (List.mem_append_right _
      (List.mem_map_of_mem ht)))
  · exact Bool.eq_false_iff.2 fun found =>
      not_plain ht (h.fact _ (List.contains_iff_mem.1 found))
  · exact Bool.eq_false_iff.2 fun found =>
      not_plain ht (h.dimension _ (List.contains_iff_mem.1 found))

end Classes

theorem Sources.plain {source source' : Conversion.Source} (h : v.Sources source source') :
    ∀ t ∈ source.model.tables, v.Plain t.name := by
  obtain ⟨before, after, before', after', split, -, first, second⟩ := h.tables
  rw [split]
  exact List.forall_mem_append.2 ⟨forall_of_forall₂ first fun _ _ twin => twin.plain,
    forall_of_forall₂ second fun _ _ twin => twin.plain⟩

end Variation

namespace Conversion

variable {v : Variation} {A A' B B' : Type}

/-- Ends of two runs that agree: related values in related states, or one error. -/
inductive Meets (v : Variation) (V : A → A' → Prop) :
    Except Halt (A × State) → Except Halt (A' × State) → Prop where
  | ok {a : A} {a' : A'} {s s' : State} (value : V a a') (states : v.States s s') :
    Meets v V (.ok (a, s)) (.ok (a', s'))
  | error {error : ConversionError} {s s' : State} :
    Meets v V (.error ⟨error, s⟩) (.error ⟨error, s'⟩)

/-- Steps that agree from related states on, as long as no formula asks for a stranger. When one
does, the first step still ends as if it had a partner. -/
def Agree (v : Variation) (V : A → A' → Prop) (x : Run A) (x' : Run A') : Prop :=
  ∀ s s', v.States s s' → s.diagnostics ⊆ (lastState (x.run s)).diagnostics ∧
    ∃ r, Meets v V (x.run s) r ∧
      (v.Unsought (lastState (x.run s)).diagnostics → x'.run s' = r)

namespace Agree

variable {V : A → A' → Prop} {W : B → B' → Prop} {x : Run A} {x' : Run A'}

theorem of_ok {a : State → A} {a' : State → A'} (f f' : State → State)
    (run : ∀ s, x.run s = .ok (a s, f s)) (run' : ∀ s, x'.run s = .ok (a' s, f' s))
    (grown : ∀ s, s.diagnostics ⊆ (f s).diagnostics)
    (same : ∀ s s', v.States s s' → V (a s) (a' s') ∧ v.States (f s) (f' s')) :
    Agree v V x x' := fun s s' h => by
  obtain ⟨value, related⟩ := same s s' h
  rw [run, run']
  exact ⟨grown s, _, .ok value related, fun _ => rfl⟩

protected theorem pure {a : A} {a' : A'} (h : V a a') : Agree v V (pure a) (pure a') :=
  of_ok id id (fun _ => rfl) (fun _ => rfl) (fun _ => List.Subset.refl _)
    fun _ _ related => ⟨h, related⟩

protected theorem get : Agree v v.States get get :=
  of_ok id id (fun _ => rfl) (fun _ => rfl) (fun _ => List.Subset.refl _)
    fun _ _ related => ⟨related, related⟩

theorem get_right {f' : State → Run A'} (h : ∀ s s', v.States s s' → Agree v V x (f' s')) :
    Agree v V x (get >>= f') :=
  fun s s' related => h s s' related s s' related

protected theorem bind {f : A → Run B} {f' : A' → Run B'} (hx : Agree v V x x')
    (hf : ∀ a a', V a a' → Agree v W (f a) (f' a')) : Agree v W (x >>= f) (x' >>= f') := by
  intro s s' h
  obtain ⟨grown, r, meets, same⟩ := hx s s' h
  rw [StateT.run_bind, StateT.run_bind]
  generalize x.run s = first at grown meets same
  cases meets with
  | ok value related =>
    obtain ⟨grown', r', meets', same'⟩ := hf _ _ value _ _ related
    refine ⟨List.Subset.trans grown grown', r', meets', fun quiet => ?_⟩
    rw [same (quiet.mono grown')]
    exact same' quiet
  | error => exact ⟨grown, _, .error, fun quiet => by rw [same quiet]; rfl⟩

theorem bind_eq {x x' : Run A} {f : A → Run B} {f' : A → Run B'} (hx : Agree v Eq x x')
    (hf : ∀ a, Agree v W (f a) (f' a)) : Agree v W (x >>= f) (x' >>= f') :=
  hx.bind fun a _ same => same ▸ hf a

protected theorem modify {f f' : State → State} (log : ∀ s, s.diagnostics ⊆ (f s).diagnostics)
    (same : ∀ s s', v.States s s' → v.States (f s) (f' s')) :
    Agree v Eq (modify f : Run Unit) (modify f') :=
  of_ok f f' (fun _ => rfl) (fun _ => rfl) log fun s s' h => ⟨rfl, same s s' h⟩

protected theorem log {entries entries' : List Diagnostic}
    (h : List.Forall₂ v.Alike entries entries') :
    Agree v Eq (log entries) (log entries') :=
  .modify (fun _ => List.subset_append_left _ _) fun _ _ related =>
    { related with logs := related.logs.append h }

theorem log_refl (entries : List Diagnostic) :
    Agree v Eq (log entries) (log entries) :=
  .log (v.forall₂_alike_refl entries)

theorem log_one {d d' : Diagnostic} (severity : d.severity = d'.severity)
    (same : (∀ a b, v.Spelled a b → a = b) → d = d') :
    Agree v Eq (log [d]) (log [d']) :=
  .log (.cons (v.alike d d' severity same) .nil)

protected theorem uniqueName (q : Identifier.Request) : Agree v Eq (uniqueName q) (uniqueName q) :=
  of_ok _ _ (run_uniqueName q) (run_uniqueName q) (fun _ => List.subset_append_left _ _)
    fun s s' related => by
      rw [related.names]
      exact ⟨rfl, { related with
        names := rfl
        logs := related.logs.append (v.forall₂_alike_refl _) }⟩

protected theorem datasetName (table : String) :
    Agree v Eq (datasetName table) (datasetName table) :=
  .uniqueName _

protected theorem dimensionName (table : String) :
    Agree v Eq (dimensionName table) (dimensionName table) :=
  .uniqueName _

theorem lift (x : Except ConversionError A) : Agree v Eq (liftM x : Run A) (liftM x) := by
  intro s s' related
  cases x with
  | ok a => exact ⟨List.Subset.refl _, _, .ok rfl related, fun _ => rfl⟩
  | error e => exact ⟨List.Subset.refl _, _, .error, fun _ => rfl⟩

protected theorem store (change : Output → Except ConversionError Output) :
    Agree v Eq (store change) (store change) := by
  intro s s' related
  rw [run_store, run_store, related.output]
  cases change s.output with
  | ok output =>
    have next : v.States { s with output } { s' with output } := { related with output := rfl }
    exact ⟨List.Subset.refl _, _, .ok rfl next, fun _ => rfl⟩
  | error e => exact ⟨List.Subset.refl _, _, .error, fun _ => rfl⟩

section Loops

variable {P : A → A' → Prop} {xs ys : List A} {xs' ys' : List A'}

theorem forIn_append {f : A → PUnit → Run (ForInStep PUnit)}
    {f' : A' → PUnit → Run (ForInStep PUnit)} (h : List.Forall₂ P xs xs')
    (body : ∀ a a', P a a' → Agree v Eq (f a ⟨⟩) (f' a' ⟨⟩))
    (rest : Agree v Eq (forIn ys PUnit.unit f) (forIn ys' PUnit.unit f')) :
    Agree v Eq (forIn (xs ++ ys) PUnit.unit f) (forIn (xs' ++ ys') PUnit.unit f') := by
  induction h with
  | nil => exact rest
  | cons first _ ih =>
    rw [List.cons_append, List.cons_append, List.forIn_cons, List.forIn_cons]
    refine (body _ _ first).bind fun r r' same => ?_
    subst same
    cases r with
    | done _ => exact .pure rfl
    | yield _ => exact ih

protected theorem forIn {f : A → PUnit → Run (ForInStep PUnit)}
    {f' : A' → PUnit → Run (ForInStep PUnit)}
    (h : List.Forall₂ P xs xs') (body : ∀ a a', P a a' → Agree v Eq (f a ⟨⟩) (f' a' ⟨⟩)) :
    Agree v Eq (forIn xs PUnit.unit f) (forIn xs' PUnit.unit f') := by
  have nothing : Agree v Eq (forIn [] PUnit.unit f) (forIn [] PUnit.unit f') := .pure rfl
  have whole := forIn_append h body nothing
  rwa [List.append_nil, List.append_nil] at whole

theorem forIn_same {f f' : A → PUnit → Run (ForInStep PUnit)}
    (body : ∀ a ∈ xs, Agree v Eq (f a ⟨⟩) (f' a ⟨⟩)) :
    Agree v Eq (forIn xs PUnit.unit f) (forIn xs PUnit.unit f') := by
  have same : List.Forall₂ (fun a a' => a ∈ xs ∧ a = a') xs xs :=
    List.forall₂_same.2 fun a ha => ⟨ha, rfl⟩
  exact .forIn same fun a _ pair => pair.2 ▸ body a pair.1

theorem forIn_idle {f : A → PUnit → Run (ForInStep PUnit)}
    {f' : A' → PUnit → Run (ForInStep PUnit)}
    (idle : ∀ a' ∈ xs', Agree v (fun _ r => r = .yield ⟨⟩) (pure PUnit.unit) (f' a' ⟨⟩))
    (rest : Agree v Eq (forIn ys PUnit.unit f) (forIn ys' PUnit.unit f')) :
    Agree v Eq (forIn ys PUnit.unit f) (forIn (xs' ++ ys') PUnit.unit f') := by
  induction xs' with
  | nil => exact rest
  | cons a' xs' ih =>
    rw [List.cons_append, List.forIn_cons, ← pure_bind PUnit.unit fun _ => forIn ys PUnit.unit f]
    refine (idle a' List.mem_cons_self).bind fun _ r yielded => ?_
    rw [yielded]
    exact ih fun a ha => idle a (List.mem_cons_of_mem a' ha)

protected theorem foldlM {Q : B → B' → Prop} {f : B → A → Run B} {f' : B' → A' → Run B'}
    (h : List.Forall₂ P xs xs')
    (body : ∀ b b' a a', Q b b' → P a a' → Agree v Q (f b a) (f' b' a')) {b : B} {b' : B'}
    (start : Q b b') : Agree v Q (xs.foldlM f b) (xs'.foldlM f' b') := by
  induction h generalizing b b' with
  | nil => exact .pure start
  | cons first _ ih =>
    rw [List.foldlM_cons, List.foldlM_cons]
    exact (body _ _ _ _ start first).bind fun _ _ next => ih next

protected theorem mapM {f : A → Run B} {f' : A' → Run B} (h : List.Forall₂ P xs xs')
    (body : ∀ a a', P a a' → Agree v Eq (f a) (f' a')) :
    Agree v Eq (xs.mapM f) (xs'.mapM f') := by
  induction h with
  | nil => exact .pure rfl
  | cons first _ ih =>
    rw [List.mapM_cons, List.mapM_cons]
    exact (body _ _ first).bind_eq fun _ => ih.bind_eq fun _ => .pure rfl

end Loops

end Agree

end Conversion

end SemanticLayer
