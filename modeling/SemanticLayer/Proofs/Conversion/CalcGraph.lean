import Mathlib.Data.List.Chain
import SemanticLayer.Proofs.Conversion.Frame
import SemanticLayer.Proofs.Conversion.MeasureObjects
import SemanticLayer.Proofs.Conversion.Resolution
import SemanticLayer.Proofs.Elementwise

set_option autoImplicit false

namespace SemanticLayer

open Tabular (Database Table Measure)
open Formula (ofText)
open Identifier

/-- A formula refers to a measure by name. One that is not understood to its end may do so in the
text that is left. -/
def Formula.MayRefer (f : Formula) (name : String) : Prop :=
  f.Understood → .measure name ∈ f.targets

namespace Conversion

/-- A measure refers to another one, both by its formula as it is written and by the normal form of
the formula. -/
def Refers (model : Tabular.Model) (p q : Table × Measure) : Prop :=
  ∀ form ∈ forms p.2, ∃ name, (ofText form).MayRefer name ∧ referencedMeasure? model name = some q

def IsCycle (model : Tabular.Model) : List (Table × Measure) → Prop
  | [] => False
  | first :: others => List.IsChain (Refers model) (first :: (others ++ [first]))

def IsPlaceholder (s : State) (calcs : List MetricCalc) (p : Table × Measure) : Prop :=
  ∃ name, s.names.lookup (Key.measure p.1.name p.2.name) = some name ∧
    placeholderCalc p.2 name ∈ calcs

def measuresOf (model : Tabular.Model) : List (Table × Measure) :=
  model.tables.flatMap fun t => t.measures.map fun m => (t, m)

theorem mem_measuresOf {model : Tabular.Model} {t : Table} {m : Measure} :
    (t, m) ∈ measuresOf model ↔ t ∈ model.tables ∧ m ∈ t.measures := by
  simp [measuresOf]

theorem measureKeys_eq (model : Tabular.Model) :
    measureKeys model = (measuresOf model).map fun p => Key.measure p.1.name p.2.name := by
  simp [measureKeys, measuresOf, List.map_flatMap, Function.comp_def]

theorem eq_of_measureKeys {model : Tabular.Model} (keys : (measureKeys model).Nodup)
    {p q : Table × Measure} (hp : p ∈ measuresOf model) (hq : q ∈ measuresOf model)
    (same : Key.measure p.1.name p.2.name = Key.measure q.1.name q.2.name) : p = q := by
  rw [measureKeys_eq] at keys
  exact List.inj_on_of_nodup_map keys hp hq same

variable {model : Tabular.Model} {p q : Table × Measure}

theorem Refers.mem (h : Refers model p q) : q ∈ measuresOf model := by
  obtain ⟨name, -, found⟩ := h _ List.mem_cons_self
  exact mem_measuresOf.2 (mem_of_referencedMeasure? found)

theorem Refers.not_aggregation (h : Refers model p q) {call : Formula.AggregateCall}
    (single : Formula.singleAggregate p.2.expression.text.toList = some call) : False := by
  obtain ⟨name, refers, -⟩ := h _ (List.mem_cons_of_mem _ List.mem_cons_self)
  obtain ⟨here, shape⟩ := Formula.ofText_of_singleAggregate single
  rw [Text.trimmed, String.toList_ofList, Formula.normalize_trim, shape] at refers
  cases List.mem_singleton.1 (refers rfl)

theorem IsCycle.next {cycle : List (Table × Measure)} (h : IsCycle model cycle) (hp : p ∈ cycle) :
    p ∈ measuresOf model ∧ ∃ q ∈ cycle, Refers model p q := by
  cases cycle with
  | nil => cases hp
  | cons first others =>
    have same (r : Table × Measure) : r ∈ others ++ [first] ↔ r ∈ first :: others :=
      List.perm_append_singleton first others |>.mem_iff
    have pairs := List.isChain_cons_append_singleton_iff_forall₂.1 h
    obtain ⟨r, -, refers⟩ := exists_of_forall₂ pairs.flip p ((same p).2 hp)
    have member : p ∈ measuresOf model := Refers.mem (p := r) refers
    obtain ⟨q, hq, next⟩ := exists_of_forall₂ pairs p hp
    exact ⟨member, q, (same q).1 hq, next⟩

variable {source : Source} {s s' : State} {u : Unit}

/-- Going back along the references of a cycle has to end, and it ends at a placeholder only. -/
theorem Linked.exists_placeholder (linked : Linked source s)
    (keys : (measureKeys source.model).Nodup) {cycle : List (Table × Measure)}
    (h : IsCycle source.model cycle)
    (hp : p ∈ cycle) (resolved : IsResolved p.1 p.2 s) :
    ∃ q ∈ cycle, IsPlaceholder s s.output.metricCalcs q := by
  obtain ⟨name, known⟩ := Option.ne_none_iff_exists'.1 resolved
  obtain ⟨before, after, shape⟩ :=
    List.append_of_mem (List.mem_reverse.2 (mem_of_lookup known))
  clear resolved known
  -- On the number of entries before that of `p`. If the formula of `p` was rendered, the next
  -- measure of the cycle has its entry among these, which cannot go on for ever.
  induction hn : before.length using Nat.strongRecOn generalizing p name before after with
  | ind n ih =>
    obtain ⟨member, q, hq, refers⟩ := h.next hp
    obtain ⟨t, ht, m, hm, key, reason⟩ := linked.order before _ after shape
    obtain rfl : p = (t, m) := eq_of_measureKeys keys member (mem_measuresOf.2 ⟨ht, hm⟩) key
    cases reason with
    | aggregation call single => exact (refers.not_aggregation single).elim
    | placeholder known made => exact ⟨_, hp, name, known, made⟩
    | rendered form listed understood earlier =>
      obtain ⟨written, mayRefer, found⟩ := refers form listed
      obtain ⟨t', m', found', entry⟩ := earlier written (mayRefer understood)
      obtain rfl : q = (t', m') := Option.some.inj (found.symm.trans found')
      obtain ⟨⟨key', name'⟩, he, rfl⟩ := List.mem_map.1 entry
      obtain ⟨first, second, split⟩ := List.append_of_mem he
      have shorter : first.length < n := by
        rw [← hn, split, List.length_append, List.length_cons]
        omega
      exact ih first.length shorter hq name' first _ (by rw [shape, split, List.append_assoc]; rfl)
        rfl

/-- Calculated metrics stay as they are, and neither metrics nor identifiers are lost. -/
structure KeepsCalcs (s s' : State) : Prop where
  names : ∀ key name, s.names.lookup key = some name → s'.names.lookup key = some name
  metricCalcs : s'.output.metricCalcs = s.output.metricCalcs
  metrics : s.output.metrics.map (·.uniqueName) ⊆ s'.output.metrics.map (·.uniqueName)

instance : Frame KeepsCalcs where
  same s s' names output _ := ⟨by rw [names]; exact fun _ _ h => h, by rw [output],
    by rw [output]; exact List.Subset.refl _⟩
  trans _ _ _ h h' := ⟨fun key name known => h'.names key name (h.names key name known),
    h'.metricCalcs.trans h.metricCalcs, List.Subset.trans h.metrics h'.metrics⟩
  name s q := ⟨fun _ _ => Registry.lookup_allocate_of_lookup, rfl, List.Subset.refl _⟩

theorem rest_keepsCalcs (source : Source) (catalog : Catalog) (label : String) :
    Keeps KeepsCalcs (do
      reportUnreferencedHelpers
      reclassify source
      finish source catalog label) := by
  have join (r : Relationship) : Admits KeepsCalcs (·.addJoin r) := fun s o h => by
    obtain ⟨rfl, -⟩ := Output.addJoin_ok h
    exact ⟨fun _ _ h => h, rfl, List.Subset.refl _⟩
  have nested (owner : String) (r : Relationship) : Admits KeepsCalcs (·.addNestedJoin owner r) :=
    fun s o h => by
      obtain ⟨rfl, -⟩ := Output.addNestedJoin_ok h
      exact ⟨fun _ _ h => h, rfl, List.Subset.refl _⟩
  refine .bind Light.reportUnreferencedHelpers.keeps fun _ => .bind (.reclassify source) fun _ =>
    .finish (fun m _ s o h => ?_) (fun p s o h => ?_) (fun s dataset => ?_) join nested
      (fun d plain s o h => ?_) source catalog label
  · obtain ⟨rfl, -⟩ := Output.addMetric_ok h
    refine ⟨fun _ _ h => h, rfl, ?_⟩
    rw [List.map_append]
    exact List.subset_append_left _ _
  · obtain ⟨rfl, -⟩ := Output.addPerspective_ok h
    exact ⟨fun _ _ h => h, rfl, List.Subset.refl _⟩
  · exact ⟨fun _ _ h => h, rfl, by rw [map_repeatMetrics]; exact List.Subset.refl _⟩
  · obtain ⟨rfl, -⟩ := Output.addDimension_ok h plain
    exact ⟨fun _ _ h => h, rfl, List.Subset.refl _⟩

/-- Calculated metrics that are no placeholders refer to metrics and to earlier calculated metrics,
and every cycle of references is broken by a placeholder if one of its measures is in a table that
is not skipped. -/
theorem convertWith_references [Sql.Parser] {settings : Settings} {database : Database}
    {connection : String} {c : Conversion} (h : convertWith settings database connection = .ok c) :
    ∃ s, EndsIn settings database connection c s ∧
      Layered (CalcOf ⟨database.model, settings⟩ c.metrics) c.metricCalcs ∧
      ((measureKeys database.model).Nodup → ∀ cycle, IsCycle database.model cycle →
        (∃ p ∈ cycle, p.1.name ∉ (classify database.model []).unused) →
          ∃ p ∈ cycle, IsPlaceholder s c.metricCalcs p) := by
  obtain ⟨catalog, m, s, ran, rfl⟩ := convertWith_ok h
  refine ⟨s, ⟨catalog, m, ran, rfl⟩, ?_⟩
  let source : Source := ⟨database.model, settings⟩
  rw [run_eq] at ran
  obtain ⟨made, s₀, prepared, ran⟩ := bind_ok ran
  have kept := rest_keepsCalcs source _ _ s₀ _ s ran
  have before : Prepared source settings database made s₀ := prepare_ok prepared
  have linked := before.linked
  refine ⟨?_, fun keys cycle isCycle ⟨p, hp, used⟩ => ?_⟩
  · change Layered (CalcOf source s.output.metrics) s.output.metricCalcs
    rw [kept.metricCalcs]
    exact linked.calcs.mono fun before e made => made.mono kept.metrics
  · obtain ⟨ht, hm⟩ := mem_measuresOf.1 (isCycle.next hp).1
    obtain ⟨q, hq, name, known, made⟩ := linked.exists_placeholder keys isCycle hp
      ((before.placed p.1 ht).measures used p.2 hm)
    refine ⟨q, hq, name, kept.names _ _ known, ?_⟩
    change _ ∈ s.output.metricCalcs
    rwa [kept.metricCalcs]

theorem exists_isCycle (model : Tabular.Model) (name : String) (ok : Table × Measure → Bool)
    (h : (referencedMeasure? model name).any fun p =>
      ok p && (forms p.2).all fun form => .measure name ∈ (ofText form).targets) :
    ∃ p, IsCycle model [p] ∧ ok p = true := by
  obtain ⟨p, found, both⟩ := (Option.any_eq_true _ _).1 h
  obtain ⟨good, mentions⟩ := (Bool.and_eq_true _ _).mp both
  have refers : Refers model p p := fun form listed =>
    ⟨name, fun _ => of_decide_eq_true (List.all_eq_true.1 mentions form listed), found⟩
  exact ⟨p, List.isChain_cons_cons.2 ⟨refers, .singleton p⟩, good⟩

attribute [local instance] Sql.Parser.lenient

/-- A measure of the shop refers to itself and becomes a placeholder. -/
theorem convertWith_references_shop : ∃ c s, convertWith {} shop "warehouse" = .ok c ∧
    EndsIn {} shop "warehouse" c s ∧ Layered (CalcOf ⟨shop.model, {}⟩ c.metrics) c.metricCalcs ∧
    ∃ p, p.2.name = "Loop" ∧ IsPlaceholder s c.metricCalcs p := by
  obtain ⟨c, h⟩ := exists_convertWith_shop
  obtain ⟨s, ends, layered, broken⟩ := convertWith_references h
  obtain ⟨p, isCycle, good⟩ := exists_isCycle shop.model "Loop"
    (fun p => p.2.name = "Loop" ∧ p.1.name ∉ (classify shop.model []).unused) (by decide +kernel)
  obtain ⟨name, used⟩ := of_decide_eq_true good
  obtain ⟨q, hq, placeholder⟩ := broken (by decide +kernel) [p] isCycle
    ⟨p, List.mem_singleton_self p, used⟩
  exact ⟨c, s, h, ends, layered, q, by rw [List.mem_singleton.1 hq, name], placeholder⟩

/-- Two tables of one name. The first one has no measures, so the name is that of an unused
table. -/
def twins : Database where
  name := "Twins"
  model := {
    tables := [
      { name := "A" },
      { name := "A", measures := [{ name := "M", expression := ⟨"[M]"⟩ }] }] }

/-- Two measures whose names differ in a blank, which the normal form of a formula leaves out. -/
def blanks : Database where
  name := "Blanks"
  model := {
    tables := [{
      name := "Sales"
      columns := [.data "Amount" "double"]
      measures := [
        { name := "Net  Sales", expression := ⟨"[Net  Sales]"⟩ },
        { name := "Net Sales", expression := ⟨"SUM(Sales[Amount])"⟩ }] }] }

/-- A measure that refers to itself by its formula as it is written, and yet is not given up. -/
def Unbroken (database : Database) : Prop :=
  (measureKeys database.model).Nodup ∧ ∃ name p,
    .measure name ∈ (ofText p.2.expression.text).targets ∧
      referencedMeasure? database.model name = some p ∧
        ∃ c, convertWith {} database "warehouse" = .ok c ∧ ∀ s, ¬IsPlaceholder s c.metricCalcs p

theorem Unbroken.of_visible {database : Database} (name : String)
    (keys : (measureKeys database.model).Nodup)
    (refers : (referencedMeasure? database.model name).any fun p =>
      .measure name ∈ (ofText p.2.expression.text).targets)
    (visible : (convertWith {} database "warehouse").toOption.any fun c =>
      ∀ e ∈ c.metricCalcs, e.isHidden = false) : Unbroken database := by
  obtain ⟨p, found, mentions⟩ := (Option.any_eq_true _ _).1 refers
  obtain ⟨c, h, shown⟩ := exists_convertWith visible
  refine ⟨keys, name, p, of_decide_eq_true mentions, found, c, h, fun s ⟨name, _, made⟩ => ?_⟩
  cases shown _ made

theorem unbroken_cycles : Unbroken twins ∧ Unbroken blanks :=
  ⟨.of_visible "M" (by decide +kernel) (by decide +kernel) (by decide +kernel),
    .of_visible "Net  Sales" (by decide +kernel) (by decide +kernel) (by decide +kernel)⟩

end Conversion

end SemanticLayer
