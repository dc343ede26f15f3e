import Mathlib.Data.List.Forall2
import SemanticLayer.Proofs.Conversion.Whole

set_option autoImplicit false

namespace SemanticLayer.Conversion

open Identifier
open Output (withJoin)
open Tabular (Table Column)

variable {source : Source} {s s' : State} {u : Unit}

def ends? (model : Tabular.Model) (r : Tabular.Relationship) : Option JoinEnds :=
  if r.isActive then do
    let fromTable ← model.table? r.fromTable
    let toTable ← model.table? r.toTable
    return ⟨fromTable, ← fromTable.column? r.fromColumn, toTable, ← toTable.column? r.toColumn⟩
  else none

theorem joinEnds_toOption (model : Tabular.Model) (r : Tabular.Relationship) :
    (joinEnds model r).toOption = ends? model r := by
  unfold joinEnds ends?
  cases r.isActive
  · rfl
  cases model.table? r.fromTable with
  | none => rfl
  | some fromTable =>
    cases model.table? r.toTable with
    | none => rfl
    | some toTable =>
      cases first : fromTable.column? r.fromColumn with
      | none => simp [first, Except.toOption]
      | some fromColumn =>
        cases second : toTable.column? r.toColumn <;> simp [first, second, Except.toOption]

theorem joinEnds_of_ends? {model : Tabular.Model} {r : Tabular.Relationship} {ends : JoinEnds}
    (h : ends? model r = some ends) : joinEnds model r = .ok ends := by
  rw [← joinEnds_toOption] at h
  cases made : joinEnds model r with
  | error reason =>
    rw [made] at h
    cases h
  | ok other =>
    rw [made] at h
    exact congrArg Except.ok (Option.some.inj h)

structure EndsOf (model : Tabular.Model) (r : Tabular.Relationship) (ends : JoinEnds) : Prop where
  active : r.isActive = true
  fromTable : model.table? r.fromTable = some ends.fromTable
  fromColumn : ends.fromTable.column? r.fromColumn = some ends.fromColumn
  toTable : model.table? r.toTable = some ends.toTable
  toColumn : ends.toTable.column? r.toColumn = some ends.toColumn

theorem ends?_eq_some {model : Tabular.Model} {r : Tabular.Relationship} {ends : JoinEnds}
    (h : ends? model r = some ends) : EndsOf model r ends := by
  rw [ends?] at h
  split at h
  swap
  · cases h
  rename_i active
  obtain ⟨fromTable, first, h⟩ := Option.bind_eq_some_iff.1 h
  obtain ⟨toTable, second, h⟩ := Option.bind_eq_some_iff.1 h
  obtain ⟨fromColumn, third, h⟩ := Option.bind_eq_some_iff.1 h
  obtain ⟨toColumn, fourth, h⟩ := Option.bind_eq_some_iff.1 h
  cases h
  exact ⟨active, first, third, second, fourth⟩

structure JoinFor (names : Registry) (ends : JoinEnds) (r : Relationship) : Prop where
  dataset : names.lookup (Key.dataset ends.fromTable.name) = some r.source.dataset
  columns : r.source.joinColumns = [ends.fromColumn.name]
  dimension : names.lookup (Key.dimension ends.toTable.name) = some r.target.dimension
  level : names.lookup (Key.level ends.toTable.name ends.toColumn.name) = some r.target.level

theorem JoinFor.mono {names names' : Registry} {ends : JoinEnds} {r : Relationship}
    (h : JoinFor names ends r)
    (lookup : ∀ key name, names.lookup key = some name → names'.lookup key = some name) :
    JoinFor names' ends r :=
  ⟨lookup _ _ h.dataset, h.columns, lookup _ _ h.dimension, lookup _ _ h.level⟩

/-- One new join of the model for each of the direct ends, and one new join in the dimension of a
table for each of the ends that are nested in it. -/
structure Emits (direct : List JoinEnds) (nested : String → List JoinEnds) (s s' : State) :
    Prop where
  names : s.names.Reaches s'.names
  relationships : ∃ new, s'.output.relationships = s.output.relationships ++ new ∧
    List.Forall₂ (JoinFor s'.names) direct new
  dimensions : ∀ d' ∈ s'.output.dimensions, ∃ d ∈ s.output.dimensions, d.label = d'.label ∧
    ∃ new, d'.relationships = d.relationships ++ new ∧
      List.Forall₂ (JoinFor s'.names) (nested d'.label) new

namespace Emits

variable {direct direct' : List JoinEnds} {nested nested' : String → List JoinEnds}

theorem of_onlyNames (h : OnlyNames s s') : Emits [] (fun _ => []) s s' where
  names := h.names
  relationships := ⟨[], by rw [h.output, List.append_nil], .nil⟩
  dimensions d hd := ⟨d, h.output ▸ hd, rfl, [], (List.append_nil _).symm, .nil⟩

theorem append_forall₂ {names names' : Registry} {first second : List JoinEnds}
    {new new' : List Relationship} (reaches : names.Reaches names')
    (h : List.Forall₂ (JoinFor names) first new) (h' : List.Forall₂ (JoinFor names') second new') :
    List.Forall₂ (JoinFor names') (first ++ second) (new ++ new') :=
  List.rel_append (h.imp fun _ _ known => known.mono fun _ _ => reaches.lookup) h'

theorem trans {s₁ : State} (h : Emits direct nested s s₁) (h' : Emits direct' nested' s₁ s') :
    Emits (direct ++ direct') (fun table => nested table ++ nested' table) s s' where
  names := h.names.trans h'.names
  relationships := by
    obtain ⟨new, same, made⟩ := h.relationships
    obtain ⟨new', same', made'⟩ := h'.relationships
    exact ⟨new ++ new', by rw [same', same, List.append_assoc],
      append_forall₂ h'.names made made'⟩
  dimensions d'' hd'' := by
    obtain ⟨d', hd', label', new', same', made'⟩ := h'.dimensions d'' hd''
    obtain ⟨d, hd, label, new, same, made⟩ := h.dimensions d' hd'
    rw [label'] at made
    exact ⟨d, hd, label.trans label', new ++ new', by rw [same', same, List.append_assoc],
      append_forall₂ h'.names made made'⟩

end Emits

theorem Sound.label_iff {t : Table} {d : Dimension} {owner : String} (sound : Sound source s)
    (fresh : s.names.exhausted = []) (apart : source.model.TablesApart)
    (ht : t ∈ source.model.tables) (hd : d ∈ s.output.dimensions)
    (known : s.names.lookup (Key.dimension t.name) = some owner) :
    d.uniqueName = owner ↔ d.label = t.name := by
  obtain ⟨t', made⟩ := sound.dimensions d hd
  constructor
  · intro same
    have key := Registry.key_eq_of_lookup sound.registry fresh made.key known
      (congrArg Text.lower same)
    rw [made.label, apart.eq_of_lower made.mem ht (Key.dimension_inj key)]
  · intro same
    rw [made.label] at same
    exact Option.some.inj ((same ▸ made.key).symm.trans known)

def directEnds (tables : TableLists) (ends : List JoinEnds) : List JoinEnds :=
  ends.filter (·.fromTable.name ∈ tables.fact)

def nestedEnds (tables : TableLists) (ends : List JoinEnds) (table : String) : List JoinEnds :=
  ends.filter fun e => e.fromTable.name ∈ tables.dimension ∧ e.fromTable.name = table

theorem directEnds_append (tables : TableLists) (ends ends' : List JoinEnds) :
    directEnds tables (ends ++ ends') = directEnds tables ends ++ directEnds tables ends' :=
  List.filter_append ends ends'

theorem nestedEnds_append (tables : TableLists) (ends ends' : List JoinEnds) :
    nestedEnds tables (ends ++ ends') =
      fun table => nestedEnds tables ends table ++ nestedEnds tables ends' table :=
  funext fun _ => List.filter_append ends ends'

theorem directEnds_singleton (tables : TableLists) (e : JoinEnds) :
    directEnds tables [e] = if e.fromTable.name ∈ tables.fact then [e] else [] := by
  simp [directEnds, List.filter_cons]

theorem nestedEnds_singleton (tables : TableLists) (e : JoinEnds) :
    nestedEnds tables [e] = if e.fromTable.name ∈ tables.dimension then
      fun table => if e.fromTable.name = table then [e] else [] else fun _ => [] := by
  funext table
  by_cases isDimension : e.fromTable.name ∈ tables.dimension <;>
    simp [nestedEnds, List.filter_cons, isDimension]

section Stored

variable {s₁ : State} {ends : JoinEnds} {join : JoinSource} {target : JoinTarget}
  {key name : String} (made : ∀ name, JoinFor s.names ends ⟨name, join, target⟩)
  (answer : Answered key name s s₁)
include made answer

theorem Emits.addJoin (h : (store (·.addJoin ⟨name, join, target⟩)).run s₁ = .ok (u, s')) :
    Emits [ends] (fun _ => []) s s' := by
  obtain ⟨o, added, rfl⟩ := store_ok h
  obtain ⟨rfl, -⟩ := Output.addJoin_ok added
  refine ⟨answer.names, ⟨[⟨name, join, target⟩], ?_,
    .cons ((made name).mono fun _ _ => answer.names.lookup) .nil⟩,
    fun d hd => ⟨d, answer.output ▸ hd, rfl, [], (List.append_nil _).symm, .nil⟩⟩
  rw [← answer.output]

theorem Emits.addNestedJoin {s₂ : State} {owner : String} (apart : source.model.TablesApart)
    (ht : ends.fromTable ∈ source.model.tables) (sound : Sound source s')
    (fresh : s'.names.exhausted = [])
    (owned : (dimensionName ends.fromTable.name).run s₁ = .ok (owner, s₂))
    (h : (store (·.addNestedJoin owner ⟨name, join, target⟩)).run s₂ = .ok (u, s')) :
    Emits [] (fun table => if ends.fromTable.name = table then [ends] else []) s s' := by
  have asked := dimensionName_answered owned
  have only := answer.toOnlyNames.trans asked.toOnlyNames
  obtain ⟨o, added, rfl⟩ := store_ok h
  obtain ⟨rfl, -⟩ := Output.addNestedJoin_ok added
  refine ⟨only.names, ⟨[], ?_, .nil⟩, fun d' hd' => ?_⟩
  · rw [List.append_nil, ← only.output]
  obtain ⟨d, hd, rfl⟩ := List.mem_map.1 hd'
  obtain ⟨sameName, sameLabel, -⟩ := Output.withJoin_shape owner ⟨name, join, target⟩ d
  -- Dimensions are found by their identifiers, joins are counted by labels: both tell the same.
  have here : d.uniqueName = owner ↔ d.label = ends.fromTable.name := by
    rw [← sameName, ← sameLabel]
    exact sound.label_iff fresh apart ht hd' asked.known
  refine ⟨d, only.output ▸ hd, sameLabel.symm, ?_⟩
  rw [sameLabel]
  by_cases own : d.label = ends.fromTable.name
  · rw [if_pos own.symm, withJoin, if_pos (beq_iff_eq.2 (here.2 own))]
    exact ⟨_, rfl, .cons ((made name).mono fun _ _ => only.names.lookup) .nil⟩
  · rw [if_neg (Ne.symm own), withJoin, if_neg fun same => own (here.1 (eq_of_beq same))]
    exact ⟨[], (List.append_nil _).symm, .nil⟩

end Stored

theorem storeJoin_emits {ends : JoinEnds} {join : JoinSource} {target : JoinTarget}
    (apart : source.model.TablesApart) (ht : ends.fromTable ∈ source.model.tables)
    (sound : Sound source s') (fresh : s'.names.exhausted = [])
    (made : ∀ name, JoinFor s.names ends ⟨name, join, target⟩)
    (h : (storeJoin ends join target).run s = .ok (u, s')) :
    Emits (directEnds s.tables [ends]) (nestedEnds s.tables [ends]) s s' := by
  rw [storeJoin_eq] at h
  obtain ⟨_, _, got, h⟩ := bind_ok h
  obtain ⟨rfl, rfl⟩ := get_ok got
  obtain ⟨_, s₁, direct, nested⟩ := bind_ok h
  have first : Emits (directEnds s.tables [ends]) (fun _ => []) s s₁ := by
    rw [directEnds_singleton]
    unfold directJoin at direct
    split at direct
    · rename_i isFact
      obtain ⟨name, s₂, named, stored⟩ := bind_ok direct
      rw [if_pos (List.contains_iff_mem.1 isFact)]
      exact .addJoin made (uniqueName_answered named fun _ h => nomatch h) stored
    · rename_i other
      obtain ⟨-, rfl⟩ := pure_ok direct
      rw [if_neg fun h => other (List.contains_iff_mem.2 h)]
      exact .of_onlyNames (.refl _)
  have second : Emits [] (nestedEnds s.tables [ends]) s₁ s' := by
    rw [nestedEnds_singleton]
    unfold nestedJoin at nested
    split at nested
    · rename_i isDimension
      obtain ⟨name, s₂, named, nested⟩ := bind_ok nested
      obtain ⟨owner, s₃, owned, stored⟩ := bind_ok nested
      rw [if_pos (List.contains_iff_mem.1 isDimension)]
      exact .addNestedJoin (fun name => (made name).mono fun _ _ => first.names.lookup)
        (uniqueName_answered named fun _ h => nomatch h) apart ht sound fresh owned stored
    · rename_i other
      obtain ⟨-, rfl⟩ := pure_ok nested
      rw [if_neg fun h => other (List.contains_iff_mem.2 h)]
      exact .of_onlyNames (.refl _)
  simpa using first.trans second

structure Ready (s : State) (ends : JoinEnds) : Prop where
  level : s.names.lookup (Key.level ends.toTable.name ends.toColumn.name) ≠ none
  dimension : HasDimension s ends.toTable.name
  dataset : HasDataset s ends.fromTable.name

theorem Ready.mono {ends : JoinEnds} (h : Ready s ends) (grows : Grows s s') : Ready s' ends where
  level := by
    obtain ⟨name, known⟩ := Option.ne_none_iff_exists'.1 h.level
    exact Option.ne_none_iff_exists'.2 ⟨name, grows.names.lookup known⟩
  dimension := h.dimension.mono grows
  dataset := h.dataset.mono grows

theorem Ready.isSome {ends : JoinEnds} {dimension dataset : String} {s₁ : State}
    (h : Ready s ends)
    (describes : Answered (Key.dimension ends.toTable.name) dimension s s₁)
    (place : Answered (Key.dataset ends.fromTable.name) dataset s₁ s') :
    ((s'.output.dimension? dimension).isSome && (s'.output.dataset? dataset).isSome) = true := by
  have only := describes.toOnlyNames.trans place.toOnlyNames
  obtain ⟨d, hd, key⟩ := h.dimension
  obtain ⟨name, key', made⟩ := h.dataset
  obtain ⟨e, he, rfl⟩ := List.mem_map.1 made
  have first : d.uniqueName = dimension :=
    Option.some.inj ((describes.names.lookup key).symm.trans describes.known)
  have second : e.uniqueName = dataset :=
    Option.some.inj ((only.names.lookup key').symm.trans place.known)
  rw [only.output, Bool.and_eq_true]
  exact ⟨List.find?_isSome.2 ⟨d, hd, beq_iff_eq.2 first⟩,
    List.find?_isSome.2 ⟨e, he, beq_iff_eq.2 second⟩⟩

def Reported (s : State) (r : Tabular.Relationship) : Prop :=
  ∃ e ∈ s.diagnostics, e.object = some (relationshipObject r)

theorem resolveRelationship_emits {r : Tabular.Relationship} {ends : JoinEnds}
    (apart : source.model.TablesApart) (found : ends? source.model r = some ends)
    (ready : Ready s ends) (sound : Sound source s') (fresh : s'.names.exhausted = [])
    (h : (resolveRelationship source r).run s = .ok (u, s')) :
    Emits (directEnds s.tables [ends]) (nestedEnds s.tables [ends]) s s' := by
  rw [resolveRelationship, joinEnds_of_ends? found] at h
  obtain ⟨_, _, got, h⟩ := bind_ok h
  obtain ⟨rfl, rfl⟩ := get_ok got
  obtain ⟨level, known⟩ := Option.ne_none_iff_exists'.1 ready.level
  simp only [known] at h
  obtain ⟨dimension, s₁, named, h⟩ := bind_ok h
  obtain ⟨dataset, s₂, placed, h⟩ := bind_ok h
  obtain ⟨_, _, got, h⟩ := bind_ok h
  obtain ⟨rfl, rfl⟩ := get_ok got
  have describes := dimensionName_answered named
  have place := datasetName_answered placed
  have only := describes.toOnlyNames.trans place.toOnlyNames
  rw [if_pos (ready.isSome describes place)] at h
  have all := storeJoin_emits apart (Tabular.Model.mem_of_table? (ends?_eq_some found).fromTable)
    sound fresh (fun name => {
      dataset := place.known
      columns := rfl
      dimension := place.names.lookup describes.known
      level := only.names.lookup known }) h
  rw [only.tables] at all
  simpa using (Emits.of_onlyNames only).trans all

theorem resolveRelationship_reported {r : Tabular.Relationship}
    (missing : ends? source.model r = none)
    (h : (resolveRelationship source r).run s = .ok (u, s')) :
    OnlyNames s s' ∧ Reported s' r := by
  rw [resolveRelationship] at h
  cases ended : joinEnds source.model r with
  | error reason =>
    rw [ended] at h
    refine ⟨(log_onlyNames h).1, ?_⟩
    obtain rfl := log_ok h
    exact ⟨_, List.mem_append_right _ (List.mem_singleton_self _), rfl⟩
  | ok ends =>
    rw [← joinEnds_toOption, ended] at missing
    cases missing

def KeepsMessages (s s' : State) : Prop := s.diagnostics ⊆ s'.diagnostics

instance : Frame KeepsMessages where
  same _ _ _ _ more := more
  trans _ _ _ h h' := List.Subset.trans h h'
  name _ _ := List.Subset.refl _

theorem KeepsMessages.admits (change : Output → Except ConversionError Output) :
    Admits KeepsMessages change :=
  fun _ _ _ => List.Subset.refl _

theorem emits_all (apart : source.model.TablesApart)
    (sound : s.names.exhausted = [] → Sound source s)
    (ready : ∀ r ∈ source.model.relationships, ∀ ends, ends? source.model r = some ends →
      Ready s ends)
    (h : (forIn source.model.relationships PUnit.unit fun r _ => do
      resolveRelationship source r
      return .yield ⟨⟩ : Run PUnit).run s = .ok (u, s')) :
    Moves source .joins s s' ∧
      (s'.names.exhausted = [] →
        Emits (directEnds s.tables (source.model.relationships.filterMap (ends? source.model)))
          (nestedEnds s.tables (source.model.relationships.filterMap (ends? source.model))) s s') ∧
      ∀ r ∈ source.model.relationships, ends? source.model r = none → Reported s' r := by
  refine forIn_steps (P := fun done s' => Moves source .joins s s' ∧
    (s'.names.exhausted = [] → Emits (directEnds s.tables (done.filterMap (ends? source.model)))
      (nestedEnds s.tables (done.filterMap (ends? source.model))) s s') ∧
    ∀ r ∈ done, ends? source.model r = none → Reported s' r)
    ⟨.refl _ _ _, fun _ => .of_onlyNames (.refl s), fun _ hr => nomatch hr⟩
    (fun r hr done s₁ s₂ x turn before => ?_) h
  obtain ⟨_, s₃, resolved, turn⟩ := bind_ok turn
  obtain ⟨rfl, rfl⟩ := pure_ok turn
  obtain ⟨moves, emits, reported⟩ := before
  have step : Moves source .joins s₁ s₃ := resolveRelationship_moves resolved
  refine ⟨rfl, moves.trans step, fun fresh => ?_, fun q hq missing => ?_⟩
  · have first := emits (step.extension.names.exhausted fresh)
    have sound' : Sound source s₃ := (moves.trans step).sound fresh
      (sound ((moves.trans step).extension.names.exhausted fresh))
    rw [List.filterMap_append, directEnds_append, nestedEnds_append]
    cases found : ends? source.model r with
    | none =>
      rw [List.filterMap_cons_none found]
      exact first.trans (.of_onlyNames (resolveRelationship_reported found resolved).1)
    | some ends =>
      have second := resolveRelationship_emits apart found
        ((ready r hr ends found).mono moves.extension.toGrows) sound' fresh resolved
      rw [moves.extension.tables] at second
      rw [List.filterMap_cons_some found]
      exact first.trans second
  · rcases List.mem_append.1 hq with old | new
    · obtain ⟨e, he, names⟩ := reported q old missing
      exact ⟨e, Keeps.resolveRelationship source
        (fun _ => KeepsMessages.admits _) (fun _ _ => KeepsMessages.admits _) r _ _ _ resolved he,
          names⟩
    · rw [List.mem_singleton.1 new] at missing ⊢
      exact (resolveRelationship_reported missing resolved).2

end SemanticLayer.Conversion
