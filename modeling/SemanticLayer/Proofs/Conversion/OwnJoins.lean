import SemanticLayer.Proofs.Conversion.Levels
import SemanticLayer.Proofs.Identifier.Builder

set_option autoImplicit false

/-!
The joins of tables to their own dimensions. A table that is a fact and a dimension is joined to
itself once, besides the joins of the relationships that lead from it to itself. Nothing is answered
for the key of such a join before it is made.
-/
namespace SemanticLayer.Conversion

open Identifier
open Tabular (Database Table Column)
open Text (lower)

variable {source : Source} {s s' : State} {u : Unit} {t : Table} {d : Dimension}

/-- Nothing is answered for joins of tables to themselves. -/
def KeepsOwnKeys (s s' : State) : Prop := ∀ table,
  s'.names.lookup (Key.selfRelationship table) = s.names.lookup (Key.selfRelationship table)

theorem lookup_allocate_own {names : Registry} {q : Request} {table : String}
    (differ : Key.selfRelationship table ≠ q.key) :
    (names.allocate q).2.lookup (Key.selfRelationship table) =
      names.lookup (Key.selfRelationship table) := by
  rw [Registry.lookup_allocate, if_neg differ]

instance : JoinFreeFrame KeepsOwnKeys where
  trans _ _ _ h h' table := (h' table).trans (h table)
  same _ _ names _ _ _ := by rw [names]
  other _ q free table :=
    lookup_allocate_own fun same => free (same ▸ Key.word_selfRelationship table)

namespace KeepsOwnKeys

theorem of_output (output : Output) : KeepsOwnKeys s { s with output } := fun _ => rfl

theorem prepare (source : Source) (database : Database) (label : String) :
    Keeps KeepsOwnKeys (Conversion.prepare source database label) :=
  .prepare (fun _ _ _ _ => .of_output _) (fun _ _ _ _ _ => .of_output _)
    (fun _ _ _ _ => .of_output _) source (fun _ _ _ _ _ _ _ => .of_output _) database label

theorem resolveDimensions (source : Source) :
    Keeps KeepsOwnKeys (Conversion.resolveDimensions source) :=
  .resolveDimensions source fun _ _ _ _ _ => .of_output _

/-- A join that is asked for under the key of a table's own join would start at a table with a
colon in its name. -/
theorem key_ne_of_asks {ends : JoinEnds} (plain : Key.Plain ends.fromTable.name) {q : Request}
    (asks : ends.Asks q) (table : String) : Key.selfRelationship table ≠ q.key := fun same => by
  have start : "self:".toList <+: (lower ends.fromTable.name).toList := by
    rcases asks with key | key
    · exact Builder.starts_self ((String.append_empty ..).trans (key.symm.trans same.symm))
    · exact Builder.starts_self (key.symm.trans same.symm)
  exact plain (start.subset (by decide))

theorem resolveRelationship (apart : source.model.TablesApart) (r : Tabular.Relationship) :
    Keeps KeepsOwnKeys (Conversion.resolveRelationship source r) :=
  .relationship source (fun _ _ _ _ => .of_output _) (fun _ _ _ _ _ => .of_output _) r
    fun _ made _ asks => .answer fun _ table =>
      lookup_allocate_own (key_ne_of_asks (apart.plain _ (joinEnds_ok made).1) asks table)

end KeepsOwnKeys

def ownLevel? (t : Table) (d : Dimension) : Option String :=
  (keyLevel? t d.levelAttributes).or do return (← (← d.hierarchies.head?).leaf?).uniqueName

structure JoinsOwn (names : Registry) (t : Table) (d : Dimension) (r : Relationship) : Prop where
  key : names.lookup (Key.selfRelationship t.name) = some r.uniqueName
  dataset : names.lookup (Key.dataset t.name) = some r.source.dataset
  dimension : r.target.dimension = d.uniqueName
  level : ownLevel? t d = some r.target.level

theorem Sound.dimensionFor (sound : Sound source s) (apart : source.model.TablesApart)
    (ht : t ∈ source.model.tables) (hd : d ∈ s.output.dimensions) (label : d.label = t.name) :
    DimensionFor source s t d := by
  obtain ⟨t', made⟩ := sound.dimensions d hd
  obtain rfl := apart.eq_of_lower made.mem ht (congrArg lower (made.label.symm.trans label))
  exact made

section Sound

variable (sound : Sound source s) (fresh : s.names.exhausted = [])
  (apart : source.model.TablesApart)
include sound fresh apart

theorem Sound.lookup_level (hd : d ∈ s.output.dimensions) (made : DimensionFor source s t d)
    (c : Column) : s.names.lookup (Key.level t.name c.name) =
      (attributeOver? d.levelAttributes c).map (·.uniqueName) := by
  cases held : attributeOver? d.levelAttributes c with
  | some a =>
    obtain ⟨ha, folded⟩ := (find?_eq_some_iff_of_nodup made.levelsApart).1 held
    have same : Key.level t.name c.name = Key.level t.name a.nameColumn :=
      Key.located_congr "level" (congrArg (fun key => [lower t.name, key]) folded.symm)
    rw [same]
    exact (made.levels a ha).key
  | none =>
    refine Option.eq_none_iff_forall_ne_some.2 fun level known => ?_
    obtain ⟨d', hd', key, inside⟩ := sound.indexed.levels t made.mem c.name level known
    have name : d'.uniqueName = d.uniqueName := Option.some.inj (key.symm.trans made.key)
    obtain rfl := List.inj_on_of_nodup_map sound.distinct.dimensions hd' hd name
    obtain ⟨a, ha, rfl⟩ := List.mem_map.1 inside
    have twin := Registry.key_eq_of_lookup sound.registry fresh (made.levels a ha).key known rfl
    have folded := (Key.level_inj (apart.plain t made.mem) (apart.plain t made.mem) twin).2
    exact List.find?_eq_none.1 held a ha (beq_iff_eq.2 folded)

theorem Sound.selfJoinTarget_level (hd : d ∈ s.output.dimensions)
    (made : DimensionFor source s t d) :
    (selfJoinTarget s.names t d).map Prod.snd = ownLevel? t d := by
  have onKey : (t.keyColumn?.bind fun c =>
      (s.names.lookup (Key.level t.name c.name)).map fun level => (c.name, level)).map Prod.snd =
        keyLevel? t d.levelAttributes := by
    cases keyed : t.keyColumn? with
    | none => rw [keyLevel?, keyed]; rfl
    | some c =>
      rw [keyLevel?, keyed, Option.bind_some, Option.bind_some, Option.map_map,
        sound.lookup_level fresh apart hd made c, Option.map_map]
      rfl
  rw [selfJoinTarget, Option.map_or, onKey, ownLevel?]
  cases listed : d.hierarchies.head? with
  | none => rfl
  | some k =>
    cases last : k.leaf? with
    | none => simp [last]
    | some leaf =>
      have hk : k ∈ d.hierarchies := List.mem_of_head? listed
      have inside := (made.hierarchies k hk).levels leaf (List.mem_of_getLast? last)
      obtain ⟨a, ha, name⟩ := List.mem_map.1 inside
      obtain ⟨b, found⟩ : ∃ b, d.levelAttribute? leaf.uniqueName = some b :=
        Option.isSome_iff_exists.1 (List.find?_isSome.2 ⟨a, ha, beq_iff_eq.2 name⟩)
      have keyed := (made.levels b (List.mem_of_find?_eq_some found)).keyColumns
      simp [last, found, keyed]

end Sound

theorem ownLevel?_ne_none (filled : ∀ k ∈ d.hierarchies, k.levels ≠ [])
    (some : d.hierarchies ≠ []) : ownLevel? t d ≠ none := by
  obtain ⟨first, others, listed⟩ := List.exists_cons_of_ne_nil some
  have inside := filled first (listed ▸ List.mem_cons_self)
  intro none
  have leafless := (Option.or_eq_none_iff.1 none).2
  simp [listed, Hierarchy.leaf?, List.getLast?_eq_getLast_of_ne_nil inside] at leafless

def HasOwnJoin (s : State) (t : Table) : Prop :=
  ∃ r ∈ s.output.relationships, ∃ d ∈ s.output.dimensions, d.label = t.name ∧
    JoinsOwn s.names t d r

theorem HasOwnJoin.mono (h : HasOwnJoin s t) (only : OnlyOwnJoins source s s') :
    HasOwnJoin s' t := by
  obtain ⟨r, hr, d, hd, label, made⟩ := h
  obtain ⟨own, same, -⟩ := only.relationships
  exact ⟨r, same ▸ List.mem_append_left own hr, d, only.dimensions ▸ hd, label,
    { made with
      key := only.lookup _ _ made.key
      dataset := only.lookup _ _ made.dataset }⟩

/-- The join of a table to its own dimension is made when its key is new and the dimension has a
level for it. Nothing else is answered for such joins. -/
theorem addSelfJoin_new (apart : source.model.TablesApart) (sound : Sound source s)
    (fresh : s'.names.exhausted = []) (hd : d ∈ s.output.dimensions)
    (made : DimensionFor source s t d)
    (absent : s.names.lookup (Key.selfRelationship t.name) = none)
    (h : (addSelfJoin source t.name).run s = .ok (u, s')) :
    (ownLevel? t d = none ∧ KeepsOwnKeys s s') ∨
      HasOwnJoin s' t ∧ ∀ table, s'.names.lookup (Key.selfRelationship table) ≠ none →
        Key.selfRelationship table = Key.selfRelationship t.name ∨
          s.names.lookup (Key.selfRelationship table) ≠ none := by
  have found : source.model.table? t.name = some t :=
    Tabular.Model.TablesDistinct.table?_eq apart.distinct made.mem (Text.equalFold_refl _)
  obtain ⟨_, _, got, h⟩ := bind_ok h
  obtain ⟨rfl, rfl⟩ := get_ok got
  rw [absent, found] at h
  obtain ⟨dimension, s₁, named, h⟩ := bind_ok h
  obtain ⟨_, _, got, h⟩ := bind_ok h
  obtain ⟨rfl, rfl⟩ := get_ok got
  have answer := dimensionName_answered named
  have same : d.uniqueName = dimension :=
    Option.some.inj ((answer.names.lookup made.key).symm.trans answer.known)
  have known : s₁.output.dimension? dimension = some d :=
    (find?_eq_some_iff_of_nodup (answer.output ▸ sound.distinct.dimensions)).2
      ⟨answer.output ▸ hd, same⟩
  have moved : Moves source .joins s s₁ := dimensionName_moves named
  have asked : KeepsOwnKeys s s₁ := Keeps.dimensionName _ _ _ _ named
  rw [known] at h
  have target (fresh : s₁.names.exhausted = []) :
      (selfJoinTarget s₁.names t d).map Prod.snd = ownLevel? t d :=
    (moved.sound fresh sound).selfJoinTarget_level fresh apart (answer.output ▸ hd)
      (made.mono moved.extension.toGrows (.refl d))
  dsimp only at h
  split at h
  · rename_i nothing
    have logged : KeepsOwnKeys s₁ s' := Keeps.log _ _ _ _ h
    obtain rfl := log_ok h
    exact Or.inl ⟨by rw [← target fresh, nothing]; rfl, Trans.trans asked logged⟩
  · rename_i column level chosen
    obtain ⟨dataset, s₂, placed, h⟩ := bind_ok h
    obtain ⟨name, s₃, joined, h⟩ := bind_ok h
    obtain ⟨_, s₄, stored, h⟩ := bind_ok h
    have place := datasetName_answered placed
    have join := uniqueName_answered joined fun _ h => nomatch h
    have only : OnlyNames s₁ s₃ := place.toOnlyNames.trans join.toOnlyNames
    have placing : KeepsOwnKeys s₁ s₂ := Keeps.datasetName _ _ _ _ placed
    have before : KeepsOwnKeys s s₂ := Trans.trans asked placing
    obtain ⟨o, added, rfl⟩ := store_ok stored
    obtain ⟨rfl, -⟩ := Output.addJoin_ok added
    obtain rfl := log_ok h
    have onLevel := target (only.names.exhausted fresh)
    rw [chosen] at onLevel
    refine Or.inr ⟨⟨_, List.mem_append_right _ (List.mem_singleton_self _), d, ?_, made.label,
      { key := join.known
        dataset := join.names.lookup place.known
        dimension := same.symm
        level := onLevel.symm }⟩, fun table answered => ?_⟩
    · change d ∈ s₃.output.dimensions
      rwa [only.output, answer.output]
    · obtain ⟨n, answered⟩ := Option.ne_none_iff_exists'.1 answered
      refine (join.others _ n answered).imp_right fun old => ?_
      rw [← before table, old]
      exact Option.some_ne_none n

/-- Whatever is answered for joins of tables to themselves, there are these joins. -/
def OwnJoinsMade (source : Source) (s : State) : Prop :=
  ∀ t ∈ source.model.tables, s.names.lookup (Key.selfRelationship t.name) ≠ none → HasOwnJoin s t

section Settled

variable (apart : source.model.TablesApart) (filled : ∀ d ∈ s.output.dimensions,
  ∀ k ∈ d.hierarchies, k.levels ≠ [])
include apart filled

theorem addSelfJoin_made (sound : Sound source s) (fresh : s'.names.exhausted = [])
    (before : OwnJoinsMade source s) (ht : t ∈ source.model.tables) (has : HasDimension s t.name)
    (h : (addSelfJoin source t.name).run s = .ok (u, s')) : OwnJoinsMade source s' ∧
      ∀ d ∈ s.output.dimensions, d.label = t.name → d.hierarchies ≠ [] → HasOwnJoin s' t := by
  have only : OnlyOwnJoins source s s' := .addSelfJoin source t.name _ _ _ h
  cases known : s.names.lookup (Key.selfRelationship t.name) with
  | some name =>
    have have' : HasOwnJoin s t := before t ht (known ▸ Option.some_ne_none name)
    obtain ⟨_, _, got, h⟩ := bind_ok h
    obtain ⟨rfl, rfl⟩ := get_ok got
    rw [known] at h
    obtain ⟨-, rfl⟩ := pure_ok h
    exact ⟨before, fun _ _ _ _ => have'⟩
  | none =>
    obtain ⟨d, hd, key⟩ := has
    have free := only.fresh fresh
    have made := sound.dimensionFor apart ht hd ((sound.label_iff free apart ht hd key).1 rfl)
    rcases addSelfJoin_new apart sound fresh hd made known h with ⟨levelless, kept⟩ | ⟨join, others⟩
    · refine ⟨fun t'' ht'' answered => ?_, fun d' hd' label' some => ?_⟩
      · rw [kept] at answered
        exact (before t'' ht'' answered).mono only
      · have same := (sound.label_iff free apart ht hd' key).2 label'
        obtain rfl := List.inj_on_of_nodup_map sound.distinct.dimensions hd' hd same
        exact absurd levelless (ownLevel?_ne_none (filled d' hd) some)
    · refine ⟨fun t'' ht'' answered => ?_, fun _ _ _ _ => join⟩
      rcases others t''.name answered with same | old
      · rwa [apart.eq_of_lower ht'' ht (Key.selfRelationship_inj same)]
      · exact (before t'' ht'' old).mono only

theorem addSelfJoins_made {tables : List String} (sound : s.names.exhausted = [] → Sound source s)
    (unasked : ∀ table, s.names.lookup (Key.selfRelationship table) = none)
    (known : ∀ name ∈ tables, ∃ t ∈ source.model.tables, t.name = name ∧
      HasDataset s t.name ∧ HasDimension s t.name)
    (h : (forIn tables PUnit.unit fun table _ => do
      addSelfJoin source table
      return .yield ⟨⟩ : Run PUnit).run s = .ok (u, s')) (fresh : s'.names.exhausted = [])
    (ht : t ∈ source.model.tables) (listed : t.name ∈ tables) (hd : d ∈ s.output.dimensions)
    (label : d.label = t.name) (some : d.hierarchies ≠ []) : HasOwnJoin s' t := by
  -- Each turn knows the joins made so far by the keys that are answered, so a table that comes twice
  -- is told apart from one whose own join is still to be made.
  let P (s₁ : State) : Prop := OnlyOwnJoins source s s₁ ∧ Moves source .joins s s₁ ∧
    (s₁.names.exhausted = [] → OwnJoinsMade source s₁)
  let Q (table : String) (s₁ : State) : Prop := s₁.names.exhausted = [] →
    ∀ t ∈ source.model.tables, t.name = table → ∀ d ∈ s.output.dimensions, d.label = t.name →
      d.hierarchies ≠ [] → HasOwnJoin s₁ t
  have start : P s := ⟨Std.Refl.refl s, .refl _ _ _, fun _ t _ answered =>
    absurd (unasked t.name) answered⟩
  refine (forIn_all (P := P) (Q := Q) start (fun table hn s₁ s₂ r turn before => ?_) h).2 t.name
    listed fresh t ht rfl d hd label some
  obtain ⟨_, s₃, added, turn⟩ := bind_ok turn
  obtain ⟨rfl, rfl⟩ := pure_ok turn
  obtain ⟨only, moved, made⟩ := before
  obtain ⟨t', ht', rfl, dataset, dimension⟩ := known table hn
  have step : OnlyOwnJoins source s₁ s₃ := .addSelfJoin source t'.name _ _ _ added
  have moves : Moves source .joins s₁ s₃ :=
    addSelfJoin_moves apart (dataset.mono moved.extension.toGrows).based added
  have turned (fresh : s₃.names.exhausted = []) := addSelfJoin_made apart
    (only.dimensions ▸ filled)
    (moved.sound (step.fresh fresh) (sound (only.fresh (step.fresh fresh)))) fresh
    (made (step.fresh fresh)) ht' (dimension.mono moved.extension.toGrows) added
  refine ⟨rfl, ⟨only.trans step, moved.trans moves, fun fresh => (turned fresh).1⟩,
    fun fresh t'' ht'' same d' hd' => ?_, fun table settled fresh t ht named d hd label some =>
      (settled (step.fresh fresh) t ht named d hd label some).mono step⟩
  obtain rfl := apart.eq_of_lower ht'' ht' (congrArg lower same)
  exact (turned fresh).2 d' (only.dimensions ▸ hd')

end Settled

/-- Up to the relationships nothing is answered for joins of tables to themselves. -/
theorem unasked_of_reclassified {settings : Settings} {database : Database} {connection : String}
    {made : Catalog} {s₀ s₁ s₂ s₃ : State} {u₁ u₂ u₃ : Unit}
    (prepared : (prepare source database connection).run (.initial settings) = .ok (made, s₀))
    (reported : reportUnreferencedHelpers.run s₀ = .ok (u₁, s₁))
    (classified : (reclassify source).run s₁ = .ok (u₂, s₂))
    (described : (resolveDimensions source).run s₂ = .ok (u₃, s₃)) (table : String) :
    s₃.names.lookup (Key.selfRelationship table) = none := by
  have first : KeepsOwnKeys (.initial settings) s₀ :=
    .prepare source database connection _ _ _ prepared
  have second : KeepsOwnKeys s₀ s₁ := Light.reportUnreferencedHelpers.keeps _ _ _ reported
  have third : KeepsOwnKeys s₁ s₂ := Keeps.reclassify source _ _ _ classified
  have fourth : KeepsOwnKeys s₂ s₃ := .resolveDimensions source _ _ _ described
  rw [fourth table, third table, second table, first table]
  rfl

/-- The joins of a result, those of relationships apart from those of tables to themselves. -/
structure Separates (source : Source) (s : State) (joins own : List Relationship) : Prop where
  relationships : s.output.relationships = joins ++ own
  linked : List.Forall₂ (JoinFor s.names)
    (directEnds s.tables (source.model.relationships.filterMap (ends? source.model))) joins
  foreign : ∀ r ∈ joins, ∀ table,
    s.names.lookup (Key.selfRelationship table) ≠ some r.uniqueName
  own : ∀ r ∈ own, OwnJoin source s.names r
  complete : ∀ t ∈ source.model.tables, t.name ∈ s.tables.fact → t.name ∈ s.tables.dimension →
    ∀ d ∈ s.output.dimensions, d.label = t.name → d.hierarchies ≠ [] → HasOwnJoin s t

theorem run_separates {settings : Settings} {database : Database} {catalog : Catalog} {m : Model}
    {connection : String} (apart : source.model.TablesApart)
    (h : (run source database connection).run (.initial settings) = .ok ((catalog, m), s))
    (free : s.names.exhausted = []) : ∃ joins own, Separates source s joins own := by
  obtain ⟨registry, drawn⟩ := run_drawn source apart.distinct h
  rw [run_eq] at h
  obtain ⟨made, s₀, prepared, h⟩ := bind_ok h
  obtain ⟨_, s₁, reported, h⟩ := bind_ok h
  obtain ⟨_, s₂, classified, finishing⟩ := bind_ok h
  obtain ⟨before, -⟩ := (prepare_ok prepared).reclassified apart.distinct reported classified
  obtain ⟨-, late, -⟩ := finish_ok apart before finishing
  obtain ⟨_, s₃, described, finishing⟩ := bind_ok finishing
  obtain ⟨_, s₄, related, finishing⟩ := bind_ok finishing
  obtain ⟨_, s₅, emitted, related⟩ := bind_ok related
  obtain ⟨_, _, got, related⟩ := bind_ok related
  obtain ⟨rfl, rfl⟩ := get_ok got
  obtain ⟨_, s₆, joined, warned⟩ := bind_ok related
  have joinless : s₃.output.allJoins = [] := Keeps.resolveDimensions source
    StaysJoinless.addDimension _ _ _ described before.joinless
  obtain ⟨describing, ready, dimensions⟩ := resolveDimensions_ready apart before described
  have sound₃ (fresh : s₃.names.exhausted = []) : Sound source s₃ :=
    describing.sound fresh (before.sound (describing.extension.names.exhausted fresh))
  obtain ⟨moves, emits, -⟩ := emits_all apart sound₃ ready emitted
  have asking : KeepsOwnKeys s₃ s₅ := Keeps.forIn (fun r _ =>
    .bind (KeepsOwnKeys.resolveRelationship apart r) fun _ => .pure _) _ _ _ emitted
  have unasked (table : String) : s₅.names.lookup (Key.selfRelationship table) = none := by
    rw [asking table]
    exact unasked_of_reclassified prepared reported classified described table
  have looped : OnlyOwnJoins source s₅ s₆ := Keeps.forIn (fun table _ =>
    .bind (OnlyOwnJoins.addSelfJoin source table) fun _ => .pure _) _ _ _ joined
  have rest : OnlyOwnJoins source s₆ s := .trans (Keeps.warnAmbiguousPaths source _ _ _ warned)
    (.rest source _ _ _ _ _ finishing)
  have kept := looped.trans rest
  have sound₅ (fresh : s₅.names.exhausted = []) : Sound source s₅ :=
    moves.sound fresh (sound₃ (moves.extension.names.exhausted fresh))
  have tables₃ : s.tables = s₃.tables :=
    late.extension.tables.trans describing.extension.tables.symm
  have tables₅ : s.tables = s₅.tables := tables₃.trans moves.extension.tables.symm
  obtain ⟨joins, same, linked⟩ := (emits (kept.fresh free)).relationships
  obtain ⟨own, same', ownMade⟩ := kept.relationships
  rw [(List.append_eq_nil_iff.1 joinless).1, List.nil_append] at same
  refine ⟨joins, own, {
    relationships := by rw [same', same]
    linked := tables₃ ▸ linked.imp fun _ _ made => made.mono kept.lookup
    foreign := fun r hr table known => ?_
    own := ownMade
    complete := fun t ht fact isDimension d hd label some => ?_ }⟩
  -- The join of a relationship has a key of its own, and that is none of a table's own join: none of
  -- the latter is answered when the former is made.
  · obtain ⟨key, -, answered⟩ := ((sound₅ (kept.fresh free)).joins r
      (List.mem_append_left _ (same ▸ hr))).key
    have twin := Registry.key_eq_of_lookup registry free (kept.lookup _ _ answered) known rfl
    rw [twin, unasked table] at answered
    cases answered
  · rw [tables₅] at fact isDimension
    refine (addSelfJoins_made apart (fun d hd k hk => ?_) sound₅ unasked (fun name hn => ?_) joined
      (rest.fresh free) ht (List.mem_filter.2 ⟨fact, List.contains_iff_mem.2 isDimension⟩)
      (kept.dimensions ▸ hd) label some).mono rest
    · obtain ⟨_, -, made⟩ := drawn d (kept.dimensions ▸ hd)
      exact made.levels_ne_nil hk
    · obtain ⟨used, alsoUsed⟩ := List.mem_filter.1 hn
      rw [← tables₅, late.extension.tables] at used alsoUsed
      obtain ⟨t', ht', rfl⟩ := before.tables (Or.inl used)
      refine ⟨t', ht', rfl, ?_, ?_⟩
      · exact ((before.covered t' ht' (Or.inl used)).mono describing.extension.toGrows).mono
          moves.extension.toGrows
      · exact (dimensions t' ht' (List.contains_iff_mem.1 alsoUsed)).mono moves.extension.toGrows

def selfEnds (model : Tabular.Model) (t : Table) : List JoinEnds :=
  (model.relationships.filterMap (ends? model)).filter fun ends =>
    ends.fromTable.name = t.name ∧ ends.toTable.name = t.name

structure IsSelfJoin (d : Dimension) (ends : JoinEnds) (r : Relationship) : Prop where
  columns : r.source.joinColumns = [ends.fromColumn.name]
  level : (attributeOver? d.levelAttributes ends.toColumn).map (·.uniqueName) = some r.target.level

def joinsBetween (c : Conversion) (e : Dataset) (d : Dimension) : List Relationship :=
  (c.models.flatMap (·.relationships)).filter fun r =>
    r.source.dataset = e.uniqueName ∧ r.target.dimension = d.uniqueName

/-- How a dataset joins the dimension of its own table. -/
structure JoinsItself (model : Tabular.Model) (c : Conversion) (t : Table) (e : Dataset)
    (d : Dimension) : Prop where
  /-- Besides the joins of relationships there is one, on the level of the key column or else on the
  leaf of the first hierarchy. -/
  joins : ∃ others own, joinsBetween c e d = others ++ [own] ∧
    List.Forall₂ (IsSelfJoin d) (selfEnds model t) others ∧ ownLevel? t d = some own.target.level
  /-- So it is the only one unless relationships lead from the table to itself. -/
  alone : (∃ own, joinsBetween c e d = [own]) ↔ selfEnds model t = []

/-- Names that are answered to keys of tables are those of different tables. -/
theorem Registry.name_eq_iff {names : Registry} {model : Tabular.Model} {key : String → String}
    {t t' : Table} {name name' : String} (inj : ∀ {a b : String}, key a = key b → lower a = lower b)
    (registry : names.Apart) (free : names.exhausted = []) (apart : model.TablesApart)
    (ht : t ∈ model.tables) (ht' : t' ∈ model.tables)
    (known : names.lookup (key t.name) = some name)
    (known' : names.lookup (key t'.name) = some name') : name' = name ↔ t'.name = t.name := by
  constructor
  · intro same
    have twin := Registry.key_eq_of_lookup registry free known' known (congrArg lower same)
    rw [apart.eq_of_lower ht' ht (inj twin)]
  · intro same
    rw [same, known] at known'
    exact (Option.some.inj known').symm

section Between

variable {joins own : List Relationship} {e : Dataset} {ends : JoinEnds} {r : Relationship}
  (separates : Separates source s joins own) (sound : Sound source s)
  (free : s.names.exhausted = []) (apart : source.model.TablesApart)
  (made : DimensionFor source s t d)
  (placed : s.names.lookup (Key.dataset t.name) = some e.uniqueName)
include sound free apart made placed

theorem between_iff {q : Tabular.Relationship} (ends_of : EndsOf source.model q ends)
    (join : JoinFor s.names ends r) :
    r.source.dataset = e.uniqueName ∧ r.target.dimension = d.uniqueName ↔
      ends.fromTable.name = t.name ∧ ends.toTable.name = t.name :=
  and_congr
    (Registry.name_eq_iff Key.dataset_inj sound.registry free apart made.mem
      (Tabular.Model.mem_of_table? ends_of.fromTable) placed join.dataset)
    (Registry.name_eq_iff Key.dimension_inj sound.registry free apart made.mem
      (Tabular.Model.mem_of_table? ends_of.toTable) made.key join.dimension)

include separates

theorem forall₂_isSelfJoin (hd : d ∈ s.output.dimensions) (fact : t.name ∈ s.tables.fact) :
    List.Forall₂ (IsSelfJoin d) (selfEnds source.model t) (joins.filter fun r =>
      r.source.dataset = e.uniqueName ∧ r.target.dimension = d.uniqueName) := by
  have known : ∀ ends ∈ directEnds s.tables (source.model.relationships.filterMap
      (ends? source.model)), ∃ q, EndsOf source.model q ends := fun ends he => by
    obtain ⟨q, -, found⟩ := List.mem_filterMap.1 (List.mem_of_mem_filter he)
    exact ⟨q, ends?_eq_some found⟩
  have direct : (directEnds s.tables (source.model.relationships.filterMap
      (ends? source.model))).filter (fun ends => ends.fromTable.name = t.name ∧
        ends.toTable.name = t.name) = selfEnds source.model t := by
    rw [directEnds, selfEnds, List.filter_filter]
    refine List.filter_congr fun ends _ => ?_
    rw [Bool.and_eq_left_iff_imp]
    intro same
    rw [decide_eq_true_eq] at same ⊢
    rwa [same.1]
  have linked := (List.forall₂_and_left _ _).2 ⟨known, separates.linked⟩
  have between := List.rel_filter (p := fun ends : JoinEnds =>
    decide (ends.fromTable.name = t.name ∧ ends.toTable.name = t.name)) (q := fun r =>
      decide (r.source.dataset = e.uniqueName ∧ r.target.dimension = d.uniqueName))
    (fun ends r both => by
      obtain ⟨⟨q, endsOf⟩, join⟩ := both
      simp only [decide_eq_true_eq]
      exact (between_iff sound free apart made placed endsOf join).symm) linked
  rw [direct] at between
  have itself : ∀ ends ∈ selfEnds source.model t, ends.toTable.name = t.name := fun ends he =>
    (of_decide_eq_true (List.mem_filter.1 he).2).2
  refine ((List.forall₂_and_left _ _).2 ⟨itself, between⟩).imp fun ends r both =>
    ⟨both.2.2.columns, ?_⟩
  rw [← sound.lookup_level free apart hd made, ← both.1]
  exact both.2.2.level

theorem filter_own (hr : r ∈ own) (join : JoinsOwn s.names t d r) :
    (own.filter fun r =>
      r.source.dataset = e.uniqueName ∧ r.target.dimension = d.uniqueName) = [r] := by
  have listed {q : Relationship} (hq : q ∈ own) : q ∈ s.output.allJoins :=
    List.mem_append_left _ (separates.relationships ▸ List.mem_append_right joins hq)
  -- Own joins of one table have one key, so they are one join, and it is in the list once.
  have once : own.Nodup := by
    have names := (List.nodup_append.1 sound.distinct.joins.of_map).1
    rw [separates.relationships] at names
    exact (List.nodup_append.1 names).2.1
  refine List.perm_singleton.1 ((List.perm_ext_iff_of_nodup (once.filter _)
    (List.nodup_singleton r)).2 fun q => ?_)
  rw [List.mem_filter, decide_eq_true_eq, List.mem_singleton]
  constructor
  · rintro ⟨hq, dataset, -⟩
    obtain ⟨t', ht', key, place, -⟩ := (separates.own q hq).sides
    have same : t'.name = t.name := (Registry.name_eq_iff Key.dataset_inj sound.registry free apart
      made.mem ht' placed place).1 dataset
    rw [same, join.key] at key
    exact List.inj_on_of_nodup_map sound.distinct.joins (listed hq) (listed hr)
      (Option.some.inj key).symm
  · rintro rfl
    exact ⟨hr, Option.some.inj (join.dataset.symm.trans placed), join.dimension⟩

theorem joinsItself {catalog : Catalog} {m : Model} (hd : d ∈ s.output.dimensions)
    (fact : t.name ∈ s.tables.fact) (model : m.relationships = s.output.relationships)
    (hr : r ∈ own) (join : JoinsOwn s.names t d r) :
    JoinsItself source.model (ofOutput catalog m s) t e d := by
  have shape : joinsBetween (ofOutput catalog m s) e d = joins.filter (fun r =>
      r.source.dataset = e.uniqueName ∧ r.target.dimension = d.uniqueName) ++ [r] := by
    rw [← filter_own separates sound free apart made placed hr join, ← List.filter_append,
      ← separates.relationships, ← model, joinsBetween]
    change ([m].flatMap (·.relationships)).filter _ = _
    rw [List.flatMap_singleton]
  have selfJoins := forall₂_isSelfJoin separates sound free apart made placed hd fact
  refine ⟨⟨_, r, shape, selfJoins, join.level⟩, ?_⟩
  rw [shape]
  constructor
  · rintro ⟨only, same⟩
    have none : joins.filter (fun r =>
        r.source.dataset = e.uniqueName ∧ r.target.dimension = d.uniqueName) = [] := by
      have one := congrArg List.length same
      rw [List.length_append] at one
      exact List.length_eq_zero_iff.1 (Nat.succ.inj one)
    rw [none] at selfJoins
    exact List.forall₂_nil_right_iff.1 selfJoins
  · intro none
    rw [none] at selfJoins
    exact ⟨r, by rw [List.forall₂_nil_left_iff.1 selfJoins, List.nil_append]⟩

end Between

/-- Every table that is a fact and a dimension is joined to itself. -/
theorem convertWith_ownJoins [Sql.Parser] {settings : Settings} {database : Database}
    {connection : String} {c : Conversion} (apart : database.model.TablesApart)
    (fresh : settings.NeverExhausted database connection)
    (h : convertWith settings database connection = .ok c) :
    ∃ s, EndsIn settings database connection c s ∧ ∀ t ∈ database.model.tables,
      t.name ∈ s.tables.fact → t.name ∈ s.tables.dimension →
        ∀ d ∈ c.dimensions, d.label = t.name → d.hierarchies ≠ [] →
          (∃ e ∈ c.datasets, e.label = t.name) ∧
            ∀ e ∈ c.datasets, e.label = t.name → JoinsItself database.model c t e d := by
  obtain ⟨catalog, m, s, ran, rfl⟩ := convertWith_ok h
  refine ⟨s, ⟨catalog, m, ran, rfl⟩, fun t ht fact isDimension d hd label some => ?_⟩
  let source : Source := ⟨database.model, settings⟩
  have free := fresh _ s ran
  obtain ⟨sound, -, model⟩ : Sound source s ∧ _ := run_related apart ran free
  obtain ⟨joins, own, separates⟩ : ∃ joins own, Separates source s joins own :=
    run_separates apart ran free
  obtain ⟨r, hr, d', hd', label', join⟩ := separates.complete t ht fact isDimension d hd label some
  obtain rfl := List.inj_on_of_nodup_map (sound.labels_nodup free apart) hd hd'
    (label.trans label'.symm)
  have mine : r ∈ own := by
    rw [separates.relationships] at hr
    exact (List.mem_append.1 hr).resolve_left fun inside =>
      separates.foreign r inside t.name join.key
  have made := sound.dimensionFor apart ht hd label
  refine ⟨?_, fun e he named => ?_⟩
  · have listed : r ∈ s.output.allJoins := List.mem_append_left _ hr
    obtain ⟨e, he, same⟩ := List.mem_map.1 (sound.joins r listed).dataset
    exact ⟨e, he, sound.dataset_label free apart.distinct ht he (same ▸ join.dataset)⟩
  · have placed := sound.dataset_key he
    rw [named] at placed
    exact joinsItself separates sound free apart made placed hd fact model mine join

/-- Employees have managers among themselves. -/
def staff : Database where
  name := "Staff"
  model := {
    tables := [{
      name := "Employee"
      columns := [{ Column.data "Id" "int64" with isKey := true }, .data "Manager" "int64",
        .data "Salary" "decimal"]
      measures := [{ name := "Payroll", expression := ⟨"SUM(Employee[Salary])"⟩ }] }]
    relationships := [
      { fromTable := "Employee", fromColumn := "Manager"
        toTable := "Employee", toColumn := "Id" }] }

attribute [local instance] Sql.Parser.lenient

theorem run_staff : ∃ catalog m s,
    (run ⟨staff.model, {}⟩ staff "warehouse").run (.initial {}) = .ok ((catalog, m), s) ∧
      s.names.exhausted = [] ∧
      ∃ e ∈ s.output.datasets, ∃ d ∈ s.output.dimensions,
        (joinsBetween (ofOutput catalog m s) e d).map (·.source.joinColumns) =
          [["Manager"], ["Id"]] :=
  exists_run (by decide +kernel)

/-- They are joined to their dimension by their managers and once more by themselves. -/
theorem convertWith_ownJoins_staff : ∃ c s, convertWith {} staff "warehouse" = .ok c ∧
    EndsIn {} staff "warehouse" c s ∧
    (∀ t ∈ staff.model.tables, t.name ∈ s.tables.fact → t.name ∈ s.tables.dimension →
      ∀ d ∈ c.dimensions, d.label = t.name → d.hierarchies ≠ [] →
        (∃ e ∈ c.datasets, e.label = t.name) ∧
          ∀ e ∈ c.datasets, e.label = t.name → JoinsItself staff.model c t e d) ∧
    ∃ e ∈ c.datasets, ∃ d ∈ c.dimensions, (joinsBetween c e d).map (·.source.joinColumns) =
      [["Manager"], ["Id"]] := by
  obtain ⟨catalog, m, s, ran, free, both⟩ := run_staff
  have h := convertWith_of_run (by decide) ran
  obtain ⟨s', ends, joined⟩ :=
    convertWith_ownJoins (by decide +kernel) (neverExhausted_of_run ran free) h
  exact ⟨_, s', h, ends, joined, both⟩

end SemanticLayer.Conversion
