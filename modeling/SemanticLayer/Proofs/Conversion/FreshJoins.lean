import SemanticLayer.Proofs.Conversion.Classes
import SemanticLayer.Proofs.Conversion.Depth
import SemanticLayer.Proofs.Conversion.FreshMeasures
import SemanticLayer.Proofs.Conversion.Relationships

set_option autoImplicit false

/-!
Dimensions, joins and perspectives are new whenever they are made. Dimensions and perspectives
belong to tables and to perspectives of the source, which differ in name. A join belongs to a
relationship of the source, in one of two forms; or it is one of a table to its own dimension, which
is made only if no join has been asked for under its key.
-/
namespace SemanticLayer

open Text (lower)
open Identifier

def Output.dimensionNames (o : Output) : List String := o.dimensions.map (·.uniqueName)

def Output.perspectiveNames (o : Output) : List String := o.perspectives.map (·.uniqueName)

namespace Conversion

open Identifier (Registry Request)
open Tabular (Table Column)

variable {source : Source} {deep : Prop} {s s' : State} {u : Unit}

section Dimensions

theorem describeDimension_key {t : Table} {d : Dimension}
    (h : (describeDimension source t).run s = .ok (d, s')) :
    s'.names.lookup (Key.dimension t.name) = some d.uniqueName := by
  obtain @⟨_, _, _, _, _, s₁, s₂, s₃, s₄, s₅, named, noted, placed, drafted, hung, timed⟩ :=
    description_of_ok h
  have asks : Asks s₁ s' := calc
    Asks s₁ s₂ := (Light.log _).keeps _ _ _ noted
    Asks _ s₃ := (Light.datasetName _).keeps _ _ _ placed
    Asks _ s₄ := (Light.hierarchies _ _).keeps _ _ _ drafted
    Asks _ s₅ := (Light.attachSecondaryAttributes _ _ _).keeps _ _ _ hung
    Asks _ s' := (Light.log _).keeps _ _ _ timed
  exact asks.lookup _ _ (dimensionName_answered named).known

theorem Adds.resolveDimension {t : Table}
    (free : Free (·.dimensionNames) (Key.dimension t.name) s) :
    Adds deep (·.dimensionNames) [Key.dimension t.name] (resolveDimension source t) s := by
  rw [resolveDimension_eq]
  have light := Light.describeDimension source t
  refine .bind (.light light _) fun d s₁ described => ?_
  obtain ⟨-, plain⟩ := describeDimension_ok described
  refine .store free (List.mem_singleton_self _) (light.keeps _ _ _ described)
    (describeDimension_key described) Output.Shelf.dimensions.exists_insert fun o made n hn => ?_
  obtain ⟨rfl, -⟩ := Output.addDimension_ok made plain
  exact NamedMap.mem_names_insert.1 hn

theorem Safe.resolveDimensions (distinct : source.model.TablesDistinct)
    (none : s.output.dimensions = []) (apart : s.names.Apart) :
    Safe deep (resolveDimensions source) s := by
  have keys : (source.model.tables.flatMap fun t => [Key.dimension t.name]).Nodup := by
    rw [← List.map_eq_flatMap]
    refine List.pairwise_map.2 ((List.pairwise_map.1 distinct).imp fun differ same => differ ?_)
    exact Key.dimension_inj same
  have nothing : s.output.dimensionNames = [] := by
    rw [Output.dimensionNames, none]
    rfl
  refine Safe.bind (Adds.safe (.forIn (P := fun _ => True) keys
    (fun t _ s _ free => ⟨?_, fun _ _ _ => trivial⟩) trivial
    fun key _ => .of_nil nothing apart)) fun _ s' _ => (Light.pure _).safe s'
  refine .get_bind ?_
  split
  · exact .bind (.resolveDimension (free _ (List.mem_singleton_self _))) fun _ _ _ =>
      .light (.pure _) _
  · exact .light (.pure _) _

end Dimensions

section Relationships

def JoinEnds.keys (ends : JoinEnds) : List String :=
  [Key.relationship ends.fromTable.name ends.fromColumn.name ends.toTable.name ends.toColumn.name,
    Key.embeddedRelationship ends.fromTable.name ends.fromColumn.name ends.toTable.name
      ends.toColumn.name]

/-- The keys of the joins that active relationships between existing columns may become. -/
def joinKeys (model : Tabular.Model) : List String :=
  (model.relationships.filterMap (ends? model)).flatMap JoinEnds.keys

theorem joinKeys_eq (model : Tabular.Model) : joinKeys model =
    model.relationships.flatMap fun r => (ends? model r).toList.flatMap JoinEnds.keys := by
  rw [joinKeys, List.filterMap_eq_flatMap_toList, List.flatMap_assoc]

theorem Adds.addJoin {s₁ : State} {key name : String} {keys : List String} {join : JoinSource}
    {target : JoinTarget} (free : Free (·.joinNames) key s) (own : key ∈ keys) (asks : Asks s s₁)
    (known : s₁.names.lookup key = some name) :
    Adds deep (·.joinNames) keys (Conversion.store (·.addJoin ⟨name, join, target⟩)) s₁ := by
  refine .store free own asks known (fun new => Output.exists_addJoin new) fun o made n hn => ?_
  obtain ⟨rfl, -⟩ := Output.addJoin_ok made
  rw [Output.joinNames, List.mem_append, NamedMap.mem_names_insert] at hn
  rw [Output.joinNames, List.mem_append, or_right_comm]
  exact hn

theorem Adds.addNestedJoin {s₁ : State} {key name owner : String} {keys : List String}
    {join : JoinSource} {target : JoinTarget} (free : Free (·.joinNames) key s) (own : key ∈ keys)
    (asks : Asks s s₁) (known : s₁.names.lookup key = some name)
    (owned : owner ∈ s₁.output.dimensions.map (·.uniqueName)) :
    Adds deep (·.joinNames) keys (Conversion.store (·.addNestedJoin owner ⟨name, join, target⟩))
      s₁ := by
  refine .store free own asks known (fun new => Output.exists_addNestedJoin new owned)
    fun o made n hn => ?_
  obtain ⟨rfl, -⟩ := Output.addNestedJoin_ok made
  simp only [Output.joinNames, List.mem_append, List.mem_singleton] at hn ⊢
  tauto

theorem Adds.storeJoin {ends : JoinEnds} {join : JoinSource} {target : JoinTarget}
    (distinct : ends.keys.Nodup) (free : ∀ key ∈ ends.keys, Free (·.joinNames) key s)
    (owned : ends.fromTable.name ∈ s.tables.dimension → HasDimension s ends.fromTable.name) :
    Adds deep (·.joinNames) ends.keys (storeJoin ends join target) s := by
  let key := Key.relationship ends.fromTable.name ends.fromColumn.name ends.toTable.name
    ends.toColumn.name
  let nestedKey := Key.embeddedRelationship ends.fromTable.name ends.fromColumn.name
    ends.toTable.name ends.toColumn.name
  have differ : nestedKey ≠ key := fun same =>
    (List.nodup_cons.1 distinct).1 (List.mem_singleton.2 same.symm)
  have first : key ∈ ends.keys := List.mem_cons_self
  have second : nestedKey ∈ ends.keys := List.mem_cons_of_mem _ List.mem_cons_self
  have direct : Adds deep (·.joinNames) [key] (directJoin ends join target s.tables) s := by
    unfold directJoin
    split
    · refine .bind (.uniqueName _ _) fun name s₁ named => ?_
      have answer := uniqueName_answered named fun _ h => nomatch h
      exact .addJoin (free _ first) (List.mem_singleton_self _) answer.toOnlyNames.asks answer.known
    · exact .light (.pure _) _
  rw [storeJoin_eq]
  refine .get_bind (.bind (direct.imp (List.cons_subset.2 ⟨first, List.nil_subset _⟩))
    fun _ s₁ joined => ?_)
  unfold nestedJoin
  split
  · rename_i isDimension
    refine .bind (.uniqueName _ _) fun name s₂ named => ?_
    refine .bind (.light (.dimensionName _) _) fun owner s₃ placed => ?_
    have before : Gives (·.joinNames) (· = key) s s₁ :=
      (direct.gives _ _ joined).imp fun _ => List.mem_singleton.1
    have dimensions : s₁.output.dimensions = s.output.dimensions :=
      Keeps.directJoin (R := Spares (·.dimensions)) (fun _ => .addJoin rfl)
        (fun _ _ => .uniqueName _) _ _ _ _ _ _ joined
    have answer := uniqueName_answered named fun _ h => nomatch h
    have place := dimensionName_answered placed
    have only := answer.toOnlyNames.trans place.toOnlyNames
    refine .addNestedJoin ((free _ second).gives before differ) second only.asks
      (place.names.lookup answer.known) ?_
    obtain ⟨d, hd, known⟩ := owned (List.contains_iff_mem.1 isDimension)
    have same := only.names.lookup (before.lookup _ _ known)
    refine List.mem_map.2 ⟨d, ?_, Option.some.inj (same.symm.trans place.known)⟩
    rwa [only.output, dimensions]
  · exact .light (.pure _) _

theorem Adds.resolveRelationship {r : Tabular.Relationship}
    (distinct : ((ends? source.model r).toList.flatMap JoinEnds.keys).Nodup)
    (free : ∀ key ∈ (ends? source.model r).toList.flatMap JoinEnds.keys, Free (·.joinNames) key s)
    (owned : ∀ t ∈ source.model.tables, t.name ∈ s.tables.dimension → HasDimension s t.name) :
    Adds deep (·.joinNames) ((ends? source.model r).toList.flatMap JoinEnds.keys)
      (resolveRelationship source r) s := by
  rw [Conversion.resolveRelationship]
  cases ended : joinEnds source.model r with
  | error reason => exact .light (.log _) _
  | ok ends =>
    have known : ends? source.model r = some ends := by
      rw [← joinEnds_toOption, ended]
      rfl
    rw [known, Option.toList_some, List.flatMap_singleton] at distinct free ⊢
    refine .get_bind ?_
    dsimp only
    split
    · exact .light (.log _) _
    refine .bind (.light (.dimensionName _) _) fun dimension s₁ named => ?_
    refine .bind (.light (.datasetName _) _) fun dataset s₂ placed => ?_
    refine .get_bind ?_
    have only : OnlyNames s s₂ := (dimensionName_answered named).toOnlyNames.trans
      (datasetName_answered placed).toOnlyNames
    split
    · refine .storeJoin distinct (fun key own => (free key own).asks only.asks)
        fun isDimension => ?_
      rw [only.tables] at isDimension
      exact (owned _ (joinEnds_ok ended).1 isDimension).mono (only.extends .joins).toGrows
    · exact .light (.log _) _

theorem Adds.addSelfJoin {table : String}
    (free : s.names.lookup (Key.selfRelationship table) = none →
      Free (·.joinNames) (Key.selfRelationship table) s) :
    Adds deep (·.joinNames) [Key.selfRelationship table] (addSelfJoin source table) s := by
  refine .get_bind ?_
  split
  · exact .light (.pure _) _
  rename_i absent
  split
  swap
  · exact .light (.pure _) _
  rename_i t found
  refine .bind (.light (.dimensionName _) _) fun dimension s₁ named => ?_
  refine .get_bind ?_
  split
  swap
  · exact .light (.pure _) _
  split
  · exact .light (.log _) _
  refine .bind (.light (.datasetName _) _) fun dataset s₂ placed => ?_
  refine .bind (.uniqueName _ _) fun name s₃ joined => ?_
  have answer := uniqueName_answered joined fun _ h => nomatch h
  have only := ((dimensionName_answered named).toOnlyNames.trans
    (datasetName_answered placed).toOnlyNames).trans answer.toOnlyNames
  exact .bind (.addJoin (free (Option.not_isSome_iff_eq_none.1 absent)) (List.mem_singleton_self _)
    only.asks answer.known) fun _ _ _ => .light (.log _) _

end Relationships

/-- More tables are dimensions than a path of dimensions may hold. -/
def Source.Deep (source : Source) : Prop :=
  source.settings.relationships.maxDepth < source.model.dimensionTables.length

/-- What holds from the dimensions on, where the tables are in these classes. -/
structure Dimensioned (source : Source) (classes : TableLists) (s : State) : Prop where
  tables : s.tables = classes
  reliable : Reliable source s
  registry : s.names.Apart
  dimension : ∀ t ∈ source.model.tables, t.name ∈ classes.dimension → HasDimension s t.name
  count : s.output.dimensions.length = source.model.dimensionTables.length
  dataset : ∀ name, name ∈ classes.fact ∨ name ∈ classes.dimension → HasDataset s name
  joins : ∀ name ∈ s.output.joinNames, ∃ key, s.names.lookup key = some name

structure Joining (source : Source) (s s' : State) : Prop where
  moves : Moves source .joins s s'
  gives : Gives (·.joinNames) (fun _ => True) s s'
  labels : Spares labels s s'

variable {classes : TableLists}

theorem Dimensioned.mono (h : Dimensioned source classes s) (joining : Joining source s s') :
    Dimensioned source classes s' := by
  obtain ⟨moves, gives, same⟩ := joining
  exact {
    tables := moves.extension.tables.trans h.tables
    reliable := moves.reliable h.reliable
    registry := gives.apart h.registry
    dimension := fun t ht isDimension =>
      (h.dimension t ht isDimension).mono moves.extension.toGrows
    count := by
      rw [← h.count]
      simpa [labels] using congrArg (fun labels => labels.2.length) same
    dataset := fun name used => (h.dataset name used).mono moves.extension.toGrows
    joins := fun name found => by
      rcases gives.new name found with old | ⟨key, -, known⟩
      · obtain ⟨key, known⟩ := h.joins name old
        exact ⟨key, gives.lookup key name known⟩
      · exact ⟨key, known⟩ }

theorem Guarded.joining {A : Type} {x : Run A}
    (safe : ∀ s, Dimensioned source classes s → Safe deep x s)
    (joining : ∀ s a s', Dimensioned source classes s → x.run s = .ok (a, s') →
      Joining source s s') :
    Guarded deep (Dimensioned source classes) x :=
  ⟨safe, fun s a s' ran before => before.mono (joining s a s' before ran)⟩

theorem Guarded.light {A : Type} {x : Run A} (h : Light x)
    (moves : Keeps (Moves source .joins) x) : Guarded deep (Dimensioned source classes) x :=
  .joining (fun s _ => h.safe s) fun s a s' _ ran =>
    ⟨moves s a s' ran, h.keeps s a s' ran, h.keeps s a s' ran⟩

theorem Dimensioned.safe_lift {A : Type} {x : Except ConversionError A}
    (h : Dimensioned source classes s) (asks : Asks s s')
    (search : Sound source s → ∀ e, x = .error e →
      TooDeep source.settings.relationships.maxDepth s e) :
    Safe source.Deep (liftM x : Run A) s' := by
  refine .lift fun fresh e failed => ?_
  obtain ⟨many, path⟩ := search (h.reliable (asks.exhausted fresh)) e failed
  rw [h.count] at many
  exact ⟨many, path⟩

section Later

theorem Guarded.addSelfJoin {table : String} (apart : source.model.TablesApart)
    (used : table ∈ classes.fact ∨ table ∈ classes.dimension) :
    Guarded deep (Dimensioned source classes) (addSelfJoin source table) := by
  have adds {s₁ : State} (before : Dimensioned source classes s₁) : Adds deep (·.joinNames)
      [Key.selfRelationship table] (Conversion.addSelfJoin source table) s₁ :=
    .addSelfJoin (.of_lookup before.registry before.joins)
  exact .joining (fun s₁ before => (adds before).safe) fun s₁ _ s₂ before ran => {
    moves := addSelfJoin_moves apart (before.dataset table used).based ran
    gives := ((adds before).gives _ _ ran).imp fun _ _ => trivial
    labels := Keeps.addSelfJoin source (fun _ => .addJoin rfl) table _ _ _ ran }

theorem Guarded.warnAmbiguousPaths :
    Guarded source.Deep (Dimensioned source classes) (warnAmbiguousPaths source) := by
  refine .joining (fun s₁ before => ?_) fun _ _ _ _ ran => {
    moves := warnAmbiguousPaths_moves ran
    gives := Keeps.warnAmbiguousPaths source _ _ _ ran
    labels := Keeps.warnAmbiguousPaths source _ _ _ ran }
  refine .get_bind ?_
  exact (before.safe_lift (Std.Refl.refl _)
    fun sound _ => sound.tooDeep_of_ambiguityDiagnostics).bind fun _ s₂ _ => (Light.log _).safe s₂

theorem Guarded.ownJoins (apart : source.model.TablesApart) :
    Guarded source.Deep (Dimensioned source classes) (do
      for table in classes.factDimensions do Conversion.addSelfJoin source table
      Conversion.warnAmbiguousPaths source) :=
  .bind (.forIn fun _ hn => .bind (.addSelfJoin apart (Or.inl (List.mem_of_mem_filter hn)))
    fun _ => .pure _) fun _ => .warnAmbiguousPaths

theorem Safe.resolveRelationships (apart : source.model.TablesApart)
    (keys : (joinKeys source.model).Nodup) (before : Dimensioned source classes s)
    (none : s.output.joinNames = []) : Safe source.Deep (resolveRelationships source) s ∧
      ∀ u s', (Conversion.resolveRelationships source).run s = .ok (u, s') →
        Dimensioned source classes s' := by
  let loop : Run PUnit := forIn source.model.relationships PUnit.unit fun r _ => do
    resolveRelationship source r
    return .yield ⟨⟩
  have labels : Keeps (Spares labels) loop := .forIn fun r _ =>
    .bind (.resolveRelationship source (fun _ => .addJoin rfl) Admits.addNestedJoin_labels r)
      fun _ => .pure _
  have moves : Keeps (Moves source .joins) loop := .forIn fun r _ =>
    .bind (fun _ _ _ => resolveRelationship_moves) fun _ => .pure _
  have adds : Adds source.Deep (·.joinNames) (joinKeys source.model) loop s := by
    rw [joinKeys_eq] at keys ⊢
    refine .forIn (P := Moves source .joins s) keys (fun r hr s₁ moved free => ⟨?_, ?_⟩)
      (.refl _ _ _) fun key _ => .of_nil none before.registry
    · refine .bind (.resolveRelationship ((List.nodup_flatMap.1 keys).1 r hr) free
        fun t ht isDimension => ?_) fun _ _ _ => .light (.pure _) _
      rw [moved.extension.tables, before.tables] at isDimension
      exact (before.dimension t ht isDimension).mono moved.extension.toGrows
    · intro _ s₂ turn
      obtain ⟨_, s₃, resolved, turn⟩ := bind_ok turn
      obtain ⟨-, rfl⟩ := pure_ok turn
      exact moved.trans (resolveRelationship_moves resolved)
  have after (u : PUnit) (s₁ : State) (ran : loop.run s = .ok (u, s₁)) :
      Dimensioned source classes s₁ := before.mono {
    moves := moves _ _ _ ran
    gives := (adds.gives _ _ ran).imp fun _ _ => trivial
    labels := labels _ _ _ ran }
  have rest : Guarded source.Deep (Dimensioned source classes) (do
      for table in classes.factDimensions do Conversion.addSelfJoin source table
      Conversion.warnAmbiguousPaths source) := .ownJoins apart
  constructor
  · refine adds.safe.bind fun u s₁ ran => ?_
    refine .get_bind ?_
    rw [(after u s₁ ran).tables]
    exact rest.safe s₁ (after u s₁ ran)
  · intro _ s' ran
    obtain ⟨u, s₁, ran, h⟩ := bind_ok ran
    obtain ⟨_, _, got, h⟩ := bind_ok h
    obtain ⟨rfl, rfl⟩ := get_ok got
    rw [(after u s₁ ran).tables] at h
    exact rest.kept s₁ _ s' h (after u s₁ ran)

theorem Guarded.resolveColumnMetrics :
    Guarded deep (Dimensioned source classes) (Conversion.resolveColumnMeasures source) := by
  refine .joining (fun s₁ before => Guarded.resolveColumnMeasures.safe s₁ before.reliable)
    fun _ _ _ before ran => {
      moves := resolveColumnMeasures_moves (fun t _ fact => ?_) ran
      gives := Keeps.resolveColumnMeasures source (fun m _ s o added => ?_) _ _ _ ran
      labels := Keeps.resolveColumnMeasures source (fun _ _ => .addMetric rfl) _ _ _ ran }
  · rw [before.tables] at fact
    exact before.dataset t.name (Or.inl fact)
  · obtain ⟨rfl, -⟩ := Output.addMetric_ok added
    exact .of_output rfl

theorem Guarded.backfillTable {table : String} (apart : source.model.TablesApart)
    (used : table ∈ classes.fact ∨ table ∈ classes.dimension) :
    Guarded deep (Dimensioned source classes) (backfillTable source table) := by
  have rest (dataset : String) : Guarded deep (Dimensioned source classes) (do
      let count := ((← MonadState.get).output.metrics.filter (·.dataset == dataset)).length
      modify fun s => { s with output := repeatMetrics dataset s.output }
      info table (toString count ++ " metric(s) repeat across unrelated dimensions")
        : Run Unit) := by
    refine .bind .get fun _ => .bind (.joining (fun _ _ => .modify _) fun _ _ _ _ ran =>
      ⟨repeatMetrics_moves ran, ?_, ?_⟩) fun _ => .light (.log _) fun _ _ _ => log_moves
    all_goals obtain rfl := modify_ok ran
    · exact .of_output rfl
    · rfl
  refine .bind (.light (.datasetName _) fun _ _ _ => datasetName_moves) fun dataset =>
    .bind (.light (.dimensionName _) fun _ _ _ => dimensionName_moves) fun dimension =>
      .bind .get fun s₁ => ?_
  dsimp only
  split
  · exact rest dataset
  · exact .bind (.addSelfJoin apart used) fun _ => rest dataset

theorem Guarded.backfillRelationships (apart : source.model.TablesApart)
    (targets : classes.right ⊆ classes.dimension) :
    Guarded deep (Dimensioned source classes) (backfillRelationships source) := by
  have each (s₁ : State) (before : Dimensioned source classes s₁) :
      Guarded deep (Dimensioned source classes) (do
        for table in dimensionOnlyTables s₁ do Conversion.backfillTable source table) := by
    refine .bind (.forIn fun table ht => .bind (.backfillTable apart (Or.inr (targets ?_)))
      fun _ => .pure _) fun _ => .pure _
    have onRight := ((Bool.and_eq_true _ _).mp (List.mem_filter.1 ht).2).2
    rw [← before.tables]
    exact List.contains_iff_mem.1 onRight
  refine ⟨fun s₁ before => ?_, fun s₁ _ s' ran before => ?_⟩
  · refine .get_bind ?_
    exact (each s₁ before).safe s₁ before
  · obtain ⟨_, _, got, ran⟩ := bind_ok ran
    obtain ⟨rfl, rfl⟩ := get_ok got
    exact (each s₁ before).kept s₁ _ s' ran before

end Later

section Perspectives

theorem Joining.resolvePerspective {p : Tabular.Perspective} (before : Dimensioned source classes s)
    (h : (Conversion.resolvePerspective source p).run s = .ok (u, s')) : Joining source s s' where
  moves := resolvePerspective_moves (fun t ht isDimension =>
    before.dimension t ht (before.tables ▸ isDimension)) h
  gives := by
    refine Keeps.resolvePerspective source (fun p s o added => ?_) p _ _ _ h
    obtain ⟨rfl, -⟩ := Output.addPerspective_ok added
    exact .of_output rfl
  labels := Keeps.resolvePerspective source (fun _ => .addPerspective rfl) p _ _ _ h

theorem Adds.resolvePerspective {p : Tabular.Perspective} (before : Dimensioned source classes s)
    (free : Free (·.perspectiveNames) (Key.perspective p.name) s) :
    Adds source.Deep (·.perspectiveNames) [Key.perspective p.name] (resolvePerspective source p)
      s := by
  have light : Light (p.tables.foldlM (addPerspectiveTable source p.name) {}) :=
    .foldlM (fun _ _ _ => .addPerspectiveTable source _ _ _) _
  refine .bind (.light light _) fun content s₁ folded => ?_
  have asks : Asks s s₁ := light.keeps _ _ _ folded
  refine .get_bind ?_
  dsimp only
  rw [asks.output]
  refine .bind ⟨before.safe_lift asks fun sound _ => sound.tooDeep_of_withNestedDimensions,
    fun _ _ lifted => ?_⟩ fun dimensions _ lifted => ?_
  all_goals obtain ⟨-, rfl⟩ := lift_ok lifted
  · exact .of_output rfl
  refine .bind (.uniqueName _ _) fun name s₂ named => ?_
  have answer := uniqueName_answered named fun _ h => nomatch h
  refine .store free (List.mem_singleton_self _) (Trans.trans asks answer.toOnlyNames.asks)
    answer.known (fun new => Output.Shelf.perspectives.exists_insert new) fun o made n hn => ?_
  obtain ⟨rfl, -⟩ := Output.addPerspective_ok made
  exact NamedMap.mem_names_insert.1 hn

theorem Safe.resolvePerspectives
    (distinct : (source.model.perspectives.map fun p => lower p.name).Nodup)
    (before : Dimensioned source classes s) (none : s.output.perspectives = []) :
    Safe source.Deep (resolvePerspectives source) s ∧
      ∀ u s', (Conversion.resolvePerspectives source).run s = .ok (u, s') →
        Dimensioned source classes s' := by
  have keys : (source.model.perspectives.flatMap fun p => [Key.perspective p.name]).Nodup := by
    rw [← List.map_eq_flatMap]
    refine List.pairwise_map.2 ((List.pairwise_map.1 distinct).imp fun differ same => differ ?_)
    exact Key.perspective_inj same
  have nothing : s.output.perspectiveNames = [] := by
    rw [Output.perspectiveNames, none]
    rfl
  have kept {p : Tabular.Perspective} {s₁ s₂ : State} {r : ForInStep PUnit}
      (before : Dimensioned source classes s₁) (turn : (do
        resolvePerspective source p
        return .yield ⟨⟩ : Run (ForInStep PUnit)).run s₁ = .ok (r, s₂)) :
      Dimensioned source classes s₂ := by
    obtain ⟨_, s₃, resolved, turn⟩ := bind_ok turn
    obtain ⟨-, rfl⟩ := pure_ok turn
    exact before.mono (.resolvePerspective before resolved)
  constructor
  · refine Safe.bind (Adds.safe (.forIn (P := Dimensioned source classes) keys
      (fun p _ s₁ before free => ⟨?_, fun _ s₂ => kept before⟩) before
      fun key _ => .of_nil nothing before.registry)) fun _ s' _ => (Light.pure _).safe s'
    exact .bind (.resolvePerspective before (free _ (List.mem_singleton_self _))) fun _ _ _ =>
      .light (.pure _) _
  · intro _ s' ran
    obtain ⟨_, s₁, loop, ran⟩ := bind_ok ran
    obtain ⟨-, rfl⟩ := pure_ok ran
    exact forIn_ok (P := Dimensioned source classes) before
      (fun _ _ _ _ _ turn before => kept before turn) loop

end Perspectives

theorem Safe.assembleModel {label : String} (before : Dimensioned source classes s) :
    Safe source.Deep (assembleModel source label) s := by
  refine (Safe.uniqueName _ s).bind fun name s₁ named => ?_
  have answer := uniqueName_answered named fun _ h => nomatch h
  refine .get_bind ?_
  refine (before.safe_lift answer.toOnlyNames.asks fun sound e failed => ?_).bind
    fun exposed s₂ _ => ((Light.log _).safe s₂).bind fun _ s₃ _ => (Light.pure _).safe s₃
  refine sound.tooDeep_of_modelDimensions ?_
  rwa [modelDimensions, answer.output] at failed

end Conversion

end SemanticLayer
