import Mathlib.Data.List.Nodup
import SemanticLayer.Conversion.Output

set_option autoImplicit false

namespace SemanticLayer

theorem find?_eq_some_iff_of_nodup {A B : Type} [BEq B] [LawfulBEq B] {f : A → B} {xs : List A}
    (once : (xs.map f).Nodup) {key : B} {x : A} :
    xs.find? (f · == key) = some x ↔ x ∈ xs ∧ f x = key := by
  have keyed {y : A} (found : xs.find? (f · == key) = some y) : y ∈ xs ∧ f y = key :=
    ⟨List.mem_of_find?_eq_some found, eq_of_beq (List.find?_some (p := (f · == key)) found)⟩
  refine ⟨keyed, fun ⟨hx, same⟩ => ?_⟩
  obtain ⟨y, found⟩ := Option.isSome_iff_exists.1
    (List.find?_isSome (p := (f · == key)).2 ⟨x, hx, beq_iff_eq.2 same⟩)
  obtain ⟨hy, same'⟩ := keyed found
  rw [found, List.inj_on_of_nodup_map once hy hx (same'.trans same.symm)]

namespace NamedMap

variable {A : Type} {name : A → String} {m : NamedMap name}

theorem contains_iff {key : String} : m.contains key = true ↔ key ∈ m.values.map name := by
  rw [contains, List.contains_iff_mem, m.keyed]

theorem mem_names_insert {item : A} {n : String} :
    n ∈ (m.insert item).values.map name ↔ n ∈ m.values.map name ∨ n = name item := by
  rw [List.map_append, List.map_singleton, List.mem_append, List.mem_singleton]

theorem nodup_insert {item : A} (h : (m.values.map name).Nodup)
    (new : name item ∉ m.values.map name) : ((m.insert item).values.map name).Nodup := by
  rw [List.map_append, List.map_singleton, ← List.concat_eq_append]
  exact List.Nodup.concat new h

end NamedMap

namespace Output

def measureNames (o : Output) : List String :=
  o.metrics.map (·.uniqueName) ++ o.metricCalcs.map (·.uniqueName)

theorem measureNames_insert (o : Output) (m : Metric) : o.measureNames ⊆
    ({ o with metricMap := o.metricMap.insert m } : Output).measureNames := fun n hn => by
  rcases List.mem_append.1 hn with metric | computed
  · exact List.mem_append_left _ (NamedMap.mem_names_insert.2 (Or.inl metric))
  · exact List.mem_append_right _ computed

def allJoins (o : Output) : List Relationship :=
  o.relationships ++ o.dimensions.flatMap (·.relationships)

structure Distinct (o : Output) : Prop where
  connections : (o.connections.map (·.uniqueName)).Nodup
  datasets : (o.datasets.map (·.uniqueName)).Nodup
  metrics : (o.metrics.map (·.uniqueName)).Nodup
  metricCalcs : (o.metricCalcs.map (·.uniqueName)).Nodup
  dimensions : (o.dimensions.map (·.uniqueName)).Nodup
  perspectives : (o.perspectives.map (·.uniqueName)).Nodup
  joins : (o.allJoins.map (·.uniqueName)).Nodup
  embedded : ∀ d ∈ o.dimensions, ∀ r ∈ d.relationships, r.uniqueName ∈ o.embedded

variable {o o' : Output}

theorem Shelf.run_insert {A : Type} {name : A → String} (shelf : Shelf name) (item : A)
    (o : Output) : (shelf.insert item).run o =
      if name item ∈ (shelf.map o).values.map name then
        .error (.duplicate shelf.kind (name item)) o
      else .ok () (shelf.put ((shelf.map o).insert item) o) := by
  rw [insert]
  simp only [EStateM.run_bind, EStateM.run_get, NamedMap.contains_iff]
  split <;> rfl

theorem Writing.result_eq_ok_iff {w : Writing Unit} :
    w.result o = .ok o' ↔ w.run o = .ok () o' := by
  rw [result]
  cases w.run o <;> simp

theorem Shelf.insert_ok {A : Type} {name : A → String} {shelf : Shelf name} {item : A}
    (h : (shelf.insert item).result o = .ok o') :
    name item ∉ (shelf.map o).values.map name ∧ shelf.put ((shelf.map o).insert item) o = o' := by
  rw [Writing.result_eq_ok_iff, Shelf.run_insert] at h
  split at h
  · cases h
  · cases h
    exact ⟨‹_›, rfl⟩

theorem addConnection_ok {c : Connection} (h : o.addConnection c = .ok o') :
    { o with connectionMap := o.connectionMap.insert c } = o' ∧ (o.Distinct → o'.Distinct) := by
  obtain ⟨new, rfl⟩ := Shelf.insert_ok h
  exact ⟨rfl, fun distinct => { distinct with
    connections := NamedMap.nodup_insert distinct.connections new }⟩

theorem addDataset_ok {d : Dataset} (h : o.addDataset d = .ok o') :
    { o with datasetMap := o.datasetMap.insert d } = o' ∧ (o.Distinct → o'.Distinct) := by
  obtain ⟨new, rfl⟩ := Shelf.insert_ok h
  exact ⟨rfl, fun distinct => { distinct with
    datasets := NamedMap.nodup_insert distinct.datasets new }⟩

theorem addMetric_ok {m : Metric} (h : o.addMetric m = .ok o') :
    { o with metricMap := o.metricMap.insert m } = o' ∧ (o.Distinct → o'.Distinct) := by
  obtain ⟨new, rfl⟩ := Shelf.insert_ok h
  exact ⟨rfl, fun distinct => { distinct with
    metrics := NamedMap.nodup_insert distinct.metrics new }⟩

theorem addMetricCalc_ok {m : MetricCalc} (h : o.addMetricCalc m = .ok o') :
    { o with metricCalcMap := o.metricCalcMap.insert m } = o' ∧
      (o.Distinct → o'.Distinct) := by
  obtain ⟨new, rfl⟩ := Shelf.insert_ok h
  exact ⟨rfl, fun distinct => { distinct with
    metricCalcs := NamedMap.nodup_insert distinct.metricCalcs new }⟩

theorem addPerspective_ok {p : Perspective} (h : o.addPerspective p = .ok o') :
    { o with perspectiveMap := o.perspectiveMap.insert p } = o' ∧
      (o.Distinct → o'.Distinct) := by
  obtain ⟨new, rfl⟩ := Shelf.insert_ok h
  exact ⟨rfl, fun distinct => { distinct with
    perspectives := NamedMap.nodup_insert distinct.perspectives new }⟩

theorem nested_insert {m : NamedMap Dimension.uniqueName} {d : Dimension}
    (plain : d.relationships = []) :
    (m.insert d).values.flatMap (·.relationships) = m.values.flatMap (·.relationships) := by
  rw [List.flatMap_append, List.flatMap_singleton, plain, List.append_nil]

theorem allJoins_insert (o : Output) {d : Dimension} (plain : d.relationships = []) :
    ({ o with dimensionMap := o.dimensionMap.insert d } : Output).allJoins = o.allJoins :=
  congrArg (o.relationships ++ ·) (nested_insert plain)

theorem addDimension_ok {d : Dimension} (h : o.addDimension d = .ok o')
    (plain : d.relationships = []) :
    { o with dimensionMap := o.dimensionMap.insert d } = o' ∧ (o.Distinct → o'.Distinct) := by
  obtain ⟨new, rfl⟩ := Shelf.insert_ok h
  refine ⟨rfl, fun distinct => { distinct with
    dimensions := NamedMap.nodup_insert distinct.dimensions new
    joins := ?_
    embedded := fun e he r hr => ?_ }⟩
  · exact (allJoins_insert o plain).symm ▸ distinct.joins
  · rcases List.mem_append.1 he with old | new
    · exact distinct.embedded e old r hr
    · rw [List.mem_singleton.1 new, plain] at hr
      cases hr

theorem notMem_of_not_holdsJoin {name : String} (h : ¬o.holdsJoin name = true)
    (distinct : o.Distinct) : name ∉ o.allJoins.map (·.uniqueName) ∧ name ∉ o.embedded := by
  rw [holdsJoin, Bool.or_eq_true, NamedMap.contains_iff, List.contains_iff_mem, not_or] at h
  refine ⟨fun found => ?_, h.2⟩
  obtain ⟨r, hr, rfl⟩ := List.mem_map.1 found
  rcases List.mem_append.1 hr with own | nested
  · exact h.1 (List.mem_map_of_mem own)
  · obtain ⟨d, hd, inside⟩ := List.mem_flatMap.1 nested
    exact h.2 (distinct.embedded d hd r inside)

theorem run_insertJoin (r : Relationship) (o : Output) : (insertJoin r).run o =
    if o.holdsJoin r.uniqueName then .error (.duplicate .relationship r.uniqueName) o
    else .ok () { o with relationshipMap := o.relationshipMap.insert r } := by
  simp only [insertJoin, EStateM.run_bind, EStateM.run_get]
  split <;> rfl

theorem addJoin_ok {r : Relationship} (h : o.addJoin r = .ok o') :
    { o with relationshipMap := o.relationshipMap.insert r } = o' ∧
      (o.Distinct → o'.Distinct) := by
  rw [addJoin, Writing.result_eq_ok_iff, run_insertJoin] at h
  split at h
  · cases h
  · rename_i free
    cases h
    have perm : (o.relationships ++ [r] ++ o.dimensions.flatMap (·.relationships)).Perm
        (o.allJoins ++ [r]) := by
      rw [allJoins, List.append_assoc, List.append_assoc]
      exact List.Perm.append_left _ List.perm_append_comm
    refine ⟨rfl, fun distinct => { distinct with joins := ((perm.map _).nodup_iff).2 ?_ }⟩
    rw [List.map_append, List.map_singleton, ← List.concat_eq_append]
    exact List.Nodup.concat (notMem_of_not_holdsJoin free distinct).1 distinct.joins

theorem withJoin_shape (owner : String) (r : Relationship) (d : Dimension) :
    (withJoin owner r d).uniqueName = d.uniqueName ∧ (withJoin owner r d).label = d.label ∧
      (withJoin owner r d).hierarchies = d.hierarchies ∧
      (withJoin owner r d).levelAttributes = d.levelAttributes := by
  unfold withJoin
  split <;> exact ⟨rfl, rfl, rfl, rfl⟩

theorem map_withJoin_of_notMem {owner : String} {dimensions : List Dimension}
    (h : owner ∉ dimensions.map (·.uniqueName)) (r : Relationship) :
    dimensions.map (withJoin owner r) = dimensions := by
  refine (List.map_congr_left fun d hd => ?_).trans (List.map_id dimensions)
  have other : ¬(d.uniqueName == owner) = true := fun same =>
    h (eq_of_beq same ▸ List.mem_map_of_mem hd)
  exact if_neg other

theorem split_withJoin {owner : String} {dimensions : List Dimension}
    (distinct : (dimensions.map (·.uniqueName)).Nodup)
    (found : owner ∈ dimensions.map (·.uniqueName)) (r : Relationship) :
    ∃ before d after, dimensions = before ++ d :: after ∧ d.uniqueName = owner ∧
      dimensions.map (withJoin owner r) =
        before ++ { d with relationships := d.relationships ++ [r] } :: after := by
  obtain ⟨d, hd, rfl⟩ := List.mem_map.1 found
  obtain ⟨before, after, rfl⟩ := List.append_of_mem hd
  rw [List.map_append, List.map_cons] at distinct
  obtain ⟨-, later, apart⟩ := List.nodup_append.1 distinct
  have unlike : d.uniqueName ∉ before.map (·.uniqueName) := fun early =>
    apart _ early _ List.mem_cons_self rfl
  refine ⟨before, d, after, rfl, rfl, ?_⟩
  rw [List.map_append, List.map_cons, map_withJoin_of_notMem unlike,
    map_withJoin_of_notMem (List.nodup_cons.1 later).1, withJoin, if_pos (beq_iff_eq.2 rfl)]

theorem perm_withJoin {owner : String} {dimensions : List Dimension}
    (distinct : (dimensions.map (·.uniqueName)).Nodup)
    (found : owner ∈ dimensions.map (·.uniqueName)) (r : Relationship) :
    ((dimensions.map (withJoin owner r)).flatMap (·.relationships)).Perm
      (dimensions.flatMap (·.relationships) ++ [r]) := by
  obtain ⟨before, d, after, rfl, -, joined⟩ := split_withJoin distinct found r
  rw [joined]
  simp only [List.flatMap_append, List.flatMap_cons, List.append_assoc]
  exact (List.perm_append_comm.append_left d.relationships).append_left _

theorem hasDimension_iff {name : String} :
    o.hasDimension name = true ↔ name ∈ o.dimensions.map (·.uniqueName) :=
  NamedMap.contains_iff

abbrev nest (o : Output) (owner : String) (r : Relationship) : Output :=
  { o with
    dimensionMap := o.dimensionMap.mapValues (withJoin owner r) (uniqueName_withJoin owner r)
    embedded := o.embedded ++ [r.uniqueName] }

theorem run_insertNestedJoin (owner : String) (r : Relationship) (o : Output) :
    (insertNestedJoin owner r).run o =
      if o.holdsJoin r.uniqueName then .error (.duplicate .relationship r.uniqueName) o
      else if o.hasDimension owner then .ok () (o.nest owner r)
      else .error (.missing .dimension owner) o := by
  simp only [insertNestedJoin, EStateM.run_bind, EStateM.run_get]
  split
  · rfl
  · split <;> rfl

theorem addNestedJoin_ok {owner : String} {r : Relationship}
    (h : o.addNestedJoin owner r = .ok o') :
    o.nest owner r = o' ∧
      owner ∈ o.dimensions.map (·.uniqueName) ∧ (o.Distinct → o'.Distinct) := by
  rw [addNestedJoin, Writing.result_eq_ok_iff, run_insertNestedJoin] at h
  split at h
  · cases h
  rename_i free
  split at h
  · rename_i known
    cases h
    have found := hasDimension_iff.1 known
    have perm (names : (o.dimensions.map (·.uniqueName)).Nodup) : (o.relationships ++
        (o.dimensions.map (withJoin owner r)).flatMap (·.relationships)).Perm
          (o.allJoins ++ [r]) := by
      rw [allJoins, List.append_assoc]
      exact List.Perm.append_left _ (perm_withJoin names found r)
    refine ⟨rfl, found, fun distinct => { distinct with
      dimensions := ?_
      joins := (((perm distinct.dimensions).map _).nodup_iff).2 ?_
      embedded := fun d' hd' q hq => ?_ }⟩
    · have names : (o.dimensions.map (withJoin owner r)).map (·.uniqueName) =
          o.dimensions.map (·.uniqueName) := by
        rw [List.map_map]
        exact List.map_congr_left fun d _ => (withJoin_shape owner r d).1
      exact names ▸ distinct.dimensions
    · rw [List.map_append, List.map_singleton, ← List.concat_eq_append]
      exact List.Nodup.concat (notMem_of_not_holdsJoin free distinct).1 distinct.joins
    · obtain ⟨d, hd, rfl⟩ := List.mem_map.1 hd'
      change q ∈ (withJoin owner r d).relationships at hq
      unfold withJoin at hq
      split at hq
      · rcases List.mem_append.1 hq with old | new
        · exact List.mem_append_left _ (distinct.embedded d hd q old)
        · rw [List.mem_singleton.1 new]
          exact List.mem_append_right _ (List.mem_singleton_self _)
      · exact List.mem_append_left _ (distinct.embedded d hd q hq)
  · cases h

end Output

end SemanticLayer
