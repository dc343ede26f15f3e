import SemanticLayer.Proofs.Conversion.Output

set_option autoImplicit false

/-!
Additions to a result, one after the other, some of which may fail.

A procedure that fails leaves what it has written so far. None of the additions writes anything
before the last thing that may fail, so a failure leaves the result as it was. The names in a result
stay in order along every such run.
-/
namespace SemanticLayer.Output

/-- Every key is the name of its object, and objects are known by names of their own. -/
structure Keyed {A : Type} {name : A → String} (m : NamedMap name) : Prop where
  keys : m.keys = m.values.map name
  nodup : m.keys.Nodup
  find? : ∀ key item, m.values.find? (name · == key) = some item ↔ item ∈ m.values ∧ name item = key

theorem keyed_of_nodup {A : Type} {name : A → String} {m : NamedMap name}
    (nodup : (m.values.map name).Nodup) : Keyed m :=
  ⟨m.keyed, m.keyed ▸ nodup, fun _ _ => find?_eq_some_iff_of_nodup nodup⟩

def nestedJoins (o : Output) : List Relationship := o.dimensions.flatMap (·.relationships)

/-- The names in a result are in order. -/
structure Coherent (o : Output) : Prop where
  connections : Keyed o.connectionMap
  datasets : Keyed o.datasetMap
  metrics : Keyed o.metricMap
  metricCalcs : Keyed o.metricCalcMap
  dimensions : Keyed o.dimensionMap
  relationships : Keyed o.relationshipMap
  perspectives : Keyed o.perspectiveMap
  nested : (o.nestedJoins.map (·.uniqueName)).Nodup
  /-- The names of the nested joins are noted once each, and no others are. -/
  embedded : o.embedded.Perm (o.nestedJoins.map (·.uniqueName))
  apart : ∀ r ∈ o.relationships, r.uniqueName ∉ o.embedded

def taken (kind : Identifier.Kind) (names : List String) (name : String) :
    Option ConversionError :=
  if name ∈ names then some (.duplicate kind name) else none

/-- Something to add to a result. Dimensions come without joins of their own. -/
inductive Addition where
  | connection (c : Connection)
  | dataset (d : Dataset)
  | metric (m : Metric)
  | metricCalc (m : MetricCalc)
  | dimension (d : Dimension) (plain : d.relationships = [])
  | perspective (p : Perspective)
  | join (r : Relationship)
  | nestedJoin (owner : String) (r : Relationship)

namespace Addition

def apply (o : Output) : Addition → Except ConversionError Output
  | connection c => o.addConnection c
  | dataset d => o.addDataset d
  | metric m => o.addMetric m
  | metricCalc m => o.addMetricCalc m
  | dimension d _ => o.addDimension d
  | perspective p => o.addPerspective p
  | join r => o.addJoin r
  | nestedJoin owner r => o.addNestedJoin owner r

def write : Addition → Writing Unit
  | connection c => Shelf.connections.insert c
  | dataset d => Shelf.datasets.insert d
  | metric m => Shelf.metrics.insert m
  | metricCalc m => Shelf.metricCalcs.insert m
  | dimension d _ => Shelf.dimensions.insert d
  | perspective p => Shelf.perspectives.insert p
  | join r => insertJoin r
  | nestedJoin owner r => insertNestedJoin owner r

/-- Why an addition is refused: its name is taken by an object of its kind, where all joins are one
kind, or there is no dimension to put it on. -/
def refusal? (o : Output) : Addition → Option ConversionError
  | connection c => taken .connection (o.connections.map (·.uniqueName)) c.uniqueName
  | dataset d => taken .dataset (o.datasets.map (·.uniqueName)) d.uniqueName
  | metric m => taken .metric (o.metrics.map (·.uniqueName)) m.uniqueName
  | metricCalc m => taken .metricCalc (o.metricCalcs.map (·.uniqueName)) m.uniqueName
  | dimension d _ => taken .dimension (o.dimensions.map (·.uniqueName)) d.uniqueName
  | perspective p => taken .perspective (o.perspectives.map (·.uniqueName)) p.uniqueName
  | join r => taken .relationship (o.allJoins.map (·.uniqueName)) r.uniqueName
  | nestedJoin owner r =>
    (taken .relationship (o.allJoins.map (·.uniqueName)) r.uniqueName).or
      (if owner ∈ o.dimensions.map (·.uniqueName) then none else some (.missing .dimension owner))

def Appends (o o' : Output) : Addition → Prop
  | connection c => o' = { o with connectionMap := o.connectionMap.insert c }
  | dataset d => o' = { o with datasetMap := o.datasetMap.insert d }
  | metric m => o' = { o with metricMap := o.metricMap.insert m }
  | metricCalc m => o' = { o with metricCalcMap := o.metricCalcMap.insert m }
  | dimension d _ => o' = { o with dimensionMap := o.dimensionMap.insert d }
  | perspective p => o' = { o with perspectiveMap := o.perspectiveMap.insert p }
  | join r => o' = { o with relationshipMap := o.relationshipMap.insert r }
  | nestedJoin owner r => ∃ before d after, o.dimensions = before ++ d :: after ∧
      d.uniqueName = owner ∧
      o'.dimensions = before ++ { d with relationships := d.relationships ++ [r] } :: after ∧
      o'.dimensionMap.keys = o.dimensionMap.keys ∧
      o' = { o with
        dimensionMap := o'.dimensionMap
        embedded := o.embedded ++ [r.uniqueName] }

theorem apply_eq (a : Addition) (o : Output) : a.apply o = a.write.result o := by
  cases a <;> rfl

end Addition

/-- A result with distinct names that notes exactly the names of its nested joins. -/
structure Noted (o : Output) : Prop extends Distinct o where
  noted : o.embedded.Perm (o.nestedJoins.map (·.uniqueName))

namespace Noted

variable {o o' : Output}

theorem empty : Noted {} where
  connections := List.nodup_nil
  datasets := List.nodup_nil
  metrics := List.nodup_nil
  metricCalcs := List.nodup_nil
  dimensions := List.nodup_nil
  perspectives := List.nodup_nil
  joins := List.nodup_nil
  embedded _ hd := (List.not_mem_nil hd).elim
  noted := List.Perm.refl []

theorem dimension {d : Dimension} (h : Noted o) (plain : d.relationships = [])
    (added : o.addDimension d = .ok o') : Noted o' := by
  obtain ⟨rfl, distinct⟩ := addDimension_ok added plain
  have same : ({ o with dimensionMap := o.dimensionMap.insert d } : Output).nestedJoins =
      o.nestedJoins := nested_insert plain
  refine ⟨distinct h.toDistinct, ?_⟩
  rw [same]
  exact h.noted

theorem nestedJoin {owner : String} {r : Relationship} (h : Noted o)
    (added : o.addNestedJoin owner r = .ok o') : Noted o' := by
  obtain ⟨rfl, found, distinct⟩ := addNestedJoin_ok added
  refine ⟨distinct h.toDistinct, ?_⟩
  have joined := (perm_withJoin h.dimensions found r).map (·.uniqueName)
  rw [List.map_append] at joined
  exact (h.noted.append_right [r.uniqueName]).trans joined.symm

theorem apply {a : Addition} (h : Noted o) (added : a.apply o = .ok o') : Noted o' := by
  cases a with
  | connection c =>
    obtain ⟨rfl, distinct⟩ := addConnection_ok added
    exact ⟨distinct h.toDistinct, h.noted⟩
  | dataset d =>
    obtain ⟨rfl, distinct⟩ := addDataset_ok added
    exact ⟨distinct h.toDistinct, h.noted⟩
  | metric m =>
    obtain ⟨rfl, distinct⟩ := addMetric_ok added
    exact ⟨distinct h.toDistinct, h.noted⟩
  | metricCalc m =>
    obtain ⟨rfl, distinct⟩ := addMetricCalc_ok added
    exact ⟨distinct h.toDistinct, h.noted⟩
  | dimension d plain => exact h.dimension plain added
  | perspective p =>
    obtain ⟨rfl, distinct⟩ := addPerspective_ok added
    exact ⟨distinct h.toDistinct, h.noted⟩
  | join r =>
    obtain ⟨rfl, distinct⟩ := addJoin_ok added
    exact ⟨distinct h.toDistinct, h.noted⟩
  | nestedJoin owner r => exact h.nestedJoin added

theorem coherent (h : Noted o) : Coherent o := by
  have parts : (o.relationships.map (·.uniqueName) ++ o.nestedJoins.map (·.uniqueName)).Nodup := by
    rw [← List.map_append]
    exact h.joins
  obtain ⟨own, nested, apart⟩ := List.nodup_append.1 parts
  exact {
    connections := keyed_of_nodup h.connections
    datasets := keyed_of_nodup h.datasets
    metrics := keyed_of_nodup h.metrics
    metricCalcs := keyed_of_nodup h.metricCalcs
    dimensions := keyed_of_nodup h.dimensions
    relationships := keyed_of_nodup own
    perspectives := keyed_of_nodup h.perspectives
    nested
    embedded := h.noted
    apart := fun r hr noted =>
      apart _ (List.mem_map_of_mem hr) _ (h.noted.mem_iff.1 noted) rfl }

theorem holdsJoin_iff (h : Noted o) (name : String) :
    o.holdsJoin name = true ↔ name ∈ o.allJoins.map (·.uniqueName) := by
  rw [allJoins, List.map_append, List.mem_append, holdsJoin, Bool.or_eq_true,
    NamedMap.contains_iff, List.contains_iff_mem, h.noted.mem_iff]
  rfl

end Noted

section Answers

variable {o : Output}

/-- An addition gives its reason and changes nothing, or gives none and appends its object. -/
def Answers (o : Output) (a : Addition) : Prop :=
  match a.refusal? o with
  | some e => a.write.run o = .error e o
  | none => ∃ o', a.write.run o = .ok () o' ∧ a.Appends o o'

theorem Shelf.insert_answers {A : Type} {name : A → String} (shelf : Shelf name) (o : Output)
    (item : A) : match taken shelf.kind ((shelf.map o).values.map name) (name item) with
    | some e => (shelf.insert item).run o = .error e o
    | none => ∃ o', (shelf.insert item).run o = .ok () o' ∧
        o' = shelf.put ((shelf.map o).insert item) o := by
  rw [shelf.run_insert, taken]
  by_cases found : name item ∈ (shelf.map o).values.map name
  · rw [if_pos found, if_pos found]
  · rw [if_neg found, if_neg found]
    exact ⟨_, rfl, rfl⟩

theorem Noted.join_answers (h : Noted o) (r : Relationship) : Answers o (.join r) := by
  rw [Answers, Addition.write, run_insertJoin, Addition.refusal?, taken]
  by_cases found : r.uniqueName ∈ o.allJoins.map (·.uniqueName)
  · rw [if_pos found, if_pos ((h.holdsJoin_iff _).2 found)]
  · rw [if_neg found, if_neg (mt (h.holdsJoin_iff _).1 found)]
    exact ⟨_, rfl, rfl⟩

theorem Noted.nestedJoin_answers (h : Noted o) (owner : String) (r : Relationship) :
    Answers o (.nestedJoin owner r) := by
  rw [Answers, Addition.write, run_insertNestedJoin, Addition.refusal?, taken]
  by_cases found : r.uniqueName ∈ o.allJoins.map (·.uniqueName)
  · rw [if_pos found, if_pos ((h.holdsJoin_iff _).2 found)]
    rfl
  · rw [if_neg found, if_neg (mt (h.holdsJoin_iff _).1 found), Option.none_or]
    by_cases known : owner ∈ o.dimensions.map (·.uniqueName)
    · rw [if_pos known, if_pos (hasDimension_iff.2 known)]
      obtain ⟨before, d, after, split, same, joined⟩ := split_withJoin h.dimensions known r
      exact ⟨_, rfl, before, d, after, split, same, joined, rfl, rfl⟩
    · rw [if_neg known, if_neg (mt hasDimension_iff.1 known)]

theorem Noted.answers (h : Noted o) (a : Addition) : Answers o a := by
  cases a with
  | connection c => exact Shelf.connections.insert_answers o c
  | dataset d => exact Shelf.datasets.insert_answers o d
  | metric m => exact Shelf.metrics.insert_answers o m
  | metricCalc m => exact Shelf.metricCalcs.insert_answers o m
  | dimension d => exact Shelf.dimensions.insert_answers o d
  | perspective p => exact Shelf.perspectives.insert_answers o p
  | join r => exact h.join_answers r
  | nestedJoin owner r => exact h.nestedJoin_answers owner r

end Answers

/-- What an addition leaves behind, whether or not it fails. -/
def Addition.left (a : Addition) (o : Output) : Output :=
  match a.write.run o with
  | .ok _ o' => o'
  | .error _ o' => o'

def after (additions : List Addition) : Output := additions.foldl (fun o a => a.left o) {}

theorem Noted.left {o : Output} (h : Noted o) (a : Addition) : Noted (a.left o) := by
  have answers := h.answers a
  rw [Addition.left]
  rw [Answers] at answers
  cases refused : a.refusal? o with
  | some e =>
    rw [refused] at answers
    rwa [answers]
  | none =>
    rw [refused] at answers
    obtain ⟨o', written, -⟩ := answers
    rw [written]
    exact h.apply ((a.apply_eq o).trans (Writing.result_eq_ok_iff.2 written))

theorem noted_after (additions : List Addition) : Noted (after additions) := by
  have general {o : Output} (h : Noted o) : Noted (additions.foldl (fun o a => a.left o) o) := by
    induction additions generalizing o with
    | nil => exact h
    | cons a rest ih => exact ih (h.left a)
  exact general Noted.empty

/-- Whatever was added before, and whether or not it failed, the names in a result are in order. An
addition that is refused leaves the result as it was, and any other one puts exactly its object at
the end of its list. -/
theorem additions_atomic (earlier : List Addition) :
    let o := after earlier
    o.Coherent ∧ ∀ a : Addition,
      match a.refusal? o with
      | some e => a.apply o = .error e ∧ a.write.run o = .error e o
      | none => ∃ o', a.apply o = .ok o' ∧ a.write.run o = .ok () o' ∧ a.Appends o o' := by
  intro o
  have h : Noted o := noted_after earlier
  refine ⟨h.coherent, fun a => ?_⟩
  have answers := h.answers a
  rw [Answers] at answers
  rw [a.apply_eq, Writing.result]
  cases refused : a.refusal? o with
  | some e =>
    rw [refused] at answers
    exact ⟨by rw [answers], answers⟩
  | none =>
    rw [refused] at answers
    obtain ⟨o', written, appends⟩ := answers
    exact ⟨o', by rw [written], written, appends⟩

end SemanticLayer.Output
