import Mathlib.Data.List.Perm.Basic
import SemanticLayer.Proofs.Conversion.Reachable
import SemanticLayer.Proofs.Tabular.Classification

set_option autoImplicit false

/-!
The dimensions of a model. What is in the list already is not looked up again, though it may have
come there as nested in something else. It came with all that is nested in it, so what is skipped
would add nothing: the list is the same as if every target were looked up, in any order.
-/
namespace SemanticLayer.Conversion

open Relation (ReflTransGen TransGen)

variable {dimensions : List Dimension} {maxDepth : Nat} {targets found : List String}

/-- A list of these targets and of whatever is nested in them, each once. -/
structure Exposes (dimensions : List Dimension) (targets found : List String) : Prop where
  once : found.Nodup
  mem : ∀ name, name ∈ found ↔ ∃ target ∈ targets, ReflTransGen (Nests dimensions) target name

namespace Exposes

theorem nil (dimensions : List Dimension) : Exposes dimensions [] [] :=
  ⟨List.nodup_nil, by simp⟩

theorem mem_concat (h : Exposes dimensions targets found) {target name : String} :
    (∃ t ∈ targets ++ [target], ReflTransGen (Nests dimensions) t name) ↔
      name ∈ found ∨ ReflTransGen (Nests dimensions) target name := by
  rw [h.mem name]
  simp [or_and_right, exists_or]

theorem skip (h : Exposes dimensions targets found) {target : String} (old : target ∈ found) :
    Exposes dimensions (targets ++ [target]) found := by
  refine ⟨h.once, fun name => ?_⟩
  rw [h.mem_concat]
  refine ⟨Or.inl, fun either => either.elim id fun rest => ?_⟩
  obtain ⟨t, ht, path⟩ := (h.mem target).1 old
  exact (h.mem name).2 ⟨t, ht, path.trans rest⟩

theorem expand (h : Exposes dimensions targets found) {target : String} {reached : List String}
    (search : reachableFrom (.ofDimensions dimensions) maxDepth target = .ok reached) :
    Exposes dimensions (targets ++ [target])
      (reached.foldl insertName (insertName found target)) := by
  refine ⟨nodup_foldl_insertName (nodup_insertName h.once target), fun name => ?_⟩
  rw [h.mem_concat, mem_foldl_insertName, mem_insertName, or_assoc, mem_reachableFrom search]

theorem perm {targets' found' : List String} (h : Exposes dimensions targets found)
    (h' : Exposes dimensions targets' found') (same : targets.Perm targets') :
    found.Perm found' := by
  refine (List.perm_ext_iff_of_nodup h.once h'.once).2 fun name => ?_
  rw [h.mem, h'.mem]
  exact exists_congr fun target => and_congr_left' same.mem_iff

end Exposes

theorem exposes_of_exposedDimensions
    (h : exposedDimensions (.ofDimensions dimensions) maxDepth targets = .ok found) :
    Exposes dimensions targets found := by
  refine foldlM_except_steps (P := Exposes dimensions) (.nil dimensions)
    (fun done target _ _ found next turn known => ?_) h
  split at turn
  · rename_i old
    cases turn
    exact known.skip (List.contains_iff_mem.1 old)
  · rename_i new
    obtain ⟨reached, search, rfl⟩ := map_except_ok turn
    have grown := known.expand search
    rwa [insertName, if_neg new] at grown

def expandedDimensions (graph : DimensionGraph) (maxDepth : Nat) (targets : List String) :
    Except ConversionError (List String) :=
  targets.foldlM (fun found target =>
    (reachableFrom graph maxDepth target).map fun reached =>
      reached.foldl insertName (insertName found target)) []

theorem exposes_of_expandedDimensions
    (h : expandedDimensions (.ofDimensions dimensions) maxDepth targets = .ok found) :
    Exposes dimensions targets found := by
  refine foldlM_except_steps (P := Exposes dimensions) (.nil dimensions)
    (fun done target _ _ found next turn known => ?_) h
  obtain ⟨reached, search, rfl⟩ := map_except_ok turn
  exact known.expand search

section Room

variable (few : (DimensionGraph.ofDimensions dimensions).nodes.length ≤ maxDepth)
include few

theorem exists_exposedDimensions (targets : List String) :
    ∃ found, exposedDimensions (.ofDimensions dimensions) maxDepth targets = .ok found := by
  cases exposed : exposedDimensions (.ofDimensions dimensions) maxDepth targets with
  | ok found => exact ⟨found, rfl⟩
  | error e =>
    obtain ⟨target, -, found, failed⟩ := foldlM_except_error exposed
    obtain ⟨reached, search⟩ := exists_reachableFrom few target
    split at failed
    · cases failed
    · cases search.symm.trans (map_except_error failed)

theorem exists_expandedDimensions (targets : List String) :
    ∃ found, expandedDimensions (.ofDimensions dimensions) maxDepth targets = .ok found := by
  cases expanded : expandedDimensions (.ofDimensions dimensions) maxDepth targets with
  | ok found => exact ⟨found, rfl⟩
  | error e =>
    obtain ⟨target, -, found, failed⟩ := foldlM_except_error expanded
    obtain ⟨reached, search⟩ := exists_reachableFrom few target
    cases search.symm.trans (map_except_error failed)

end Room

def State.joinTargets (s : State) : List String := s.output.relationships.map (·.target.dimension)

variable {source : Source} {s : State}

/-- The dimensions of a model are those that its joins lead to and those nested in these, each once.
The same are found if every target is looked up, and the same from the joins in any other order. The
searches compared are those that give a result: a limit may end one of them, but a limit as large as
the graph ends none. -/
theorem modelDimensions_exact {exposed : List String}
    (h : modelDimensions source s = .ok exposed) :
    exposed.Nodup ∧
      (∀ name, name ∈ exposed ↔ ∃ r ∈ s.output.relationships,
        name = r.target.dimension ∨
          TransGen (Nests s.output.dimensions) r.target.dimension name) ∧
      (∀ maxDepth,
        (∀ all, expandedDimensions (.ofDimensions s.output.dimensions) maxDepth s.joinTargets =
          .ok all → all.Perm exposed) ∧
        ((DimensionGraph.ofDimensions s.output.dimensions).nodes.length ≤ maxDepth → ∃ all,
          expandedDimensions (.ofDimensions s.output.dimensions) maxDepth s.joinTargets =
            .ok all)) ∧
      ∀ (source' : Source) (s' : State), s'.output.dimensions = s.output.dimensions →
        s'.output.relationships.Perm s.output.relationships →
          (∀ exposed', modelDimensions source' s' = .ok exposed' → exposed'.Perm exposed) ∧
          ((DimensionGraph.ofDimensions s.output.dimensions).nodes.length ≤
            source'.settings.relationships.maxDepth →
              ∃ exposed', modelDimensions source' s' = .ok exposed') := by
  have exact := exposes_of_exposedDimensions h
  refine ⟨exact.once, fun name => ?_, fun maxDepth => ⟨fun all expanded =>
    (exposes_of_expandedDimensions expanded).perm exact (.refl _),
    fun few => exists_expandedDimensions few _⟩, fun source' s' dimensions joins => ?_⟩
  · rw [exact.mem]
    simp only [List.mem_map, exists_exists_and_eq_and, Relation.reflTransGen_iff_eq_or_transGen]
  · have targets := joins.map (·.target.dimension)
    unfold modelDimensions
    rw [dimensions]
    exact ⟨fun exposed' h' => (exposes_of_exposedDimensions h').perm exact targets,
      fun few => exists_exposedDimensions few _⟩

/-- Three dimensions that are nested in each other in a circle, and joins to two of them. -/
def circle : State where
  output := {
    dimensionMap := .ofList [
      { uniqueName := "Product", label := "Product"
        relationships := [⟨"Made", ⟨"Product", ["Maker"]⟩, ⟨"Maker", "Maker"⟩⟩] },
      { uniqueName := "Maker", label := "Maker"
        relationships := [⟨"Seated", ⟨"Maker", ["Country"]⟩, ⟨"Country", "Country"⟩⟩] },
      { uniqueName := "Country", label := "Country"
        relationships := [⟨"Favours", ⟨"Country", ["Product"]⟩, ⟨"Product", "Product"⟩⟩] }]
    relationshipMap := .ofList [
      ⟨"Sold", ⟨"Sales", ["Maker"]⟩, ⟨"Maker", "Maker"⟩⟩,
      ⟨"Bought", ⟨"Sales", ["Product"]⟩, ⟨"Product", "Product"⟩⟩] }

attribute [local instance] Sql.Parser.lenient

theorem modelDimensions_exact_circle :
    modelDimensions ⟨{}, {}⟩ circle = .ok ["Maker", "Country", "Product"] ∧
      ∀ name, name ∈ ["Maker", "Country", "Product"] ↔ ∃ r ∈ circle.output.relationships,
        name = r.target.dimension ∨
          TransGen (Nests circle.output.dimensions) r.target.dimension name := by
  have exposed : modelDimensions ⟨{}, {}⟩ circle = .ok ["Maker", "Country", "Product"] := by
    decide +kernel
  exact ⟨exposed, (modelDimensions_exact exposed).2.1⟩

end SemanticLayer.Conversion
