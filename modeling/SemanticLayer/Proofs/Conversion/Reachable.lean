import SemanticLayer.Conversion.Joins
import SemanticLayer.Proofs.DimensionGraph.Limit

set_option autoImplicit false

namespace SemanticLayer.Conversion

open Relation (ReflTransGen TransGen)

variable {dimensions : List Dimension} {graph : DimensionGraph} {maxDepth : Nat}
  {start name : String} {found : List String}

theorem reachableFrom_ok : reachableFrom graph maxDepth start = .ok found ↔
    graph.reachable start maxDepth = .ok found := by
  rw [reachableFrom]
  cases graph.reachable start maxDepth <;> simp

theorem reachableFrom_error {e : ConversionError}
    (h : reachableFrom graph maxDepth start = .error e) :
    ∃ path, graph.reachable start maxDepth = .error path ∧ e = .depthExceeded path := by
  rw [reachableFrom] at h
  cases reached : graph.reachable start maxDepth with
  | ok found =>
    rw [reached] at h
    cases h
  | error path =>
    rw [reached] at h
    cases h
    exact ⟨path, rfl, rfl⟩

theorem exists_reachableFrom
    (few : (DimensionGraph.ofDimensions dimensions).nodes.length ≤ maxDepth) (start : String) :
    ∃ found, reachableFrom (.ofDimensions dimensions) maxDepth start = .ok found := by
  cases reached : reachableFrom (.ofDimensions dimensions) maxDepth start with
  | ok found => exact ⟨found, rfl⟩
  | error e =>
    obtain ⟨path, failed, -⟩ := reachableFrom_error reached
    have built := DimensionGraph.built_ofDimensions dimensions
    have deep := DimensionGraph.lt_length_of_nodes built failed (.refl _)
    exact absurd deep (Nat.not_lt.2 few)

section Found

variable (h : reachableFrom (.ofDimensions dimensions) maxDepth start = .ok found)
include h

theorem reachableFrom_depthFirst :
    DimensionGraph.DepthFirst (DimensionGraph.ofDimensions dimensions).edges start found :=
  DimensionGraph.depthFirst_of_reachable (DimensionGraph.built_ofDimensions _)
    (reachableFrom_ok.1 h)

theorem mem_reachableFrom : name = start ∨ name ∈ found ↔
    ReflTransGen (Nests dimensions) start name := by
  have all := (reachableFrom_depthFirst h).mem_iff name
  simp only [DimensionGraph.mem_edges_ofDimensions] at all
  exact List.mem_cons.symm.trans all

end Found

end SemanticLayer.Conversion
