import SemanticLayer.Proofs.Conversion.Perspectives

set_option autoImplicit false

namespace SemanticLayer.Conversion

variable {source : Source} {s : State} {maxDepth : Nat} {e : ConversionError}

/-- A path of dimensions grew too long where there are dimensions enough for it. -/
def TooDeep (maxDepth : Nat) (s : State) (e : ConversionError) : Prop :=
  maxDepth < s.output.dimensions.length ∧ ∃ path, e = .depthExceeded path

section Sound

variable (sound : Sound source s)
include sound

theorem Sound.tooDeep_of_reachableFrom {start : String}
    (h : reachableFrom (.ofDimensions s.output.dimensions) maxDepth start = .error e) :
    TooDeep maxDepth s e := by
  obtain ⟨path, failed, same⟩ := reachableFrom_error h
  refine ⟨?_, path, same⟩
  have made : ∀ n ∈ (DimensionGraph.ofDimensions s.output.dimensions).nodes,
      n ∈ s.output.dimensions.map (·.uniqueName) :=
    DimensionGraph.forall_mem_nodes (fun d hd => List.mem_map_of_mem hd) fun d hd r hr =>
      sound.mem_of_nested (List.mem_map_of_mem hd) (.single ⟨d, hd, rfl, r, hr, rfl⟩)
  rw [← List.length_map (·.uniqueName)]
  exact DimensionGraph.lt_length_of_nodes (DimensionGraph.built_ofDimensions _) failed made

theorem Sound.tooDeep_of_ambiguityDiagnostics {direct : List (String × List String)}
    (h : ambiguityDiagnostics (.ofDimensions s.output.dimensions) maxDepth direct = .error e) :
    TooDeep maxDepth s e := by
  rcases bind_except_error h with failed | ⟨_, -, wrong⟩
  swap
  · cases wrong
  obtain ⟨⟨dataset, dimensions⟩, -, failed⟩ := mapM_except_error failed
  rcases bind_except_error failed with failed | ⟨_, -, wrong⟩
  swap
  · cases wrong
  rcases bind_except_error failed with failed | ⟨_, -, wrong⟩
  swap
  · cases wrong
  obtain ⟨through, -, failed⟩ := mapM_except_error failed
  rcases bind_except_error failed with failed | ⟨_, -, wrong⟩
  · exact sound.tooDeep_of_reachableFrom failed
  · cases wrong

theorem Sound.tooDeep_of_withNestedDimensions {dimensions : List PerspectiveDimension}
    (h : withNestedDimensions (.ofDimensions s.output.dimensions) maxDepth dimensions = .error e) :
    TooDeep maxDepth s e := by
  obtain ⟨d, -, all, failed⟩ := foldlM_except_error h
  exact sound.tooDeep_of_reachableFrom (map_except_error failed)

theorem Sound.tooDeep_of_modelDimensions (h : modelDimensions source s = .error e) :
    TooDeep source.settings.relationships.maxDepth s e := by
  obtain ⟨target, -, found, failed⟩ := foldlM_except_error h
  split at failed
  · cases failed
  · exact sound.tooDeep_of_reachableFrom (map_except_error failed)

end Sound

end SemanticLayer.Conversion
