import Mathlib.Data.List.Chain
import SemanticLayer.Proofs.DimensionGraph.Search

set_option autoImplicit false

namespace SemanticLayer.DimensionGraph

variable {g : DimensionGraph} {start current : String} {path before : List String}

/-- A path over edges that comes to no name twice. -/
structure IsPath (g : DimensionGraph) (start : String) (path : List String) : Prop where
  head : path.head? = some start
  joined : path.IsChain fun outer inner => (outer, inner) ∈ g.edges
  distinct : path.Nodup

theorem isPath_singleton (g : DimensionGraph) (start : String) : g.IsPath start [start] :=
  ⟨rfl, .singleton start, List.nodup_singleton start⟩

theorem IsPath.enter {target : String} (h : g.IsPath start (current :: before).reverse)
    (edge : (current, target) ∈ g.edges) (fresh : target ∉ current :: before) :
    g.IsPath start (target :: current :: before).reverse := by
  rw [List.reverse_cons]
  refine ⟨List.head?_append_of_ne_nil _ (by simp) |>.trans h.head, ?_, ?_⟩
  · refine List.isChain_append.2 ⟨h.joined, .singleton target, fun outer ho inner hi => ?_⟩
    simp only [List.reverse_cons, List.getLast?_append, List.getLast?_singleton, Option.some_or,
      Option.mem_some, List.head?_cons] at ho hi
    exact ho ▸ hi ▸ edge
  · rw [← List.concat_eq_append]
    exact List.Nodup.concat (mt List.mem_reverse.1 fresh) h.distinct

theorem IsPath.subset (h : g.IsPath start path) (built : g.Built) (node : start ∈ g.nodes) :
    path ⊆ g.nodes :=
  h.joined.induction (· ∈ g.nodes) path (fun _ _ edge _ => (built.ends_mem _ edge).2)
    fun _ => (List.head_of_head?_eq_some h.head).symm ▸ node

/-- A failed search tells its start and its limit, and a path from that start that is one name
longer than the limit. -/
structure Overruns (g : DimensionGraph) (start : String) (maxDepth : Nat) (e : DepthExceeded) :
    Prop where
  path : g.IsPath start e.path
  length : e.path.length = maxDepth + 1
  start : e.start = start
  limit : e.maxDepth = maxDepth

theorem overruns_of_visit {maxDepth budget : Nat} {found : List String} {e : DepthExceeded}
    (path : g.IsPath start (current :: before).reverse) (within : before.length ≤ maxDepth)
    (h : g.visit start maxDepth budget before current found = .error e) :
    g.Overruns start maxDepth e := by
  induction budget generalizing before current found with
  | zero => cases h
  | succ budget ih =>
    rw [visit] at h
    split at h
    · rename_i deep
      cases h
      refine ⟨path, ?_, rfl, rfl⟩
      rw [List.length_reverse, List.length_cons]
      omega
    rename_i shallow
    obtain ⟨target, ht, known, failed⟩ := foldlM_except_error h
    split at failed
    · cases failed
    rename_i new
    refine ih (path.enter (mem_targets.1 ht) fun old => new ?_) ?_ failed
    · exact (List.mem_cons.1 old).imp_right Or.inl
    · rw [List.length_cons]
      omega

theorem overruns_of_reachable {maxDepth : Nat} {e : DepthExceeded}
    (h : g.reachable start maxDepth = .error e) : g.Overruns start maxDepth e := by
  rw [reachable] at h
  split at h
  · have path : g.IsPath start [start].reverse := isPath_singleton g start
    exact overruns_of_visit path (Nat.zero_le _) h
  · cases h

theorem lt_length_of_nodes {maxDepth : Nat} {e : DepthExceeded} {names : List String}
    (built : g.Built) (h : g.reachable start maxDepth = .error e) (all : g.nodes ⊆ names) :
    maxDepth < names.length := by
  have node : start ∈ g.nodes := by
    by_contra unknown
    rw [reachable_unknown unknown] at h
    cases h
  have overruns := overruns_of_reachable h
  calc
    maxDepth < e.path.length := overruns.length ▸ Nat.lt_succ_self maxDepth
    _ ≤ names.length := overruns.path.distinct.length_le_of_subset fun n hn =>
      all (overruns.path.subset built node hn)

theorem visit_mono {maxDepth maxDepth' budget : Nat} {found result : List String}
    (larger : maxDepth ≤ maxDepth')
    (h : g.visit start maxDepth budget before current found = .ok result) :
    g.visit start maxDepth' budget before current found = .ok result := by
  induction budget generalizing before current found result with
  | zero => exact h
  | succ budget ih =>
    rw [visit] at h ⊢
    split at h
    · cases h
    rename_i shallow
    rw [if_neg (by omega)]
    refine foldlM_except_mono (fun target _ found next turn => ?_) h
    split at turn
    · rename_i skipped
      rw [if_pos skipped]
      exact turn
    · rename_i new
      rw [if_neg new]
      exact ih turn

theorem reachable_mono {maxDepth maxDepth' : Nat} {found : List String}
    (larger : maxDepth ≤ maxDepth') (h : g.reachable start maxDepth = .ok found) :
    g.reachable start maxDepth' = .ok found := by
  rw [reachable] at h ⊢
  split at h
  · rename_i node
    rw [if_pos node]
    exact visit_mono larger h
  · rename_i unknown
    rw [if_neg unknown]
    exact h

/-- A search fails only with a path from its start over edges that repeats no name and has one name
more than the limit. So it does not fail where the graph has no more nodes than the limit, and what
it finds under one limit it finds under every larger one. -/
theorem reachable_limit (built : g.Built) (start : String) (maxDepth : Nat) :
    (∀ e, g.reachable start maxDepth = .error e → g.Overruns start maxDepth e) ∧
      (g.nodes.length ≤ maxDepth → ∃ found, g.reachable start maxDepth = .ok found) ∧
      ∀ found, g.reachable start maxDepth = .ok found →
        ∀ maxDepth' ≥ maxDepth, g.reachable start maxDepth' = .ok found := by
  refine ⟨fun e => overruns_of_reachable, fun few => ?_, fun found h _ larger =>
    reachable_mono larger h⟩
  cases reached : g.reachable start maxDepth with
  | ok found => exact ⟨found, rfl⟩
  | error e => exact absurd (lt_length_of_nodes built reached (.refl _)) (Nat.not_lt.2 few)

/-- Five dimensions in a row, the last of which leads back to the first. -/
def row : List (String × String) :=
  [("D0", "D1"), ("D1", "D2"), ("D2", "D3"), ("D3", "D4"), ("D4", "D0")]

theorem reachable_limit_row :
    (∃ e, (ofEdges row).reachable "D0" 3 = .error e ∧ (ofEdges row).Overruns "D0" 3 e) ∧
      (∃ found, (ofEdges row).reachable "D0" 5 = .ok found ∧
        (ofEdges row).reachable "D0" 64 = .ok found) := by
  have limit (maxDepth : Nat) := reachable_limit (built_ofEdges row) "D0" maxDepth
  have deep : (ofEdges row).reachable "D0" 3 = .error ⟨"D0", 3, ["D0", "D1", "D2", "D3"]⟩ := by
    decide +kernel
  obtain ⟨found, reached⟩ := (limit 5).2.1 (by decide)
  exact ⟨⟨_, deep, (limit 3).1 _ deep⟩, found, reached, (limit 5).2.2 found reached 64 (by decide)⟩

end SemanticLayer.DimensionGraph
