import Mathlib.Data.List.Induction
import Mathlib.Logic.Relation
import SemanticLayer.DimensionGraph

set_option autoImplicit false

namespace SemanticLayer

def Nests (dimensions : List Dimension) (outer inner : String) : Prop :=
  ∃ d ∈ dimensions, d.uniqueName = outer ∧ ∃ r ∈ d.relationships, r.target.dimension = inner

namespace DimensionGraph

variable {g : DimensionGraph}

theorem edges_addNode (g : DimensionGraph) (name : String) : (g.addNode name).edges = g.edges := by
  unfold addNode
  split <;> rfl

theorem edges_addEdge (g : DimensionGraph) (source target : String) :
    (g.addEdge source target).edges = g.edges ++ [(source, target)] := by
  simp only [addEdge, edges_addNode]

theorem mem_nodes_addNode {name n : String} :
    n ∈ (g.addNode name).nodes ↔ n ∈ g.nodes ∨ n = name := by
  unfold addNode
  split
  · rename_i known
    exact ⟨Or.inl, fun h => h.elim id fun same => same ▸ List.contains_iff_mem.1 known⟩
  · exact List.mem_append.trans (or_congr_right List.mem_singleton)

theorem mem_nodes_addEdge {source target n : String} :
    n ∈ (g.addEdge source target).nodes ↔ n ∈ g.nodes ∨ n = source ∨ n = target := by
  change n ∈ ((g.addNode source).addNode target).nodes ↔ _
  rw [mem_nodes_addNode, mem_nodes_addNode, or_assoc]

/-- Where the edges of a name lead, one after the other. -/
def followers (edges : List (String × String)) (name : String) : List String :=
  edges.filterMap fun e => if e.1 = name then some e.2 else none

theorem targets_eq (g : DimensionGraph) (name : String) :
    g.targets name = followers g.edges name := by
  unfold targets followers
  induction g.edges with
  | nil => rfl
  | cons e edges ih => by_cases own : e.1 = name <;> simp [own, ih]

theorem mem_followers {edges : List (String × String)} {source target : String} :
    target ∈ followers edges source ↔ (source, target) ∈ edges := by
  simp only [followers, List.mem_filterMap, Option.ite_none_right_eq_some, Option.some.injEq]
  constructor
  · rintro ⟨e, he, rfl, rfl⟩
    exact he
  · exact fun he => ⟨(source, target), he, rfl, rfl⟩

theorem mem_targets {source target : String} :
    target ∈ g.targets source ↔ (source, target) ∈ g.edges := by
  rw [targets_eq, mem_followers]

inductive Built : DimensionGraph → Prop
  | empty : Built {}
  | node {g : DimensionGraph} (built : Built g) (name : String) : Built (g.addNode name)
  | edge {g : DimensionGraph} (built : Built g) (source target : String) :
    Built (g.addEdge source target)

theorem Built.ends_mem (built : g.Built) : ∀ e ∈ g.edges, e.1 ∈ g.nodes ∧ e.2 ∈ g.nodes := by
  induction built with
  | empty => exact fun _ none => nomatch none
  | node built name ih =>
    intro e he
    rw [edges_addNode] at he
    exact (ih e he).imp (fun known => mem_nodes_addNode.2 (Or.inl known))
      fun known => mem_nodes_addNode.2 (Or.inl known)
  | edge built source target ih =>
    intro e he
    rw [edges_addEdge] at he
    rcases List.mem_append.1 he with old | new
    · exact (ih e old).imp (fun known => mem_nodes_addEdge.2 (Or.inl known))
        fun known => mem_nodes_addEdge.2 (Or.inl known)
    · rw [List.mem_singleton.1 new]
      exact ⟨mem_nodes_addEdge.2 (Or.inr (Or.inl rfl)), mem_nodes_addEdge.2 (Or.inr (Or.inr rfl))⟩

section Edges

/-- The graph of edges that are added one after the other. -/
def ofEdges (edges : List (String × String)) : DimensionGraph :=
  edges.foldl (fun g e => g.addEdge e.1 e.2) {}

theorem ofEdges_concat (edges : List (String × String)) (source target : String) :
    ofEdges (edges ++ [(source, target)]) = (ofEdges edges).addEdge source target :=
  List.foldl_append

theorem built_ofEdges (edges : List (String × String)) : (ofEdges edges).Built :=
  List.foldlRecOn edges _ Built.empty fun _ built _ _ => built.edge _ _

theorem edges_ofEdges (edges : List (String × String)) : (ofEdges edges).edges = edges := by
  induction edges using List.reverseRecOn with
  | nil => rfl
  | append_singleton edges e ih => rw [ofEdges_concat, edges_addEdge, ih]

/-- What a name leads to is listed as its edges were added. -/
theorem targets_ofEdges (edges : List (String × String)) (name : String) :
    (ofEdges edges).targets name = followers edges name := by
  rw [targets_eq, edges_ofEdges]

theorem mem_nodes_ofEdges {edges : List (String × String)} {name : String} :
    name ∈ (ofEdges edges).nodes ↔ ∃ e ∈ edges, name = e.1 ∨ name = e.2 := by
  induction edges using List.reverseRecOn with
  | nil => simp [ofEdges]
  | append_singleton edges e ih =>
    rw [ofEdges_concat, mem_nodes_addEdge, ih]
    simp [or_and_right, exists_or]

end Edges

section Dimensions

variable {dimensions : List Dimension}

theorem ofDimensions_induction {motive : DimensionGraph → Prop} (empty : motive {})
    (node : ∀ g, motive g → ∀ d ∈ dimensions, motive (g.addNode d.uniqueName))
    (edge : ∀ g, motive g → ∀ d ∈ dimensions, ∀ r ∈ d.relationships,
      motive (g.addEdge d.uniqueName r.target.dimension)) : motive (ofDimensions dimensions) :=
  List.foldlRecOn (motive := motive) dimensions _ empty fun g known d hd =>
    List.foldlRecOn (motive := motive) d.relationships _ (node g known d hd)
      fun g known r hr => edge g known d hd r hr

theorem built_ofDimensions (dimensions : List Dimension) : (ofDimensions dimensions).Built :=
  ofDimensions_induction Built.empty (fun _ built _ _ => built.node _)
    fun _ built _ _ _ _ => built.edge _ _

theorem forall_mem_nodes {p : String → Prop} (own : ∀ d ∈ dimensions, p d.uniqueName)
    (targets : ∀ d ∈ dimensions, ∀ r ∈ d.relationships, p r.target.dimension) :
    ∀ n ∈ (ofDimensions dimensions).nodes, p n := by
  refine ofDimensions_induction (motive := fun g => ∀ n ∈ g.nodes, p n) (fun _ none => nomatch none)
    (fun g known d hd n hn => ?_) fun g known d hd r hr n hn => ?_
  · exact (mem_nodes_addNode.1 hn).elim (known n) fun same => same ▸ own d hd
  · rcases mem_nodes_addEdge.1 hn with old | rfl | rfl
    · exact known n old
    · exact own d hd
    · exact targets d hd r hr

theorem edges_ofDimensions (dimensions : List Dimension) :
    (ofDimensions dimensions).edges = dimensions.flatMap fun d =>
      d.relationships.map fun r => (d.uniqueName, r.target.dimension) := by
  have nested (g : DimensionGraph) (name : String) (joins : List Relationship) :
      (joins.foldl (fun g r => g.addEdge name r.target.dimension) g).edges =
        g.edges ++ joins.map fun r => (name, r.target.dimension) := by
    induction joins generalizing g with
    | nil => simp
    | cons r joins ih => rw [List.foldl_cons, ih, edges_addEdge]; simp
  have all (g : DimensionGraph) :
      (dimensions.foldl (fun g d => d.relationships.foldl
        (fun g r => g.addEdge d.uniqueName r.target.dimension) (g.addNode d.uniqueName)) g).edges =
        g.edges ++ dimensions.flatMap fun d =>
          d.relationships.map fun r => (d.uniqueName, r.target.dimension) := by
    induction dimensions generalizing g with
    | nil => simp
    | cons d dimensions ih => rw [List.foldl_cons, ih, nested, edges_addNode]; simp
  exact (all {}).trans (List.nil_append _)

theorem mem_edges_ofDimensions {outer inner : String} :
    (outer, inner) ∈ (ofDimensions dimensions).edges ↔ Nests dimensions outer inner := by
  rw [edges_ofDimensions]
  simp only [List.mem_flatMap, List.mem_map, Prod.mk.injEq, Nests]
  constructor
  · rintro ⟨d, hd, r, hr, same, target⟩
    exact ⟨d, hd, same, r, hr, target⟩
  · rintro ⟨d, hd, same, r, hr, target⟩
    exact ⟨d, hd, r, hr, same, target⟩

end Dimensions

end DimensionGraph

end SemanticLayer
