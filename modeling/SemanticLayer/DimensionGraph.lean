import SemanticLayer.Dimension

set_option autoImplicit false

/-!
Which dimensions nest in which, and what is reached from one of them.

The search goes depth first, follows the edges of a dimension in the order in which they were
added, and expands every dimension at most once. A path that repeats no dimension is no longer than
the number of dimensions, so that number plus one is budget enough.
-/
namespace SemanticLayer

structure DimensionGraph where
  nodes : List String := []
  /-- The edges in the order in which they were added. -/
  edges : List (String × String) := []
  deriving DecidableEq, Repr

structure DepthExceeded where
  start : String
  maxDepth : Nat
  path : List String
  deriving DecidableEq, Repr

namespace DimensionGraph

def addNode (g : DimensionGraph) (name : String) : DimensionGraph :=
  if g.nodes.contains name then g else { g with nodes := g.nodes ++ [name] }

def addEdge (g : DimensionGraph) (source target : String) : DimensionGraph :=
  let g := (g.addNode source).addNode target
  { g with edges := g.edges ++ [(source, target)] }

def ofDimensions (dimensions : List Dimension) : DimensionGraph :=
  dimensions.foldl (fun g d =>
    d.relationships.foldl (fun g r => g.addEdge d.uniqueName r.target.dimension)
      (g.addNode d.uniqueName)) {}

def targets (g : DimensionGraph) (name : String) : List String :=
  (g.edges.filter fun e => e.1 == name).map Prod.snd

/-- Adds to `found` what is reached from `current`, the last dimension of a path; `before` is the
path without it, the nearest dimension first. -/
def visit (g : DimensionGraph) (start : String) (maxDepth : Nat) :
    (budget : Nat) → (before : List String) → (current : String) → (found : List String) →
      Except DepthExceeded (List String)
  | 0, _, _, found => .ok found
  | budget + 1, before, current, found =>
    if maxDepth < before.length + 1 then
      .error ⟨start, maxDepth, (current :: before).reverse⟩
    else
      (g.targets current).foldlM (fun found target =>
        if target = current ∨ target ∈ before ∨ target ∈ found then .ok found
        else g.visit start maxDepth budget (current :: before) target (found ++ [target])) found

/-- Every dimension that is reached from `start` over one or more edges, in the order of its
discovery. The start is not among them, and nothing is reached from an unknown one. -/
def reachable (g : DimensionGraph) (start : String) (maxDepth : Nat) :
    Except DepthExceeded (List String) :=
  if start ∈ g.nodes then g.visit start maxDepth (g.nodes.length + 1) [] start [] else .ok []

end DimensionGraph

end SemanticLayer
