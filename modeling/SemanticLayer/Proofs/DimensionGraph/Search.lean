import Mathlib.Data.List.Nodup
import SemanticLayer.Proofs.DimensionGraph.Basic
import SemanticLayer.Proofs.Except

set_option autoImplicit false

/-!
The order in which a search finds dimensions. A depth-first search goes on from the dimension found
last that still leads to a new one, and takes the first that is new among what its edges lead to,
until no dimension leads to a new one. So each step only looks at the edges and at what has been
found, and the search of a graph is a run of such steps.
-/
namespace SemanticLayer.DimensionGraph

open Relation (ReflTransGen TransGen)

/-- The name that a depth-first search lists next: the first new name that an edge leads to from
the latest name that has such edges. -/
def next? (edges : List (String × String)) (listed : List String) : Option String :=
  listed.reverse.findSome? fun name => (followers edges name).find? fun target => target ∉ listed

/-- A step of a depth-first search. -/
def Discovers (edges : List (String × String)) (listed listed' : List String) : Prop :=
  ∃ name, next? edges listed = some name ∧ listed' = listed ++ [name]

/-- A depth-first search along edges finds these names in this order, and no more. -/
structure DepthFirst (edges : List (String × String)) (start : String) (found : List String) :
    Prop where
  steps : ReflTransGen (Discovers edges) [start] (start :: found)
  ended : next? edges (start :: found) = none

variable {g : DimensionGraph} {edges : List (String × String)} {start name : String}
  {listed found : List String}

theorem next?_eq_none_iff :
    next? edges listed = none ↔ ∀ outer ∈ listed, followers edges outer ⊆ listed := by
  simp [next?, List.subset_def]

theorem mem_of_next? (h : next? edges listed = some name) :
    name ∉ listed ∧ ∃ outer ∈ listed, (outer, name) ∈ edges := by
  obtain ⟨outer, member, first⟩ := List.exists_of_findSome?_eq_some h
  have fresh := List.find?_some first
  exact ⟨of_decide_eq_true fresh, outer, List.mem_reverse.1 member,
    mem_followers.1 (List.mem_of_find?_eq_some first)⟩

theorem next?_eq_some {before after passed rest : List String} {current target : String}
    (shape : listed = before ++ current :: after)
    (expanded : ∀ outer ∈ after, followers edges outer ⊆ listed)
    (split : followers edges current = passed ++ target :: rest) (old : passed ⊆ listed)
    (fresh : target ∉ listed) : next? edges listed = some target := by
  have later : after.reverse.findSome? (fun outer =>
      (followers edges outer).find? fun target => target ∉ listed) = none := by
    simpa [List.subset_def] using expanded
  have first : (followers edges current).find? (fun target => target ∉ listed) = some target := by
    have skipped : passed.find? (fun target => target ∉ listed) = none :=
      List.find?_eq_none.2 fun n hn => by simpa using old hn
    rw [split, List.find?_append, skipped, Option.none_or]
    exact List.find?_cons_of_pos (by simpa using fresh)
  rw [next?, congrArg List.reverse shape, List.reverse_append, List.reverse_cons, List.append_assoc,
    List.findSome?_append, later, Option.none_or, List.singleton_append, List.findSome?_cons, first]

namespace DepthFirst

theorem unique {found' : List String} (h : DepthFirst edges start found)
    (h' : DepthFirst edges start found') : found = found' := by
  have functional : Relator.RightUnique (Discovers edges) := by
    rintro listed _ _ ⟨name, next, rfl⟩ ⟨name', next', rfl⟩
    rw [Option.some.inj (next.symm.trans next')]
  have final {listed listed' : List String} (ended : next? edges listed = none)
      (steps : ReflTransGen (Discovers edges) listed listed') : listed = listed' := by
    rcases steps.cases_head with same | ⟨_, ⟨name, next, -⟩, -⟩
    · exact same
    · rw [ended] at next
      cases next
  rcases h.steps.total_of_right_unique functional h'.steps with onward | onward
  · exact (List.cons.inj (final h.ended onward)).2
  · exact (List.cons.inj (final h'.ended onward)).2.symm

theorem nodup (h : DepthFirst edges start found) : (start :: found).Nodup := by
  have run {listed : List String} (steps : ReflTransGen (Discovers edges) [start] listed) :
      listed.Nodup := by
    induction steps with
    | refl => exact List.nodup_singleton start
    | tail _ step ih =>
      obtain ⟨name, next, rfl⟩ := step
      rw [← List.concat_eq_append]
      exact List.Nodup.concat (mem_of_next? next).1 ih
  exact run h.steps

theorem mem_iff (h : DepthFirst edges start found) (name : String) : name ∈ start :: found ↔
    ReflTransGen (fun outer inner => (outer, inner) ∈ edges) start name := by
  have run {listed : List String} (steps : ReflTransGen (Discovers edges) [start] listed) :
      ∀ name ∈ listed,
        ReflTransGen (fun outer inner => (outer, inner) ∈ edges) start name := by
    induction steps with
    | refl => exact fun name hn => List.mem_singleton.1 hn ▸ .refl
    | tail _ step ih =>
      obtain ⟨new, next, rfl⟩ := step
      obtain ⟨-, outer, member, edge⟩ := mem_of_next? next
      intro name hn
      rcases List.mem_append.1 hn with old | last
      · exact ih name old
      · exact List.mem_singleton.1 last ▸ (ih outer member).tail edge
  refine ⟨run h.steps name, fun path => ?_⟩
  have closed := next?_eq_none_iff.1 h.ended
  induction path with
  | refl => exact List.mem_cons_self
  | tail _ edge ih => exact closed _ ih (mem_followers.2 edge)

theorem mem_found_iff (h : DepthFirst edges start found) (name : String) : name ∈ found ↔
    name ≠ start ∧ TransGen (fun outer inner => (outer, inner) ∈ edges) start name := by
  have fresh := (List.nodup_cons.1 h.nodup).1
  have all := h.mem_iff name
  rw [List.mem_cons, Relation.reflTransGen_iff_eq_or_transGen] at all
  constructor
  · intro hn
    have other : name ≠ start := fun same => fresh (same ▸ hn)
    exact ⟨other, (all.1 (Or.inr hn)).resolve_left other⟩
  · rintro ⟨other, path⟩
    exact (all.2 (Or.inr path)).resolve_left other

end DepthFirst

/-- What a search has come to that had found some names, when it has passed some targets of the
name found last: it has gone depth first, all that it has added is expanded, and the targets are
listed. -/
structure Searched (edges : List (String × String)) (start : String)
    (found passed result : List String) : Prop where
  steps : ReflTransGen (Discovers edges) (start :: found) (start :: result)
  expanded : ∃ more, result = found ++ more ∧ ∀ name ∈ more, followers edges name ⊆ start :: result
  passed : passed ⊆ start :: result

namespace Searched

variable {passed result : List String} {target : String}

theorem nil (edges : List (String × String)) (start : String) (found : List String) :
    Searched edges start found [] found :=
  ⟨.refl, ⟨[], (List.append_nil _).symm, fun _ none => nomatch none⟩, List.nil_subset _⟩

theorem subset (h : Searched edges start found passed result) :
    start :: found ⊆ start :: result := by
  obtain ⟨more, rfl, -⟩ := h.expanded
  exact List.cons_subset_cons _ (List.subset_append_left _ _)

theorem skip (h : Searched edges start found passed result) (old : target ∈ start :: result) :
    Searched edges start found (passed ++ [target]) result where
  steps := h.steps
  expanded := h.expanded
  passed := List.append_subset.2 ⟨h.passed, List.cons_subset.2 ⟨old, List.nil_subset _⟩⟩

theorem next? {earlier rest : List String} {current : String}
    (h : Searched edges start found passed result) (last : start :: found = earlier ++ [current])
    (split : followers edges current = passed ++ target :: rest)
    (fresh : target ∉ start :: result) :
    DimensionGraph.next? edges (start :: result) = some target := by
  obtain ⟨more, added, expanded⟩ := h.expanded
  have shape : start :: result = earlier ++ current :: more := by
    rw [added, ← List.cons_append, last, List.append_assoc, List.singleton_append]
  exact next?_eq_some shape expanded split h.passed fresh

theorem enter {result' : List String} (h : Searched edges start found passed result)
    (next : DimensionGraph.next? edges (start :: result) = some target)
    (inner : Searched edges start (result ++ [target]) (followers edges target) result') :
    Searched edges start found (passed ++ [target]) result' := by
  have grown : start :: (result ++ [target]) ⊆ start :: result' := inner.subset
  have kept : start :: result ⊆ start :: result' :=
    List.Subset.trans (List.cons_subset_cons _ (List.subset_append_left _ _)) grown
  have own : target ∈ start :: result' := grown (by simp)
  obtain ⟨more, added, expanded⟩ := h.expanded
  obtain ⟨more', added', expanded'⟩ := inner.expanded
  refine ⟨(h.steps.tail ⟨target, next, rfl⟩).trans inner.steps, ⟨more ++ target :: more', ?_, ?_⟩,
    List.append_subset.2 ⟨List.Subset.trans h.passed kept,
      List.cons_subset.2 ⟨own, List.nil_subset _⟩⟩⟩
  · rw [added', added]
    simp only [List.append_assoc, List.singleton_append]
  · intro name hn
    rcases List.mem_append.1 hn with old | new
    · exact List.Subset.trans (expanded name old) kept
    · rcases List.mem_cons.1 new with rfl | later
      · exact inner.passed
      · exact expanded' name later

end Searched

/-- A search that comes back has passed all targets of its current name, however deep it went. -/
theorem searched_of_visit {maxDepth budget : Nat} {before earlier : List String} {current : String}
    {result : List String} (built : g.Built) (distinct : (current :: before).Nodup)
    (inside : current :: before ⊆ g.nodes) (enough : g.nodes.length < budget + before.length)
    (rooted : start ∈ current :: before) (onPath : current :: before ⊆ start :: found)
    (last : start :: found = earlier ++ [current])
    (h : g.visit start maxDepth budget before current found = .ok result) :
    Searched g.edges start found (followers g.edges current) result := by
  induction budget generalizing before earlier current found result with
  | zero =>
    -- The path would be longer than there are dimensions.
    have short := distinct.length_le_of_subset inside
    rw [List.length_cons] at short
    omega
  | succ budget ih =>
    rw [visit, targets_eq] at h
    split at h
    · cases h
    refine foldlM_except_steps (P := Searched g.edges start found) (.nil g.edges start found)
      (fun passed target rest split result next turn known => ?_) h
    split at turn
    · rename_i skipped
      cases turn
      refine known.skip ?_
      rcases skipped with rfl | path | old
      · exact known.subset (onPath List.mem_cons_self)
      · exact known.subset (onPath (List.mem_cons_of_mem _ path))
      · exact List.mem_cons_of_mem _ old
    rename_i new
    have off : target ∉ current :: before := fun path =>
      new ((List.mem_cons.1 path).imp_right Or.inl)
    have fresh : target ∉ start :: result := fun old => (List.mem_cons.1 old).elim
      (fun same => off (same ▸ rooted)) fun old => new (Or.inr (Or.inr old))
    have edge : (current, target) ∈ g.edges :=
      mem_followers.1 (split ▸ List.mem_append_right _ List.mem_cons_self)
    have grown : start :: result ⊆ start :: (result ++ [target]) :=
      List.cons_subset_cons _ (List.subset_append_left _ _)
    refine known.enter (known.next? last split fresh) (ih (List.nodup_cons.2 ⟨off, distinct⟩)
      (List.cons_subset.2 ⟨(built.ends_mem _ edge).2, inside⟩) ?_ (List.mem_cons_of_mem _ rooted)
      (List.cons_subset.2 ⟨by simp, List.Subset.trans onPath
        (List.Subset.trans known.subset grown)⟩)
      (List.cons_append).symm turn)
    rw [List.length_cons]
    omega

theorem depthFirst_of_reachable {maxDepth : Nat} (built : g.Built)
    (h : g.reachable start maxDepth = .ok found) : DepthFirst g.edges start found := by
  rw [reachable] at h
  split at h
  · rename_i node
    have all := searched_of_visit built (List.nodup_singleton start)
      (List.cons_subset.2 ⟨node, List.nil_subset _⟩) (Nat.lt_succ_self _) List.mem_cons_self
      (List.Subset.refl [start]) (List.nil_append _).symm h
    obtain ⟨more, rfl, expanded⟩ := all.expanded
    exact ⟨all.steps, next?_eq_none_iff.2 (List.forall_mem_cons.2 ⟨all.passed, expanded⟩)⟩
  · rename_i unknown
    cases h
    refine ⟨.refl, next?_eq_none_iff.2 fun outer ho target ht => ?_⟩
    rw [List.mem_singleton.1 ho] at ht
    exact absurd (built.ends_mem _ (mem_followers.1 ht)).1 unknown

theorem reachable_unknown (unknown : start ∉ g.nodes) (maxDepth : Nat) :
    g.reachable start maxDepth = .ok [] :=
  if_neg unknown

/-- A search finds whatever lies at the end of a path of edges from its start, besides the start
itself, each once and in the one depth-first order, where the edges of a name are followed as they
were added. -/
theorem reachable_exact (edges : List (String × String)) (start : String) (maxDepth : Nat) :
    (∀ found, (ofEdges edges).reachable start maxDepth = .ok found →
      found.Nodup ∧
        (∀ name, name ∈ found ↔
          name ≠ start ∧ TransGen (fun outer inner => (outer, inner) ∈ edges) start name) ∧
        ∀ order, DepthFirst edges start order ↔ order = found) ∧
      ((∀ e ∈ edges, start ≠ e.1 ∧ start ≠ e.2) →
        (ofEdges edges).reachable start maxDepth = .ok []) := by
  refine ⟨fun found h => ?_, fun unknown => reachable_unknown (fun node => ?_) maxDepth⟩
  · have order := depthFirst_of_reachable (built_ofEdges edges) h
    rw [edges_ofEdges] at order
    exact ⟨(List.nodup_cons.1 order.nodup).2, order.mem_found_iff, fun other =>
      ⟨fun search => search.unique order, fun same => same ▸ order⟩⟩
  · obtain ⟨e, he, own⟩ := mem_nodes_ofEdges.1 node
    exact own.elim (unknown e he).1 (unknown e he).2

/-- Two ways to a country, the second one twice, and a way back from it. -/
def stores : List (String × String) :=
  [("Store", "City"), ("Store", "Region"), ("Store", "Region"), ("City", "City"),
    ("City", "Country"), ("Region", "Country"), ("Country", "Store")]

/-- The search goes to the city first, since that edge was added first, and not to the region. -/
theorem reachable_exact_stores :
    (ofEdges stores).reachable "Store" 3 = .ok ["City", "Country", "Region"] ∧
      DepthFirst stores "Store" ["City", "Country", "Region"] ∧
      ¬DepthFirst stores "Store" ["Region", "Country", "City"] ∧
      (ofEdges stores).reachable "Shelf" 3 = .ok [] := by
  have reached : (ofEdges stores).reachable "Store" 3 = .ok ["City", "Country", "Region"] := by
    decide +kernel
  have order := ((reachable_exact stores "Store" 3).1 _ reached).2.2
  exact ⟨reached, (order _).2 rfl, fun backwards => absurd ((order _).1 backwards) (by decide),
    (reachable_exact stores "Shelf" 3).2 (by decide)⟩

end SemanticLayer.DimensionGraph
