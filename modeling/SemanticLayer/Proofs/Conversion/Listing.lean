import SemanticLayer.Conversion.Perspectives
import SemanticLayer.Proofs.Conversion.Reachable
import SemanticLayer.Proofs.Tabular.Classification

set_option autoImplicit false

namespace SemanticLayer.Conversion

open Relation (ReflTransGen)

variable {name : String} {all : List PerspectiveDimension}

def hierarchiesOf (name : String) : List PerspectiveDimension → List String
  | [] => []
  | d :: rest => if d.name = name then d.hierarchies else hierarchiesOf name rest

theorem hierarchiesOf_of_notMem (h : name ∉ all.map (·.name)) : hierarchiesOf name all = [] := by
  induction all with
  | nil => rfl
  | cons d all ih =>
    rw [List.map_cons, List.mem_cons, not_or] at h
    rw [hierarchiesOf, if_neg (Ne.symm h.1), ih h.2]

/-- Where no dimension is listed twice, its entry tells all that is listed of it. -/
theorem hierarchiesOf_name (once : (all.map (·.name)).Nodup) {d : PerspectiveDimension}
    (hd : d ∈ all) : hierarchiesOf d.name all = d.hierarchies := by
  induction all with
  | nil => cases hd
  | cons first all ih =>
    obtain ⟨fresh, once⟩ := List.nodup_cons.1 once
    rw [hierarchiesOf]
    rcases List.mem_cons.1 hd with rfl | later
    · exact if_pos rfl
    · have differ : first.name ≠ d.name := fun same =>
        fresh (List.mem_map.2 ⟨d, later, same.symm⟩)
      rw [if_neg differ, ih once later]

theorem map_name_includeDimension (name : String) (hierarchies : List String)
    (all : List PerspectiveDimension) :
    (includeDimension name hierarchies all).map (·.name) = insertName (all.map (·.name)) name := by
  induction all with
  | nil => rfl
  | cons d all ih =>
    rw [includeDimension]
    split
    · rename_i same
      simp [insertName, same]
    · rename_i differ
      have other : (name == d.name) = false := beq_false_of_ne (Ne.symm differ)
      rw [List.map_cons, ih, List.map_cons]
      simp only [insertName, List.contains_cons, other, Bool.false_or]
      split <;> rfl

theorem hierarchiesOf_includeDimension (name : String) (hierarchies : List String)
    (all : List PerspectiveDimension) (other : String) :
    hierarchiesOf other (includeDimension name hierarchies all) =
      if other = name then hierarchies.foldl insertName (hierarchiesOf name all)
      else hierarchiesOf other all := by
  induction all with
  | nil =>
    rw [includeDimension]
    simp only [hierarchiesOf, eq_comm]
  | cons d all ih =>
    rw [includeDimension]
    split
    · rename_i own
      simp only [hierarchiesOf, own, if_pos, eq_comm]
      split <;> rfl
    · rename_i differ
      simp only [hierarchiesOf, ih, if_neg differ]
      split
      · rename_i own
        rw [if_neg fun same => differ (own.trans same)]
      · rfl

theorem map_name_foldl_includeDimension (names : List String) (all : List PerspectiveDimension) :
    (names.foldl (fun all name => includeDimension name [] all) all).map (·.name) =
      names.foldl insertName (all.map (·.name)) := by
  induction names generalizing all with
  | nil => rfl
  | cons name names ih => rw [List.foldl_cons, ih, map_name_includeDimension, List.foldl_cons]

theorem hierarchiesOf_foldl_includeDimension (names : List String)
    (all : List PerspectiveDimension) (other : String) :
    hierarchiesOf other (names.foldl (fun all name => includeDimension name [] all) all) =
      hierarchiesOf other all := by
  induction names generalizing all with
  | nil => rfl
  | cons name names ih =>
    rw [List.foldl_cons, ih, hierarchiesOf_includeDimension, List.foldl_nil]
    split
    · rename_i same
      rw [same]
    · rfl

section Nested

variable {dimensions : List Dimension} {maxDepth : Nat} {given : List PerspectiveDimension}
  (h : withNestedDimensions (.ofDimensions dimensions) maxDepth given = .ok all)
include h

theorem mem_withNestedDimensions (name : String) : name ∈ all.map (·.name) ↔
    ∃ p ∈ given, ReflTransGen (Nests dimensions) p.name name := by
  have added : name ∈ all.map (·.name) ↔ name ∈ given.map (·.name) ∨
      ∃ p ∈ given, ReflTransGen (Nests dimensions) p.name name := by
    refine foldlM_except_steps (P := fun done all => name ∈ all.map (·.name) ↔
        name ∈ given.map (·.name) ∨ ∃ p ∈ done, ReflTransGen (Nests dimensions) p.name name)
      (by simp) (fun done p rest split all next turn known => ?_) h
    obtain ⟨more, reached, rfl⟩ := map_except_ok turn
    have found : name = p.name ∨ name ∈ more ↔ ReflTransGen (Nests dimensions) p.name name :=
      mem_reachableFrom reached
    have listed : name = p.name → name ∈ given.map (·.name) := fun same =>
      same ▸ List.mem_map_of_mem (split ▸ List.mem_append_right done List.mem_cons_self)
    rw [map_name_foldl_includeDimension, mem_foldl_insertName, known]
    simp only [List.mem_append, List.mem_singleton, or_and_right, exists_or, exists_eq_left,
      ← found, or_assoc]
    refine ⟨Or.imp_right (Or.imp_right Or.inr), ?_⟩
    rintro (old | before | own | new)
    · exact Or.inl old
    · exact Or.inr (Or.inl before)
    · exact Or.inl (listed own)
    · exact Or.inr (Or.inr new)
  rw [added]
  refine ⟨fun h => h.elim (fun own => ?_) id, Or.inr⟩
  obtain ⟨p, hp, rfl⟩ := List.mem_map.1 own
  exact ⟨p, hp, .refl⟩

theorem nodup_withNestedDimensions (once : (given.map (·.name)).Nodup) :
    (all.map (·.name)).Nodup := by
  refine foldlM_except_ok (P := fun all => (all.map (·.name)).Nodup) once
    (fun p _ all next turn known => ?_) h
  obtain ⟨more, -, rfl⟩ := map_except_ok turn
  rw [map_name_foldl_includeDimension]
  exact nodup_foldl_insertName known

theorem hierarchiesOf_withNestedDimensions (name : String) :
    hierarchiesOf name all = hierarchiesOf name given := by
  refine foldlM_except_ok (P := fun all => hierarchiesOf name all = hierarchiesOf name given) rfl
    (fun p _ all next turn known => ?_) h
  obtain ⟨more, -, rfl⟩ := map_except_ok turn
  exact (hierarchiesOf_foldl_includeDimension more all name).trans known

end Nested

end SemanticLayer.Conversion
