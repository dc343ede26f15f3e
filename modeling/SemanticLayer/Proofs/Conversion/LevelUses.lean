import Mathlib.Data.List.Induction
import SemanticLayer.Proofs.Conversion.Drafts

set_option autoImplicit false

namespace SemanticLayer.Conversion

open Tabular (Table Column)
open Text (lower)

section Ranks

variable {A : Type} (rank : A → Nat)

theorem insertByRank_perm (item : A) (items : List A) :
    (insertByRank rank item items).Perm (item :: items) := by
  induction items with
  | nil => exact .refl _
  | cons other rest ih =>
    rw [insertByRank]
    split
    · exact .refl _
    · exact (ih.cons other).trans (.swap item other rest)

theorem pairwise_insertByRank (item : A) {items : List A}
    (h : items.Pairwise (rank · ≤ rank ·)) :
    (insertByRank rank item items).Pairwise (rank · ≤ rank ·) := by
  induction items with
  | nil => exact List.pairwise_singleton _ _
  | cons other rest ih =>
    obtain ⟨first, later⟩ := List.pairwise_cons.1 h
    rw [insertByRank]
    split
    · rename_i less
      refine List.pairwise_cons.2 ⟨fun x hx => ?_, h⟩
      rcases List.mem_cons.1 hx with rfl | inside
      · exact Nat.le_of_lt less
      · exact Nat.le_trans (Nat.le_of_lt less) (first x inside)
    · rename_i more
      refine List.pairwise_cons.2 ⟨fun x hx => ?_, ih later⟩
      rcases List.mem_cons.1 ((insertByRank_perm rank item rest).mem_iff.1 hx) with rfl | inside
      · exact Nat.le_of_not_lt more
      · exact first x inside

theorem filter_insertByRank (item : A) (n : Nat) {items : List A}
    (h : items.Pairwise (rank · ≤ rank ·)) :
    (insertByRank rank item items).filter (rank · = n) =
      (items ++ [item]).filter (rank · = n) := by
  induction items with
  | nil => rfl
  | cons other rest ih =>
    obtain ⟨first, later⟩ := List.pairwise_cons.1 h
    rw [insertByRank]
    split
    · rename_i less
      have behind (m : rank item = n) : (other :: rest).filter (rank · = n) = [] := by
        refine List.filter_eq_nil_iff.2 fun x hx => ?_
        have : rank other ≤ rank x := by
          rcases List.mem_cons.1 hx with rfl | inside
          · exact Nat.le_refl _
          · exact first x inside
        simp
        omega
      by_cases m : rank item = n
      · rw [List.filter_append, behind m, List.filter_cons_of_pos (by simpa using m), behind m]
        simp [m]
      · rw [List.filter_append]
        simp [m]
    · rw [List.cons_append, List.filter_cons, List.filter_cons, ih later]

theorem eq_of_filter_rank {xs ys : List A} (hx : xs.Pairwise (rank · ≤ rank ·))
    (hy : ys.Pairwise (rank · ≤ rank ·))
    (same : ∀ n, xs.filter (rank · = n) = ys.filter (rank · = n)) : xs = ys := by
  induction xs generalizing ys with
  | nil =>
    cases ys with
    | nil => rfl
    | cons y ys => simpa using same (rank y)
  | cons x xs ih =>
    cases ys with
    | nil => simpa using same (rank x)
    | cons y ys =>
      obtain ⟨firstX, laterX⟩ := List.pairwise_cons.1 hx
      obtain ⟨firstY, laterY⟩ := List.pairwise_cons.1 hy
      have mx : x ∈ (y :: ys).filter (rank · = rank x) := same (rank x) ▸ by simp
      have my : y ∈ (x :: xs).filter (rank · = rank y) := same (rank y) ▸ by simp
      have le : rank y ≤ rank x := by
        rcases List.mem_cons.1 (List.mem_of_mem_filter mx) with rfl | inside
        · exact Nat.le_refl _
        · exact firstY x inside
      have ge : rank x ≤ rank y := by
        rcases List.mem_cons.1 (List.mem_of_mem_filter my) with rfl | inside
        · exact Nat.le_refl _
        · exact firstX y inside
      have eq : rank x = rank y := Nat.le_antisymm ge le
      have heads := same (rank x)
      rw [List.filter_cons_of_pos (by simp), List.filter_cons_of_pos (by simp [eq])] at heads
      obtain ⟨rfl, -⟩ := List.cons.inj heads
      refine congrArg (x :: ·) (ih laterX laterY fun n => ?_)
      have both := same n
      by_cases m : rank x = n
      · simpa [m] using both
      · simpa [m] using both

theorem sortByRank_eq_mergeSort (items : List A) :
    sortByRank rank items = items.mergeSort fun a b => rank a ≤ rank b := by
  have insertion : (sortByRank rank items).Pairwise (rank · ≤ rank ·) ∧
      ∀ n, (sortByRank rank items).filter (rank · = n) = items.filter (rank · = n) := by
    induction items using List.reverseRecOn with
    | nil => exact ⟨.nil, fun _ => rfl⟩
    | append_singleton items item ih =>
      rw [sortByRank, List.foldl_concat]
      refine ⟨pairwise_insertByRank rank item ih.1, fun n => ?_⟩
      rw [← sortByRank, filter_insertByRank rank item n ih.1, List.filter_append,
        List.filter_append, ih.2]
  have total (a b : A) : (decide (rank a ≤ rank b) || decide (rank b ≤ rank a)) = true := by
    simp [Nat.le_total]
  have trans (a b c : A) (h : decide (rank a ≤ rank b) = true)
      (h' : decide (rank b ≤ rank c) = true) : decide (rank a ≤ rank c) = true := by
    simp at *
    omega
  have sorted := List.pairwise_mergeSort trans total items
  refine eq_of_filter_rank rank insertion.1 (sorted.imp of_decide_eq_true) fun n => ?_
  -- Items of one rank are in order as they are, so a stable sort leaves them so.
  have alike : (items.filter (rank · = n)).Pairwise fun a b => decide (rank a ≤ rank b) = true := by
    refine List.pairwise_of_forall_mem_list fun a ha b hb => ?_
    simp only [List.mem_filter, decide_eq_true_eq] at ha hb ⊢
    omega
  have inside := (List.sublist_mergeSort trans total alike List.filter_sublist).filter (rank · = n)
  rw [List.filter_filter] at inside
  simp only [Bool.and_self] at inside
  rw [insertion.2]
  exact inside.eq_of_length ((List.mergeSort_perm items _).filter _).length_eq.symm

end Ranks

/-- The use of a column as a level, hidden if only joins ask for it. -/
structure LevelUse where
  column : Column
  label : String
  isHidden : Bool := false

/-- Columns are told apart by their lower-case names. -/
def LevelUse.key (use : LevelUse) : String := lower use.column.name

/-- Of all uses of one column the first. -/
def firstUses : List LevelUse → List LevelUse
  | [] => []
  | use :: rest => use :: (firstUses rest).filter (·.key ≠ use.key)

section FirstUses

variable {use : LevelUse} {uses more : List LevelUse}

theorem firstUses_subset (uses : List LevelUse) : firstUses uses ⊆ uses := by
  induction uses with
  | nil => exact List.Subset.refl _
  | cons use uses ih =>
    exact List.cons_subset_cons use (List.Subset.trans (List.filter_subset_self _) ih)

theorem mem_keys_firstUses {key : String} :
    key ∈ (firstUses uses).map LevelUse.key ↔ key ∈ uses.map LevelUse.key := by
  induction uses with
  | nil => exact Iff.rfl
  | cons use uses ih =>
    simp only [firstUses, List.map_cons, List.mem_cons, List.mem_map, List.mem_filter,
      decide_eq_true_eq] at ih ⊢
    grind

theorem nodup_firstUses (uses : List LevelUse) : ((firstUses uses).map LevelUse.key).Nodup := by
  induction uses with
  | nil => exact .nil
  | cons use uses ih =>
    refine List.nodup_cons.2 ⟨fun inside => ?_, ih.sublist (List.filter_sublist.map _)⟩
    obtain ⟨other, found, same⟩ := List.mem_map.1 inside
    exact of_decide_eq_true (List.mem_filter.1 found).2 same

theorem firstUses_append (uses more : List LevelUse) : firstUses (uses ++ more) =
    firstUses uses ++ (firstUses more).filter fun use => use.key ∉ uses.map LevelUse.key := by
  induction uses with
  | nil => simp [firstUses]
  | cons use uses ih =>
    simp only [firstUses, List.cons_append, ih, List.filter_append, List.filter_filter,
      List.map_cons, List.mem_cons, not_or, Bool.decide_and]

theorem firstUses_concat_of_mem (h : use.key ∈ (firstUses uses).map LevelUse.key) :
    firstUses (uses ++ [use]) = firstUses uses := by
  have known : decide (use.key ∉ uses.map LevelUse.key) = false :=
    decide_eq_false (not_not.2 (mem_keys_firstUses.1 h))
  rw [firstUses_append, firstUses, firstUses, List.filter_nil, List.filter_singleton, known]
  exact List.append_nil _

theorem firstUses_concat_of_not_mem (h : use.key ∉ (firstUses uses).map LevelUse.key) :
    firstUses (uses ++ [use]) = firstUses uses ++ [use] := by
  have new : decide (use.key ∉ uses.map LevelUse.key) = true :=
    decide_eq_true (mt mem_keys_firstUses.2 h)
  rw [firstUses_append, firstUses, firstUses, List.filter_nil, List.filter_singleton, new]
  rfl

theorem firstUses_of_nodup (once : (uses.map LevelUse.key).Nodup) : firstUses uses = uses := by
  induction uses with
  | nil => rfl
  | cons use uses ih =>
    obtain ⟨new, once⟩ := List.nodup_cons.1 once
    rw [firstUses, ih once, List.filter_eq_self.2 fun other inside => ?_]
    exact decide_eq_true fun same => new (same ▸ List.mem_map_of_mem inside)

end FirstUses

/-- The levels that a hierarchy of the model lists, as far as their columns exist. -/
def listedUses (t : Table) (hierarchy : Tabular.Hierarchy) : List LevelUse :=
  (hierarchy.levels.mergeSort fun a b => a.ordinal ≤ b.ordinal).filterMap fun level =>
    (t.column? level.column).map fun c => { column := c, label := level.name }

def joinUses (joins : List Column) : List LevelUse :=
  joins.map fun c => { column := c, label := c.name, isHidden := true }

/-- What a hierarchy is to be: its label and the uses of columns as its levels. -/
structure DrillPath where
  label : String
  folder : Option String := none
  uses : List LevelUse

def DrillPath.isUsable (p : DrillPath) : Bool := !p.uses.isEmpty

/-- The levels that are listed come first, then those that joins ask for; of one column the first
level stays. -/
def sourcePath (t : Table) (joins : List Column) (hierarchy : Tabular.Hierarchy) : DrillPath where
  label := hierarchy.name
  folder := hierarchy.displayFolder
  uses := firstUses (listedUses t hierarchy ++ joinUses joins)

def sourcePaths (t : Table) (joins : List Column) : List DrillPath :=
  (t.hierarchies.map (sourcePath t joins)).filter DrillPath.isUsable

def defaultPath (t : Table) (joins : List Column) : DrillPath where
  label := t.name
  uses := (defaultColumns t joins).map fun c => { column := c, label := c.name }

/-- The paths of the hierarchies in a dimension: those of the model that have levels, or else one
made for the whole table. -/
def drillPaths (t : Table) (joins : List Column) : List DrillPath :=
  if (sourcePaths t joins).isEmpty then [defaultPath t joins].filter DrillPath.isUsable
  else sourcePaths t joins

section Paths

variable {source : Source} {t : Table} {joins : List Column}

theorem mem_sourcePaths {p : DrillPath} : p ∈ sourcePaths t joins ↔
    ∃ h ∈ t.hierarchies, sourcePath t joins h = p ∧ p.isUsable = true := by
  rw [sourcePaths, List.mem_filter, List.mem_map, ← exists_and_right]
  exact exists_congr fun h => and_assoc

theorem cases_of_mem_drillPaths {p : DrillPath} (h : p ∈ drillPaths t joins) :
    p.isUsable = true ∧ ((∃ k ∈ t.hierarchies, p = sourcePath t joins k) ∨
      p = defaultPath t joins) := by
  rw [drillPaths] at h
  split at h
  · obtain ⟨inside, usable⟩ := List.mem_filter.1 h
    exact ⟨usable, Or.inr (List.mem_singleton.1 inside)⟩
  · obtain ⟨k, hk, same, usable⟩ := mem_sourcePaths.1 h
    exact ⟨usable, Or.inl ⟨k, hk, same.symm⟩⟩

theorem column_mem_of_mem_listedUses {h : Tabular.Hierarchy} {use : LevelUse}
    (inside : use ∈ listedUses t h) : use.column ∈ t.columns ∧ use.isHidden = false := by
  obtain ⟨l, -, found⟩ := List.mem_filterMap.1 inside
  obtain ⟨c, known, rfl⟩ := Option.map_eq_some_iff.1 found
  exact ⟨Tabular.Table.mem_of_column? known, rfl⟩

theorem mem_joinUses {use : LevelUse} (inside : use ∈ joinUses joins) :
    use.column ∈ joins ∧ use.isHidden = true := by
  obtain ⟨c, hc, rfl⟩ := List.mem_map.1 inside
  exact ⟨hc, rfl⟩

theorem mem_sourcePath {h : Tabular.Hierarchy} {use : LevelUse}
    (inside : use ∈ (sourcePath t joins h).uses) :
    use ∈ listedUses t h ∨ use ∈ joinUses joins :=
  List.mem_append.1 (firstUses_subset _ inside)

theorem column_mem_of_mem_drillPaths (inside : joins ⊆ t.columns) {p : DrillPath} {use : LevelUse}
    (hp : p ∈ drillPaths t joins) (hu : use ∈ p.uses) : use.column ∈ t.columns := by
  obtain ⟨-, ⟨k, -, rfl⟩ | rfl⟩ := cases_of_mem_drillPaths hp
  · rcases mem_sourcePath hu with listed | joined
    · exact (column_mem_of_mem_listedUses listed).1
    · exact inside (mem_joinUses joined).1
  · obtain ⟨c, hc, rfl⟩ := List.mem_map.1 hu
    exact mem_of_mem_defaultColumns inside hc

theorem keys_joinUses (joins : List Column) :
    (joinUses joins).map LevelUse.key = joins.map fun c => lower c.name :=
  List.map_map

theorem keys_defaultPath (t : Table) (joins : List Column) :
    (defaultPath t joins).uses.map LevelUse.key =
      (defaultColumns t joins).map fun c => lower c.name :=
  List.map_map

theorem key_mem_of_mem_joins {c : Column} (hc : c ∈ joins) {p : DrillPath}
    (hp : p ∈ drillPaths t joins) : lower c.name ∈ p.uses.map LevelUse.key := by
  obtain ⟨-, ⟨k, -, rfl⟩ | rfl⟩ := cases_of_mem_drillPaths hp
  · rw [sourcePath, mem_keys_firstUses, List.map_append, List.mem_append, keys_joinUses]
    exact Or.inr (List.mem_map_of_mem hc)
  · rw [keys_defaultPath]
    exact List.mem_map_of_mem (mem_defaultColumns hc)

theorem nodup_foldl_addColumn {columns start : List Column}
    (once : (start.map (·.name)).Nodup) :
    ((columns.foldl addColumn start).map (·.name)).Nodup := by
  induction columns generalizing start with
  | nil => exact once
  | cons c columns ih =>
    refine ih ?_
    rw [addColumn]
    split
    · exact once
    · rename_i new
      rw [List.map_append, List.map_singleton, ← List.concat_eq_append]
      exact List.Nodup.concat (by simpa using new) once

theorem nodup_joinColumns (columns : t.ColumnsApart) :
    ((joinColumns source t).map fun c => lower c.name).Nodup := by
  have names : ((joinColumns source t).map (·.name)).Nodup := nodup_foldl_addColumn .nil
  refine List.Nodup.map_on (fun c hc c' hc' same => ?_) names.of_map
  exact columns.eq_of_lower (joinColumns_subset source t hc) (joinColumns_subset source t hc') same

theorem nodup_of_mem_drillPaths (once : (joins.map fun c => lower c.name).Nodup) {p : DrillPath}
    (hp : p ∈ drillPaths t joins) : (p.uses.map LevelUse.key).Nodup := by
  obtain ⟨-, ⟨k, -, rfl⟩ | rfl⟩ := cases_of_mem_drillPaths hp
  · exact nodup_firstUses (listedUses t k ++ joinUses joins)
  · rw [keys_defaultPath, defaultColumns]
    split
    · generalize t.keyColumn?.or (t.columns.find? isShown) = chosen
      cases chosen with
      | none => exact .nil
      | some c => exact List.nodup_singleton _
    · exact once

end Paths

end SemanticLayer.Conversion
