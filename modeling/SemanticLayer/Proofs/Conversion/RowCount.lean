import Mathlib.Order.Bounds.Defs
import SemanticLayer.Conversion.State
import SemanticLayer.Proofs.Text.Decimal

set_option autoImplicit false

namespace SemanticLayer.Conversion

open Tabular (Table)
open Text (lowerAscii equalFold)

theorem column?_eq_none_iff {t : Table} {name : String} :
    t.column? name = none ↔ lowerAscii name ∉ t.columns.map fun c => lowerAscii c.name := by
  rw [Table.column?, List.find?_eq_none, List.mem_map]
  constructor
  · rintro free ⟨c, hc, same⟩
    exact free c hc ((Text.equalFold_iff _ _).2 same)
  · intro free c hc fold
    exact free ⟨c, hc, (Text.equalFold_iff _ _).1 fold⟩

theorem numberedColumn_inj (base : String) :
    Function.Injective fun k : Nat => lowerAscii (base ++ "_" ++ toString k) := by
  intro i j h
  simp only [lowerAscii, String.ofList_inj, String.toList_append, List.map_append,
    Text.map_toLower_toString, List.append_right_inj] at h
  exact Text.toString_toList_inj h

/-- The numbers from `n` on that no column of a table has behind a base. -/
def freeNumbers (t : Table) (base : String) (n : Nat) : Set Nat :=
  {k | n ≤ k ∧ t.column? (base ++ "_" ++ toString k) = none}

theorem exists_freeNumber {t : Table} {tries : Nat} (more : t.columns.length < tries)
    (base : String) (n : Nat) : ∃ k ∈ freeNumbers t base n, k < n + tries := by
  -- If all numbered names were taken, the table had more columns than it has.
  by_contra none
  have found (k : Nat) (low : n ≤ k) (high : k < n + tries) :
      lowerAscii (base ++ "_" ++ toString k) ∈ t.columns.map fun c => lowerAscii c.name := by
    by_contra free
    exact none ⟨k, ⟨low, column?_eq_none_iff.2 free⟩, high⟩
  have few := Text.le_length_of_forms (numberedColumn_inj base) found
  rw [List.length_map] at few
  exact Nat.not_lt_of_le few more

theorem exists_isLeast_freeColumnFrom {t : Table} {base : String} {n k tries : Nat}
    (free : k ∈ freeNumbers t base n) (high : k < n + tries) :
    ∃ j, IsLeast (freeNumbers t base n) j ∧ j ≤ k ∧
      freeColumnFrom t base n tries = base ++ "_" ++ toString j := by
  obtain ⟨low, free⟩ := free
  induction tries generalizing n with
  | zero => omega
  | succ tries ih =>
    rw [freeColumnFrom]
    split
    · rename_i here
      exact ⟨n, ⟨⟨Nat.le_refl n, Option.isNone_iff_eq_none.1 here⟩, fun j hj => hj.1⟩, low, rfl⟩
    · rename_i taken
      have later {j : Nat} (hj : j ∈ freeNumbers t base n) : n + 1 ≤ j := by
        refine Nat.lt_of_le_of_ne hj.1 fun same => taken ?_
        rw [same, hj.2]
        rfl
      obtain ⟨j, ⟨least, below⟩, bound, found⟩ := ih (by omega) (later ⟨low, free⟩)
      refine ⟨j, ⟨⟨Nat.le_of_succ_le least.1, least.2⟩, fun i hi => ?_⟩, bound, found⟩
      exact below ⟨later hi, hi.2⟩

/-- The column of ones has the name that is set, unless a column of the table has it, whatever its
case; then it gets the first number that is free. -/
theorem rowCountColumn_first (settings : Settings) (t : Table) :
    let base := settings.datasets.rowCountColumn
    ∃ n ≤ t.columns.length + 1, IsLeast (freeNumbers t base 1) n ∧ rowCountColumn settings t =
      if t.column? base = none then base else base ++ "_" ++ toString n := by
  intro base
  obtain ⟨k, free, high⟩ := exists_freeNumber (Nat.lt_succ_self t.columns.length) base 1
  obtain ⟨n, least, low, found⟩ := exists_isLeast_freeColumnFrom free high
  refine ⟨n, by omega, least, ?_⟩
  simp only [rowCountColumn, Option.isNone_iff_eq_none]
  split
  · rfl
  · exact found

theorem column?_rowCountColumn (settings : Settings) (t : Table) :
    t.column? (rowCountColumn settings t) = none := by
  obtain ⟨n, -, least, named⟩ := rowCountColumn_first settings t
  rw [named]
  split
  · assumption
  · exact least.1.2

theorem rowCountColumn_notMem (settings : Settings) (t : Table) :
    rowCountColumn settings t ∉ t.columns.map (·.name) := by
  intro found
  obtain ⟨c, hc, same⟩ := List.mem_map.1 found
  exact column?_eq_none_iff.1 (column?_rowCountColumn settings t)
    (List.mem_map.2 ⟨c, hc, by rw [same]⟩)

end SemanticLayer.Conversion
