import Mathlib.Data.List.Nodup
import Mathlib.Data.List.Perm.Subperm
import SemanticLayer.Proofs.Text.LowerCase

set_option autoImplicit false

namespace SemanticLayer.Text

variable {i j k : Nat} {c : Char}

theorem isDigit_of_mem_toString (h : c ∈ (toString k).toList) : c.isDigit = true :=
  Nat.isDigit_of_mem_toDigits (by decide) (by decide) (Nat.toList_repr ▸ h)

theorem notMem_toString (other : c.isDigit = false) : c ∉ (toString k).toList := fun found => by
  rw [isDigit_of_mem_toString found] at other
  cases other

theorem toLower_of_mem_toString (h : c ∈ (toString k).toList) : c.toLower = c := by
  have high : c.toNat ≤ 57 := (Char.isDigit_iff_toNat.1 (isDigit_of_mem_toString h)).2
  refine Char.toNat_inj.1 ((toNat_toLower c).trans (if_neg ?_))
  omega

theorem map_toLower_toString (k : Nat) :
    (toString k).toList.map Char.toLower = (toString k).toList :=
  (List.map_congr_left fun _ hc => toLower_of_mem_toString hc).trans (List.map_id _)

theorem toString_toList_inj (h : (toString i).toList = (toString j).toList) : i = j := by
  have same : Nat.toDigits 10 i = Nat.toDigits 10 j := by
    rw [← Nat.toList_repr, ← Nat.toList_repr]
    exact h
  rw [← Nat.ofDigitChars_ten_toDigits (n := i), same, Nat.ofDigitChars_ten_toDigits]

theorem le_length_of_forms {form : Nat → String} (inj : Function.Injective form)
    {taken : List String} {n tries : Nat}
    (all : ∀ k, n ≤ k → k < n + tries → form k ∈ taken) : tries ≤ taken.length := by
  have inside : (List.range' n tries).map form ⊆ taken := by
    intro name hn
    obtain ⟨k, hk, rfl⟩ := List.mem_map.1 hn
    obtain ⟨low, high⟩ := List.mem_range'_1.1 hk
    exact all k low high
  have distinct : ((List.range' n tries).map form).Nodup := (List.nodup_range' 1).map inj
  simpa using (distinct.subperm inside).length_le

end SemanticLayer.Text
