import SemanticLayer.Proofs.Text.Blank
import SemanticLayer.Text.LowerCase

set_option autoImplicit false

namespace SemanticLayer.Text

theorem isAlpha_iff (c : Char) :
    c.isAlpha = true ↔ 65 ≤ c.toNat ∧ c.toNat ≤ 90 ∨ 97 ≤ c.toNat ∧ c.toNat ≤ 122 := by
  delta Char.isAlpha Char.isUpper Char.isLower
  simp [UInt32.le_iff_toNat_le]

theorem isBlank_of_isAlpha {c : Char} (h : c.isAlpha = true) : isBlank c = false := by
  have range := (isAlpha_iff c).1 h
  simp only [isBlank, Bool.or_eq_false_iff, Bool.and_eq_false_iff, decide_eq_false_iff_not,
    beq_eq_false_iff_ne]
  omega

theorem toNat_toLower (c : Char) : c.toLower.toNat =
    if 65 ≤ c.toNat ∧ c.toNat ≤ 90 then c.toNat + 32 else c.toNat := by
  by_cases upper : 65 ≤ c.toNat ∧ c.toNat ≤ 90
  · have range : c.val ≥ 'A'.val ∧ c.val ≤ 'Z'.val := upper
    delta Char.toLower
    rw [if_pos upper, dif_pos range]
    change (c.val + ('a'.val - 'A'.val)).toNat = c.val.toNat + 32
    rw [UInt32.toNat_add, Nat.mod_eq_of_lt]
    · rfl
    · have high : c.val.toNat ≤ 90 := upper.2
      change c.val.toNat + 32 < 4294967296
      omega
  · have range : ¬(c.val ≥ 'A'.val ∧ c.val ≤ 'Z'.val) := upper
    delta Char.toLower
    rw [if_neg upper, dif_neg range]

theorem toLower_toLower (c : Char) : c.toLower.toLower = c.toLower := by
  refine Char.toNat_inj.1 ?_
  rw [toNat_toLower c.toLower, toNat_toLower c]
  by_cases upper : 65 ≤ c.toNat ∧ c.toNat ≤ 90
  · rw [if_pos upper, if_neg (by omega)]
  · rw [if_neg upper, if_neg upper]

theorem isAlpha_toLower_iff (c : Char) : c.toLower.isAlpha = true ↔ c.isAlpha = true := by
  rw [isAlpha_iff, isAlpha_iff, toNat_toLower]
  split <;> omega

theorem isAlpha_of_map_toLower {word s : List Char} (h : s.map Char.toLower = word)
    (letters : ∀ c ∈ word, c.isAlpha = true) : ∀ c ∈ s, c.isAlpha = true := by
  intro c hc
  exact (isAlpha_toLower_iff c).1 (letters c.toLower (h ▸ List.mem_map_of_mem hc))

theorem tight_of_isAlpha {s : List Char} (ne : s ≠ []) (letters : ∀ c ∈ s, c.isAlpha = true) :
    Tight s := by
  constructor
  · obtain ⟨c, r, rfl⟩ := List.exists_cons_of_ne_nil ne
    exact ⟨c, r, rfl, isBlank_of_isAlpha (letters c List.mem_cons_self)⟩
  · exact ⟨s.dropLast, s.getLast ne, (List.dropLast_concat_getLast ne).symm,
      isBlank_of_isAlpha (letters _ (List.getLast_mem ne))⟩

theorem eq_or_isAlpha_of_toLower {c d : Char} (h : c.toLower = d.toLower) :
    c = d ∨ c.isAlpha = true ∧ d.isAlpha = true := by
  have same := congrArg Char.toNat h
  rw [toNat_toLower, toNat_toLower] at same
  rw [isAlpha_iff, isAlpha_iff]
  by_cases letter : 65 ≤ c.toNat ∧ c.toNat ≤ 90 ∨ 97 ≤ c.toNat ∧ c.toNat ≤ 122
  · refine Or.inr ⟨letter, ?_⟩
    split at same <;> split at same <;> omega
  · refine Or.inl (Char.toNat_inj.1 ?_)
    split at same <;> split at same <;> omega

theorem isCaseIgnorable_of_isAlpha {c : Char} (h : c.isAlpha = true) :
    isCaseIgnorable c = false := by
  have apart : caseIgnorableRanges.all
      (fun r => r.2 < 65 || (90 < r.1 && r.2 < 97) || 122 < r.1) = true := by decide +kernel
  have range := (isAlpha_iff c).1 h
  change caseIgnorableRanges.any (fun r => r.1 ≤ c.toNat && c.toNat ≤ r.2) = false
  refine List.any_eq_false.2 fun r hr => ?_
  have away := List.all_eq_true.1 apart r hr
  simp only [Bool.or_eq_true, Bool.and_eq_true, decide_eq_true_eq] at away ⊢
  omega

theorem toNat_lt_of_isAlpha {c : Char} (h : c.isAlpha = true) : c.toNat < 0x80 := by
  have range := (isAlpha_iff c).1 h
  omega

theorem isCased_of_isAlpha {c : Char} (h : c.isAlpha = true) : isCased c = true := by
  rw [isCased, if_pos (toNat_lt_of_isAlpha h), h]

theorem lowerChar_of_isAlpha {c : Char} (h : c.isAlpha = true) : lowerChar c = c.toLower :=
  if_pos (toNat_lt_of_isAlpha h)

theorem casedFirst_congr {s t : List Char} (h : s.map Char.toLower = t.map Char.toLower) :
    casedFirst s = casedFirst t := by
  induction s generalizing t with
  | nil =>
    cases t with
    | nil => rfl
    | cons d t => cases h
  | cons c s ih =>
    cases t with
    | nil => cases h
    | cons d t =>
      obtain ⟨first, rest⟩ := List.cons.inj h
      rcases eq_or_isAlpha_of_toLower first with rfl | ⟨hc, hd⟩
      · by_cases ignorable : isCaseIgnorable c = true
        · rw [casedFirst, casedFirst, List.dropWhile_cons_of_pos ignorable,
            List.dropWhile_cons_of_pos ignorable]
          exact ih rest
        · rw [casedFirst, casedFirst, List.dropWhile_cons_of_neg ignorable,
            List.dropWhile_cons_of_neg ignorable]
      · rw [casedFirst, casedFirst,
          List.dropWhile_cons_of_neg (by simp [isCaseIgnorable_of_isAlpha hc]),
          List.dropWhile_cons_of_neg (by simp [isCaseIgnorable_of_isAlpha hd])]
        simp only [isCased_of_isAlpha hc, isCased_of_isAlpha hd]

theorem lowerFrom_congr {b b' s t : List Char} (hb : b.map Char.toLower = b'.map Char.toLower)
    (h : s.map Char.toLower = t.map Char.toLower) : lowerFrom b s = lowerFrom b' t := by
  induction s generalizing b b' t with
  | nil =>
    cases t with
    | nil => rfl
    | cons d t => cases h
  | cons c s ih =>
    cases t with
    | nil => cases h
    | cons d t =>
      obtain ⟨first, rest⟩ := List.cons.inj h
      have inner : lowerFrom (c :: b) s = lowerFrom (d :: b') t :=
        ih (by rw [List.map_cons, List.map_cons, first, hb]) rest
      rcases eq_or_isAlpha_of_toLower first with rfl | ⟨hc, hd⟩
      · rw [lowerFrom, lowerFrom, inner, casedFirst_congr hb, casedFirst_congr rest]
      · have plain {a : Char} (ha : a.isAlpha = true) : a ≠ 'Σ' ∧ a ≠ 'İ' := by
          constructor
          all_goals
            rintro rfl
            cases ha
        rw [lowerFrom, lowerFrom, if_neg (plain hc).1, if_neg (plain hc).2, if_neg (plain hd).1,
          if_neg (plain hd).2, lowerChar_of_isAlpha hc, lowerChar_of_isAlpha hd, first, inner]

/-- Names that meet each other collide as identifiers. -/
theorem lower_eq_of_equalFold {a b : String} (h : equalFold a b = true) : lower a = lower b := by
  have same : a.toList.map Char.toLower = b.toList.map Char.toLower := by
    simpa [equalFold] using h
  rw [lower, lower, lowerFrom_congr rfl same]

theorem equalFold_lowerAscii (s : String) : equalFold s (lowerAscii s) = true := by
  rw [equalFold, lowerAscii, String.toList_ofList, List.map_map, beq_iff_eq]
  exact List.map_congr_left fun c _ => (toLower_toLower c).symm

def IsAscii (s : String) : Prop := ∀ c ∈ s.toList, c.toNat < 0x80

instance (s : String) : Decidable (IsAscii s) :=
  inferInstanceAs (Decidable (∀ c ∈ s.toList, c.toNat < 0x80))

theorem lowerFrom_ascii {s : List Char} (ascii : ∀ c ∈ s, c.toNat < 0x80) (before : List Char) :
    lowerFrom before s = s.map Char.toLower := by
  induction s generalizing before with
  | nil => rfl
  | cons c s ih =>
    have low := ascii c List.mem_cons_self
    have plain : c ≠ 'Σ' ∧ c ≠ 'İ' := by
      constructor
      all_goals
        rintro rfl
        exact absurd low (by decide)
    rw [lowerFrom, if_neg plain.1, if_neg plain.2, lowerChar, if_pos low, List.map_cons,
      ih fun d hd => ascii d (List.mem_cons_of_mem c hd)]

theorem lower_of_isAscii {s : String} (ascii : IsAscii s) : lower s = lowerAscii s := by
  rw [lower, lowerAscii, lowerFrom_ascii ascii]

theorem lower_eq_iff_equalFold {a b : String} (ha : IsAscii a) (hb : IsAscii b) :
    lower a = lower b ↔ equalFold a b = true := by
  rw [lower_of_isAscii ha, lower_of_isAscii hb, equalFold_iff]

end SemanticLayer.Text
