import SemanticLayer.Proofs.Identifier.Registry

set_option autoImplicit false

namespace SemanticLayer.Identifier

open Text (lower)

/-- A name of one or more words of letters and digits, with one underscore between two of them. -/
def IsNormal (name : String) : Prop :=
  ∃ words : List (List Char), words ≠ [] ∧
    (∀ word ∈ words, word ≠ [] ∧ ∀ c ∈ word, isWordChar c = true) ∧
      name.toList = ['_'].intercalate words

theorem isNormal_sanitize (name : String) : IsNormal (sanitize name) := by
  rw [sanitize_eq_words]
  split
  · refine ⟨["unnamed".toList], List.cons_ne_nil _ _, fun word found => ?_, rfl⟩
    obtain rfl := List.mem_singleton.1 found
    exact ⟨by decide, List.all_eq_true.1 rfl⟩
  · rename_i some
    exact ⟨_, some, fun word found => Text.mem_runs found, String.toList_ofList⟩

theorem IsNormal.sanitize_eq {name : String} (h : IsNormal name) : sanitize name = name := by
  obtain ⟨words, some, kept, shape⟩ := h
  have found : Text.runs isWordChar name.toList = words := by
    rw [shape, Text.runs_intercalate_of_kept rfl kept]
  rw [sanitize_eq_words, found, if_neg some, ← shape, String.ofList_toList]

theorem sanitize_eq_self_iff {name : String} : sanitize name = name ↔ IsNormal name := by
  refine ⟨fun same => ?_, IsNormal.sanitize_eq⟩
  rw [← same]
  exact isNormal_sanitize name

instance (name : String) : Decidable (IsNormal name) :=
  decidable_of_iff _ sanitize_eq_self_iff

namespace Registry

variable {r : Registry} {q : Request}

theorem isFree_iff_forall_held {name : String} :
    r.isFree name = true ↔ ∀ g ∈ r.held, lower g.name ≠ lower name := by
  rw [isFree_iff, List.mem_map, not_exists]
  refine forall_congr' fun g => ?_
  rw [not_and, g.folded_eq]

theorem chooseClean_unchanged_iff {name : String} :
    r.chooseClean q = some ⟨name, .unchanged⟩ ↔
      IsNormal q.candidate ∧ r.fits q.candidate = true ∧ r.isFree q.candidate = true ∧
        name = q.candidate := by
  rw [← sanitize_eq_self_iff]
  constructor
  · intro h
    rw [chooseClean] at h
    split at h
    · cases h
    rename_i normal
    split at h
    · rename_i fits
      split at h
      · rename_i free
        cases h
        exact ⟨not_not.1 normal, fits, free, rfl⟩
      · cases h
    · obtain ⟨cut, -, shape⟩ := Option.map_eq_some_iff.1 h
      cases shape
  · rintro ⟨normal, fits, free, rfl⟩
    rw [chooseClean, if_neg (not_not.2 normal), if_pos fits, if_pos free]

theorem choose_unchanged_iff {name : String} :
    r.choose q = some ⟨name, .unchanged⟩ ↔ r.chooseClean q = some ⟨name, .unchanged⟩ := by
  have renamed {found : Option String} : found.map (⟨·, .renamed⟩) ≠
      some (⟨name, .unchanged⟩ : Allocation) := by
    intro h
    obtain ⟨n, -, shape⟩ := Option.map_eq_some_iff.1 h
    cases shape
  rw [choose, Option.orElse_eq_or, Option.orElse_eq_or, Option.or_eq_some_iff,
    Option.or_eq_some_iff]
  refine ⟨?_, Or.inl⟩
  rintro (clean | ⟨-, wished | ⟨-, last⟩⟩)
  · exact clean
  · rw [chooseQualified] at wished
    split at wished
    · split at wished
      · cases wished
      · cases wished
    · exact absurd wished renamed
  · exact absurd last renamed

theorem allocate_unchanged {name : String} (new : r.lookup q.key = none) :
    (r.allocate q).1 = ⟨name, .unchanged⟩ ↔ r.choose q = some ⟨name, .unchanged⟩ := by
  rw [allocate, new]
  cases r.choose q with
  | none => simp
  | some chosen => simp

/-- A name is left alone exactly when it has the normal form, which `sanitize` gives to every name.
A new request is answered as unchanged exactly when its candidate has this form, fits and is held by
nobody, whatever the case of its letters, and then the candidate is the answer. -/
theorem allocate_unchanged_iff :
    (∀ name : String, IsNormal (sanitize name) ∧ sanitize (sanitize name) = sanitize name ∧
      (sanitize name = name ↔ IsNormal name)) ∧
    ∀ (r : Registry) (q : Request), r.lookup q.key = none →
      ((r.allocate q).1.resolution = .unchanged ↔
        IsNormal q.candidate ∧ q.candidate.length ≤ r.maxLength ∧
          ∀ g ∈ r.held, lower g.name ≠ lower q.candidate) ∧
      ((r.allocate q).1.resolution = .unchanged → (r.allocate q).1.name = q.candidate) := by
  refine ⟨fun name => ⟨isNormal_sanitize name, (isNormal_sanitize name).sanitize_eq,
    sanitize_eq_self_iff⟩, fun r q new => ?_⟩
  have answer (name : String) : (r.allocate q).1 = ⟨name, .unchanged⟩ ↔
      IsNormal q.candidate ∧ r.fits q.candidate = true ∧ r.isFree q.candidate = true ∧
        name = q.candidate := by
    rw [allocate_unchanged new, choose_unchanged_iff, chooseClean_unchanged_iff]
  have unchanged (h : (r.allocate q).1.resolution = .unchanged) :
      (r.allocate q).1 = ⟨(r.allocate q).1.name, .unchanged⟩ := by
    rw [← h]
  refine ⟨⟨fun h => ?_, fun ⟨normal, fits, free⟩ => ?_⟩, fun h => ?_⟩
  · obtain ⟨normal, fits, free, -⟩ := (answer _).1 (unchanged h)
    exact ⟨normal, of_decide_eq_true fits, isFree_iff_forall_held.1 free⟩
  · rw [(answer _).2 ⟨normal, decide_eq_true fits, isFree_iff_forall_held.2 free, rfl⟩]
  · exact ((answer _).1 (unchanged h)).2.2.2

/-- "Total_Sales" is kept while nobody holds "TOTAL_SALES", and "Total Sales" is not. -/
theorem allocate_unchanged_iff_total :
    let held : Request := ⟨"Sales", "metric:a", .metric, "", none⟩
    let kept : Request := ⟨"Total_Sales", "metric:b", .metric, "", none⟩
    let spaced : Request := ⟨"Total Sales", "metric:b", .metric, "", none⟩
    let r : Registry := (allocate {} held).2
    (r.allocate kept).1 = ⟨"Total_Sales", .unchanged⟩ ∧
      (r.allocate spaced).1.resolution ≠ .unchanged := by
  intro held kept spaced r
  have first := allocate_unchanged_iff.2 r kept (by decide +kernel)
  have second := allocate_unchanged_iff.2 r spaced (by decide +kernel)
  have unchanged : (r.allocate kept).1.resolution = .unchanged :=
    first.1.2 ⟨by decide +kernel, by decide +kernel, by decide +kernel⟩
  have name : (r.allocate kept).1.name = "Total_Sales" := first.2 unchanged
  have changed : ¬IsNormal spaced.candidate := by decide +kernel
  refine ⟨?_, fun same => changed (second.1.1 same).1⟩
  rw [← name, ← unchanged]

end Registry

end SemanticLayer.Identifier
