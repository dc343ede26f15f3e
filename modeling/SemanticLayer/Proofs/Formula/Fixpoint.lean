import SemanticLayer.Proofs.Formula.Token

set_option autoImplicit false

namespace SemanticLayer.Text

def SingleSpaced (s : List Char) : Prop :=
  (∀ c ∈ s, isBlank c = true → c = ' ') ∧ ¬[' ', ' '] <:+: s

def Trimmed (s : List Char) : Prop :=
  (∀ c ∈ s.head?, isBlank c = false) ∧ ∀ c ∈ s.getLast?, isBlank c = false

instance (s : List Char) : Decidable (SingleSpaced s) :=
  inferInstanceAs (Decidable (_ ∧ _))

instance (s : List Char) : Decidable (Trimmed s) :=
  inferInstanceAs (Decidable (_ ∧ _))

theorem SingleSpaced.within {s t : List Char} (h : SingleSpaced s) (part : t <:+: s) :
    SingleSpaced t :=
  ⟨fun c hc => h.1 c (part.subset hc), fun twice => h.2 (twice.trans part)⟩

theorem SingleSpaced.tail {c : Char} {s : List Char} (h : SingleSpaced (c :: s)) :
    SingleSpaced s :=
  h.within (List.suffix_cons c s).isInfix

theorem SingleSpaced.not_blank_head {c : Char} {s : List Char} (h : SingleSpaced (c :: s))
    (blank : isBlank c = true) : s.head?.any isBlank = false := by
  rw [← Bool.not_eq_true]
  intro more
  cases s with
  | nil => cases more
  | cons d s =>
    have first : c = ' ' := h.1 c List.mem_cons_self blank
    have second : d = ' ' := h.1 d (by simp) more
    exact h.2 ⟨[], s, by rw [first, second]; rfl⟩

theorem singleSpaced_squeeze (s : List Char) : SingleSpaced (squeeze s) := by
  fun_induction squeeze s with
  | case1 => exact ⟨by simp, by simp⟩
  | case2 c s _ _ ih => exact ih
  | case3 c s _ last ih =>
    refine ⟨List.forall_mem_cons.2 ⟨fun _ => rfl, ih.1⟩, fun twice => ?_⟩
    rcases List.infix_cons_iff.1 twice with start | later
    · obtain ⟨t, same⟩ := start
      have next : (squeeze s).head?.any isBlank = true := by
        rw [← (List.cons.inj same).2]
        rfl
      rw [head_blank_squeeze] at next
      exact last next
    · exact ih.2 later
  | case4 c s visible ih =>
    refine ⟨List.forall_mem_cons.2 ⟨fun blank => absurd blank visible, ih.1⟩, fun twice => ?_⟩
    rcases List.infix_cons_iff.1 twice with start | later
    · obtain ⟨t, same⟩ := start
      exact visible (by rw [← (List.cons.inj same).1]; rfl)
    · exact ih.2 later

theorem squeeze_eq_self_iff {s : List Char} : squeeze s = s ↔ SingleSpaced s := by
  constructor
  · intro h
    rw [← h]
    exact singleSpaced_squeeze s
  · intro h
    induction s with
    | nil => rfl
    | cons c s ih =>
      have rest := ih h.tail
      by_cases blank : isBlank c = true
      · have last := h.not_blank_head blank
        rw [squeeze, if_pos blank, if_neg (by simp [last]), rest,
          h.1 c List.mem_cons_self blank]
      · rw [squeeze_visible (by simpa using blank), rest]

theorem Tight.trimmed {s : List Char} (h : Tight s) : Trimmed s := by
  obtain ⟨⟨c, r, rfl, first⟩, q, d, shape, last⟩ := h
  refine ⟨by simpa using first, ?_⟩
  rw [shape]
  simpa using last

theorem trim_eq_self_iff {s : List Char} : trim s = s ↔ Trimmed s := by
  constructor
  · intro h
    by_cases empty : trim s = []
    · rw [← h, empty]
      exact ⟨by simp, by simp⟩
    · rw [← h]
      exact (tight_trim empty).trimmed
  · rintro ⟨first, last⟩
    cases s with
    | nil => rfl
    | cons c r =>
      refine trim_tight ⟨⟨c, r, rfl, first c rfl⟩, ?_⟩
      have ends := List.dropLast_concat_getLast (List.cons_ne_nil c r)
      exact ⟨_, _, ends.symm, last _ (List.getLast?_eq_some_getLast _)⟩

end SemanticLayer.Text

namespace SemanticLayer.Formula

open Text (SingleSpaced Trimmed squeeze)

/-- A formula without comments, whose blanks are single spaces inside of it. -/
structure IsFlat (s : List Char) : Prop where
  uncommented : Uncommented s
  spaced : SingleSpaced s
  trimmed : Trimmed s

/-- A flat formula that is not one group in parentheses. -/
structure IsNormal (s : List Char) : Prop extends IsFlat s where
  notWrapped : isWrapped s = false

theorem isFlat_flatten (s : List Char) : IsFlat (flatten s) where
  uncommented := (clean_flatten s).2
  spaced := Text.squeeze_eq_self_iff.1 (clean_flatten s).1
  trimmed := by
    rw [← Text.trim_eq_self_iff, flatten_eq_squeeze, Text.trim_squeeze, Text.trim_trim]

theorem IsFlat.trim_within {s t : List Char} (h : IsFlat s) (part : t <:+: s) :
    IsFlat (Text.trim t) where
  uncommented := h.uncommented.within ((Text.trim_within t).trans part)
  spaced := h.spaced.within ((Text.trim_within t).trans part)
  trimmed := Text.trim_eq_self_iff.1 (Text.trim_trim t)

theorem IsFlat.flatten_eq {s : List Char} (h : IsFlat s) : flatten s = s := by
  rw [flatten_eq_squeeze, dropComments_of_uncommented h.uncommented,
    Text.trim_eq_self_iff.2 h.trimmed, Text.squeeze_eq_self_iff.2 h.spaced]

theorem isNormal_unwrap {s : List Char} (h : IsFlat s) : IsNormal (unwrap s) := by
  fun_induction unwrap s with
  | case1 s wrapped ih =>
    obtain ⟨inside, rfl, shape⟩ := exists_of_isWrapped wrapped
    rw [shape] at ih ⊢
    exact ih (h.trim_within ⟨['('], [')'], by simp⟩)
  | case2 s alone => exact ⟨h, by simpa using alone⟩

theorem isNormal_normalize (s : List Char) : IsNormal (normalize s) :=
  isNormal_unwrap (isFlat_flatten s)

theorem IsNormal.normalize_eq {s : List Char} (h : IsNormal s) : normalize s = s := by
  rw [normalize, h.toIsFlat.flatten_eq, unwrap, if_neg (by simp [h.notWrapped])]

/-- The texts that normalizing leads to are those that it leaves as they are. -/
theorem normalize_fixpoint (s : List Char) :
    normalize (normalize s) = normalize s ∧ IsNormal (normalize s) ∧
      (normalize s = s ↔ IsNormal s) := by
  refine ⟨(isNormal_normalize s).normalize_eq, isNormal_normalize s, fun same => ?_,
    IsNormal.normalize_eq⟩
  rw [← same]
  exact isNormal_normalize s

end SemanticLayer.Formula
