import SemanticLayer.Text.Blank

set_option autoImplicit false

namespace SemanticLayer.Text

def Blank (s : List Char) : Prop := ∀ c ∈ s, isBlank c = true

def Tight (s : List Char) : Prop :=
  (∃ c r, s = c :: r ∧ isBlank c = false) ∧ ∃ r c, s = r ++ [c] ∧ isBlank c = false

theorem Blank.nil : Blank [] := fun _ h => nomatch h

theorem Blank.notMem {s : List Char} (h : Blank s) {c : Char} (visible : isBlank c = false) :
    c ∉ s := fun found => by
  have blank := h c found
  rw [visible] at blank
  cases blank

theorem Blank.append_eq_cons {b s r : List Char} (h : Blank b) {c : Char}
    (visible : isBlank c = false) (same : b ++ s = c :: r) : b = [] ∧ s = c :: r := by
  cases b with
  | nil => exact ⟨rfl, same⟩
  | cons d b =>
    cases same
    have blank := h c List.mem_cons_self
    rw [visible] at blank
    cases blank

theorem Tight.ne_nil {s : List Char} (h : Tight s) : s ≠ [] := by
  obtain ⟨⟨c, r, rfl, -⟩, -⟩ := h
  exact List.cons_ne_nil c r

theorem Tight.append {s t : List Char} (hs : Tight s) (middle : List Char) (ht : Tight t) :
    Tight (s ++ middle ++ t) := by
  obtain ⟨⟨c, r, rfl, first⟩, -⟩ := hs
  obtain ⟨-, q, d, rfl, last⟩ := ht
  refine ⟨⟨c, r ++ middle ++ (q ++ [d]), by simp, first⟩, c :: r ++ middle ++ q, d, by simp, last⟩

theorem Tight.singleton {c : Char} (h : isBlank c = false) : Tight [c] :=
  ⟨⟨c, [], rfl, h⟩, [], c, rfl, h⟩

theorem trimStart_append {b s : List Char} (hb : Blank b) : trimStart (b ++ s) = trimStart s := by
  induction b with
  | nil => rfl
  | cons c b ih =>
    rw [List.cons_append, trimStart, List.dropWhile_cons_of_pos (hb c List.mem_cons_self)]
    exact ih fun d hd => hb d (List.mem_cons_of_mem c hd)

theorem trimStart_eq_iff {s t : List Char} :
    trimStart s = t ↔ ∃ b, Blank b ∧ s = b ++ t ∧ ∀ c ∈ t.head?, isBlank c = false := by
  constructor
  · rintro rfl
    refine ⟨s.takeWhile isBlank, ?_, List.takeWhile_append_dropWhile.symm, ?_⟩
    · intro c hc
      exact List.all_eq_true.1 List.all_takeWhile c hc
    · intro c hc
      have first := List.head?_dropWhile_not isBlank s
      rw [trimStart] at hc
      rw [Option.mem_def.1 hc] at first
      simpa using first
  · rintro ⟨b, blank, rfl, visible⟩
    rw [trimStart_append blank]
    cases t with
    | nil => rfl
    | cons c t =>
      have first := visible c rfl
      simp [trimStart, first]

theorem trimEnd_blank {b : List Char} (hb : Blank b) : trimEnd b = [] := by
  induction b with
  | nil => rfl
  | cons c b ih =>
    rw [trimEnd, ih fun d hd => hb d (List.mem_cons_of_mem c hd)]
    exact if_pos (hb c List.mem_cons_self)

theorem trimEnd_append {s b : List Char} (hb : Blank b) : trimEnd (s ++ b) = trimEnd s := by
  induction s with
  | nil => exact trimEnd_blank hb
  | cons c s ih => rw [List.cons_append, trimEnd, trimEnd, ih]

/-- A text is trimmed no further than to its last visible character. -/
theorem trimEnd_append_cons {c : Char} (hc : isBlank c = false) (r t : List Char) :
    trimEnd (r ++ c :: t) = r ++ c :: trimEnd t := by
  induction r with
  | nil =>
    rw [List.nil_append, trimEnd]
    cases trimEnd t <;> simp [hc]
  | cons d r ih =>
    rw [List.cons_append, trimEnd, ih]
    cases r <;> rfl

theorem trimEnd_concat {c : Char} (hc : isBlank c = false) (r : List Char) :
    trimEnd (r ++ [c]) = r ++ [c] :=
  trimEnd_append_cons hc r []

theorem trimEnd_append_tight {s : List Char} (h : Tight s) (t : List Char) :
    trimEnd (s ++ t) = s ++ trimEnd t := by
  obtain ⟨-, r, c, rfl, visible⟩ := h
  have kept := trimEnd_append_cons visible r t
  simpa using kept

theorem trimStart_append_tight {s : List Char} (h : Tight s) (t : List Char) :
    trimStart (s ++ t) = s ++ t := by
  obtain ⟨⟨c, r, rfl, visible⟩, -⟩ := h
  exact List.dropWhile_cons_of_neg (by simp [visible])

theorem trim_of_tight {s before after : List Char} (h : Tight s) (hb : Blank before)
    (ha : Blank after) : trim (before ++ s ++ after) = s := by
  obtain ⟨⟨c, r, start, first⟩, q, d, stop, last⟩ := h
  have kept : trimStart (s ++ after) = s ++ after := by
    rw [start, List.cons_append, trimStart, List.dropWhile_cons_of_neg (by simp [first])]
  rw [trim, List.append_assoc, trimStart_append hb, kept, trimEnd_append ha, stop,
    trimEnd_concat last]

theorem trim_tight {s : List Char} (h : Tight s) : trim s = s := by
  simpa using trim_of_tight h Blank.nil Blank.nil

theorem trim_cons_blank {c : Char} (h : isBlank c = true) (s : List Char) :
    trim (c :: s) = trim s := by
  rw [trim, trim, trimStart, List.dropWhile_cons_of_pos h, trimStart]

theorem trim_cons_visible {c : Char} (h : isBlank c = false) (s : List Char) :
    trim (c :: s) = c :: trimEnd s := by
  rw [trim, trimStart, List.dropWhile_cons_of_neg (by simp [h]), trimEnd]
  cases trimEnd s <;> simp [h]

theorem exists_trimEnd_append (s : List Char) : ∃ b, Blank b ∧ s = trimEnd s ++ b := by
  induction s with
  | nil => exact ⟨[], Blank.nil, rfl⟩
  | cons c s ih =>
    obtain ⟨b, blank, shape⟩ := ih
    rw [trimEnd]
    cases kept : trimEnd s with
    | nil =>
      rw [kept] at shape
      dsimp only
      split
      · rename_i first
        refine ⟨c :: b, fun d hd => ?_, by rw [shape]; rfl⟩
        rcases List.mem_cons.1 hd with rfl | later
        · exact first
        · exact blank d later
      · exact ⟨b, blank, by rw [shape]; rfl⟩
    | cons d r =>
      rw [kept] at shape
      exact ⟨b, blank, congrArg (c :: ·) shape⟩

theorem exists_trim_append (s : List Char) :
    ∃ b b', Blank b ∧ Blank b' ∧ s = b ++ trim s ++ b' := by
  obtain ⟨b', after, shape⟩ := exists_trimEnd_append (trimStart s)
  obtain ⟨b, before, first, -⟩ := trimStart_eq_iff.1 (rfl : trimStart s = _)
  exact ⟨b, b', before, after, by rw [trim, List.append_assoc, ← shape, ← first]⟩

theorem trim_within (s : List Char) : trim s <:+: s := by
  obtain ⟨b, b', -, -, shape⟩ := exists_trim_append s
  exact ⟨b, b', shape.symm⟩

theorem trimEnd_last (s : List Char) : ∀ c ∈ (trimEnd s).getLast?, isBlank c = false := by
  induction s with
  | nil => simp [trimEnd]
  | cons c s ih =>
    rw [trimEnd]
    cases kept : trimEnd s with
    | nil =>
      by_cases blank : isBlank c = true
      · simp [blank]
      · simp [blank]
    | cons d r =>
      rw [kept] at ih
      simpa [List.getLast?_cons_cons] using ih

theorem tight_trim {s : List Char} (h : trim s ≠ []) : Tight (trim s) := by
  obtain ⟨-, -, -, visible⟩ := trimStart_eq_iff.1 (rfl : trimStart s = _)
  constructor
  · cases start : trimStart s with
    | nil =>
      rw [trim, start] at h
      exact absurd rfl h
    | cons c r =>
      rw [start] at visible
      have first := visible c rfl
      rw [trim, start, trimEnd]
      cases trimEnd r with
      | nil => exact ⟨c, [], by simp [first], first⟩
      | cons d t => exact ⟨c, d :: t, rfl, first⟩
  · have last := List.dropLast_concat_getLast h
    refine ⟨(trim s).dropLast, (trim s).getLast h, last.symm, ?_⟩
    exact trimEnd_last (trimStart s) _ (List.getLast?_eq_some_getLast h)

@[simp] theorem trim_trim (s : List Char) : trim (trim s) = trim s := by
  by_cases h : trim s = []
  · rw [h]
    rfl
  · exact trim_tight (tight_trim h)

end SemanticLayer.Text
