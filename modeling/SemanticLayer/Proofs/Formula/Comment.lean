import SemanticLayer.Proofs.Formula.Normal
import SemanticLayer.Proofs.Text.Squeeze

set_option autoImplicit false

namespace SemanticLayer.Text

theorem words_append_of_head {t : List Char} (h : ∀ c ∈ t.head?, isBlank c = true)
    (s : List Char) : words (s ++ t) = words s ++ words t := by
  cases t with
  | nil => simp [words, runs]
  | cons c t => rw [words_append (h c rfl), words_cons_blank (h c rfl)]

end SemanticLayer.Text

namespace SemanticLayer.Formula

open Text (Blank isBlank lines squeeze words)

def startsComment : List Char → Bool
  | '/' :: '/' :: _ => true
  | '-' :: '-' :: _ => true
  | _ => false

/-- A text without its comments, inside of one or outside. The end of a line belongs to no
comment. -/
def dropFrom (inside : Bool) : List Char → List Char
  | [] => []
  | c :: r =>
    if inside then
      if c = '\n' then c :: dropFrom false r else dropFrom true r
    else if startsComment (c :: r) then dropFrom true r
    else c :: dropFrom false r

def dropComments (s : List Char) : List Char := dropFrom false s

def Uncommented (s : List Char) : Prop := ¬['/', '/'] <:+: s ∧ ¬['-', '-'] <:+: s

instance (s : List Char) : Decidable (Uncommented s) :=
  inferInstanceAs (Decidable (_ ∧ _))

theorem startsComment_iff (s : List Char) :
    startsComment s = true ↔ ['/', '/'] <+: s ∨ ['-', '-'] <+: s := by
  unfold startsComment
  split
  · simp [List.cons_prefix_cons]
  · simp [List.cons_prefix_cons]
  · rename_i slash dash
    refine iff_of_false (by simp) ?_
    rintro (⟨t, same⟩ | ⟨t, same⟩)
    · exact slash t same.symm
    · exact dash t same.symm

theorem startsComment_cons_iff {c : Char} {s : List Char} :
    startsComment (c :: s) = true ↔ (c = '/' ∨ c = '-') ∧ s.head? = some c := by
  rw [startsComment_iff]
  cases s with
  | nil => simp
  | cons d s =>
    simp only [List.cons_prefix_cons, List.nil_prefix, and_true, List.head?_cons,
      Option.some.injEq]
    constructor
    · rintro (⟨rfl, rfl⟩ | ⟨rfl, rfl⟩)
      · simp
      · simp
    · rintro ⟨rfl | rfl, rfl⟩
      · simp
      · simp

theorem Uncommented.within {s t : List Char} (h : Uncommented s) (part : t <:+: s) :
    Uncommented t :=
  ⟨fun found => h.1 (found.trans part), fun found => h.2 (found.trans part)⟩

theorem Uncommented.tail {c : Char} {s : List Char} (h : Uncommented (c :: s)) : Uncommented s :=
  h.within (List.suffix_cons c s).isInfix

theorem Uncommented.not_starts {s : List Char} (h : Uncommented s) :
    startsComment s = false := by
  rw [← Bool.not_eq_true, startsComment_iff]
  rintro (found | found)
  · exact h.1 found.isInfix
  · exact h.2 found.isInfix

theorem Uncommented.not_mark {c : Char} {s : List Char} (h : Uncommented (c :: c :: s)) :
    ¬(c = '/' ∨ c = '-') := by
  intro mark
  have start := startsComment_cons_iff.2 ⟨mark, (rfl : (c :: s).head? = some c)⟩
  rw [h.not_starts] at start
  cases start

theorem uncommented_cons {c : Char} {s : List Char} (here : startsComment (c :: s) = false)
    (h : Uncommented s) : Uncommented (c :: s) := by
  rw [← Bool.not_eq_true, startsComment_iff, not_or] at here
  constructor
  · intro found
    exact (List.infix_cons_iff.1 found).elim here.1 h.1
  · intro found
    exact (List.infix_cons_iff.1 found).elim here.2 h.2

theorem uncommented_append_cons {c : Char} (plain : c ≠ '/' ∧ c ≠ '-') {s t : List Char} :
    Uncommented (s ++ c :: t) ↔ Uncommented s ∧ Uncommented t := by
  have slash : c ∉ ['/', '/'] := by simpa using plain.1
  have dash : c ∉ ['-', '-'] := by simpa using plain.2
  simp only [Uncommented, Text.infix_append_cons slash, Text.infix_append_cons dash]
  tauto

theorem uncommented_of_blank {b : List Char} (h : Blank b) : Uncommented b :=
  ⟨fun found => h.notMem (c := '/') rfl (found.subset List.mem_cons_self),
    fun found => h.notMem (c := '-') rfl (found.subset List.mem_cons_self)⟩

theorem startsComment_of_head {c : Char} {s t : List Char} (h : startsComment (c :: s) = false)
    (shorter : ∀ d, isBlank d = false → t.head? = some d → s.head? = some d) :
    startsComment (c :: t) = false := by
  rw [← Bool.not_eq_true, startsComment_cons_iff] at h ⊢
  rintro ⟨mark, next⟩
  apply h ⟨mark, shorter c _ next⟩
  rcases mark with rfl | rfl <;> rfl

theorem startsComment_blank {c : Char} (h : isBlank c = true) (s : List Char) :
    startsComment (c :: s) = false := by
  rw [← Bool.not_eq_true, startsComment_cons_iff]
  rintro ⟨rfl | rfl, -⟩
  · cases h
  · cases h

theorem uncommented_squeeze {s : List Char} (h : Uncommented s) : Uncommented (squeeze s) := by
  fun_induction squeeze s with
  | case1 => exact h
  | case2 c s _ _ ih => exact ih h.tail
  | case3 c s _ _ ih => exact uncommented_cons (startsComment_blank rfl _) (ih h.tail)
  | case4 c s _ ih =>
    refine uncommented_cons ?_ (ih h.tail)
    exact startsComment_of_head h.not_starts fun d visible => Text.head_squeeze visible

theorem dropComments_cons {c : Char} {s : List Char} (h : startsComment (c :: s) = false) :
    dropComments (c :: s) = c :: dropComments s := by
  simp [dropComments, dropFrom, h]

theorem dropFrom_true (s : List Char) :
    dropFrom true s = dropComments (s.dropWhile (· ≠ '\n')) := by
  induction s with
  | nil => rfl
  | cons c s ih =>
    by_cases newline : c = '\n'
    · subst newline
      rfl
    · rw [dropFrom, if_pos rfl, if_neg newline, ih,
        List.dropWhile_cons_of_pos (by simpa using newline)]

theorem head_dropComments {c : Char} {s : List Char} (h : (dropComments s).head? = some c) :
    s.head? = some c ∨ c = '\n' := by
  cases s with
  | nil => cases h
  | cons d s =>
    by_cases start : startsComment (d :: s) = true
    · have cut : dropComments (d :: s) = dropFrom true s := by simp [dropComments, dropFrom, start]
      rw [cut] at h
      clear cut start
      induction s with
      | nil => cases h
      | cons e s ih =>
        by_cases newline : e = '\n'
        · rw [dropFrom, if_pos rfl, if_pos newline] at h
          exact Or.inr ((Option.some.inj h).symm.trans newline)
        · rw [dropFrom, if_pos rfl, if_neg newline] at h
          exact ih h
    · rw [dropComments_cons (by simpa using start)] at h
      exact Or.inl h

theorem uncommented_dropFrom (inside : Bool) (s : List Char) : Uncommented (dropFrom inside s) := by
  induction s generalizing inside with
  | nil => exact ⟨by simp [dropFrom], by simp [dropFrom]⟩
  | cons c s ih =>
    rw [dropFrom]
    split
    · split
      · rename_i newline
        subst newline
        exact uncommented_cons (startsComment_blank (by decide) _) (ih false)
      · exact ih true
    · split
      · exact ih true
      · rename_i start
        refine uncommented_cons ?_ (ih false)
        rw [← Bool.not_eq_true, startsComment_cons_iff]
        rintro ⟨mark, next⟩
        rcases head_dropComments next with same | rfl
        · exact start (startsComment_cons_iff.2 ⟨mark, same⟩)
        · simp at mark

theorem uncommented_dropComments (s : List Char) : Uncommented (dropComments s) :=
  uncommented_dropFrom false s

theorem dropComments_append {p : List Char} (h : Uncommented p)
    (last : ∀ c ∈ p.getLast?, c ≠ '/' ∧ c ≠ '-') (rest : List Char) :
    dropComments (p ++ rest) = p ++ dropComments rest := by
  induction p with
  | nil => rfl
  | cons c p ih =>
    have plain : startsComment (c :: (p ++ rest)) = false := by
      rw [← Bool.not_eq_true, startsComment_cons_iff]
      rintro ⟨mark, next⟩
      cases p with
      | nil =>
        obtain ⟨slash, dash⟩ := last c rfl
        exact mark.elim slash dash
      | cons d p =>
        have starts : startsComment (c :: d :: p) = true := startsComment_cons_iff.2 ⟨mark, next⟩
        rw [h.not_starts] at starts
        cases starts
    have later : ∀ d ∈ p.getLast?, d ≠ '/' ∧ d ≠ '-' := by
      intro d found
      apply last
      cases p with
      | nil => cases found
      | cons e p => rwa [List.getLast?_cons_cons]
    rw [List.cons_append, dropComments_cons plain, ih h.tail later, List.cons_append]

theorem dropComments_of_uncommented {s : List Char} (h : Uncommented s) : dropComments s = s := by
  induction s with
  | nil => rfl
  | cons c s ih => rw [dropComments_cons h.not_starts, ih h.tail]

theorem cutComment_cons (c : Char) (line : List Char) :
    cutComment (c :: line) = if startsComment (c :: line) then [] else c :: cutComment line := by
  rw [startsComment.eq_def]
  split
  · rename_i same
    cases same
    rfl
  · rename_i same
    cases same
    rfl
  · rename_i slash dash
    rw [cutComment]
    · rfl
    · rintro rest rfl rfl
      exact slash _ rfl
    · rintro rest rfl rfl
      exact dash _ rfl

theorem head_lines {s l : List Char} {ls : List (List Char)} (known : lines s = l :: ls) {c : Char}
    (visible : isBlank c = false) : l.head? = some c ↔ s.head? = some c := by
  cases s with
  | nil => cases known
  | cons d s =>
    by_cases newline : d = '\n'
    · subst newline
      cases known
      refine iff_of_false (by simp) ?_
      rintro ⟨⟩
      cases visible
    by_cases empty : s = []
    · subst empty
      have alone : lines [d] = [[d]] := by simp [lines, newline]
      rw [alone] at known
      cases known
      rfl
    · obtain ⟨l', ls', rest⟩ := exists_lines_cons empty
      rw [lines_cons newline rest] at known
      cases known
      split
      · rename_i carriage
        obtain ⟨next, rfl⟩ := carriage
        have first : l' = [] := by
          obtain ⟨t, rfl⟩ := List.head?_eq_some_iff.1 next
          cases rest
          rfl
        rw [first]
        refine iff_of_false (by simp) ?_
        rintro ⟨⟩
        cases visible
      · rfl

theorem lines_eq_nil_iff {s : List Char} : lines s = [] ↔ s = [] := by
  constructor
  · intro none
    refine Decidable.byContradiction fun some => ?_
    obtain ⟨l, ls, more⟩ := exists_lines_cons some
    rw [none] at more
    cases more
  · rintro rfl
    rfl

/-- A first line that is kept up to its comment, before what the other lines are words of. -/
def Opens (s l : List Char) (ls : List (List Char)) : Prop :=
  ∃ tail, dropComments s = cutComment l ++ tail ∧ (∀ c ∈ tail.head?, isBlank c = true) ∧
    words tail = ls.flatMap lineWords

theorem words_dropComments {s : List Char} (h : ∀ l ls, lines s = l :: ls → Opens s l ls) :
    words (dropComments s) = (lines s).flatMap lineWords := by
  cases known : lines s with
  | nil =>
    rw [lines_eq_nil_iff.1 known]
    rfl
  | cons l ls =>
    obtain ⟨tail, shape, parted, kept⟩ := h l ls known
    rw [shape, Text.words_append_of_head parted, kept]
    rfl

theorem opens_lines {s l : List Char} {ls : List (List Char)} (known : lines s = l :: ls) :
    Opens s l ls ∧ (∀ c ∈ (dropFrom true s).head?, isBlank c = true) ∧
      words (dropFrom true s) = ls.flatMap lineWords := by
  -- On the text. In a comment the rest of the line counts for nothing, so both readings of the text
  -- go on together; a carriage return before the end of the line is the only one that differs.
  induction s generalizing l ls with
  | nil => cases known
  | cons c s ih =>
    by_cases newline : c = '\n'
    · subst newline
      cases known
      have rest : words (dropComments s) = (lines s).flatMap lineWords :=
        words_dropComments fun l ls more => (ih more).1
      have ended : words ('\n' :: dropComments s) = (lines s).flatMap lineWords := by
        rw [Text.words_cons_blank rfl, rest]
      have feed : ∀ d ∈ ('\n' :: dropComments s).head?, isBlank d = true := by simp; decide
      exact ⟨⟨'\n' :: dropComments s, rfl, feed, ended⟩, feed, ended⟩
    by_cases empty : s = []
    · subst empty
      have alone : lines [c] = [[c]] := by simp [lines, newline]
      rw [alone] at known
      cases known
      have inside : dropFrom true [c] = [] := by simp [dropFrom, newline]
      have outside : dropComments [c] = cutComment [c] := by
        simp [dropComments, dropFrom, cutComment_cons, cutComment]
      rw [inside]
      exact ⟨⟨[], by rw [outside, List.append_nil], by simp, rfl⟩, by simp, rfl⟩
    obtain ⟨l', ls', rest⟩ := exists_lines_cons empty
    obtain ⟨⟨tail, shape, parted, kept⟩, parted', kept'⟩ := ih rest
    have inside : dropFrom true (c :: s) = dropFrom true s := by simp [dropFrom, newline]
    rw [lines_cons newline rest] at known
    cases known
    rw [inside]
    refine ⟨?_, parted', kept'⟩
    split
    · rename_i carriage
      obtain ⟨next, rfl⟩ := carriage
      obtain ⟨t, rfl⟩ := List.head?_eq_some_iff.1 next
      cases rest
      refine ⟨'\r' :: tail, ?_, by simp; decide, ?_⟩
      · rw [dropComments_cons (startsComment_blank rfl _), shape]
        rfl
      · rw [Text.words_cons_blank rfl, kept]
    · have same : startsComment (c :: l') = startsComment (c :: s) := by
        rw [Bool.eq_iff_iff, startsComment_cons_iff, startsComment_cons_iff]
        refine and_congr_right fun mark => head_lines rest ?_
        rcases mark with rfl | rfl <;> rfl
      rw [Opens, cutComment_cons, same]
      by_cases start : startsComment (c :: s) = true
      · rw [if_pos start]
        have cut : dropComments (c :: s) = dropFrom true s := by
          simp [dropComments, dropFrom, start]
        exact ⟨dropFrom true s, cut, parted', kept'⟩
      · rw [if_neg start]
        refine ⟨tail, ?_, parted, kept⟩
        rw [dropComments_cons (by simpa using start), shape]
        rfl

/-- The words of the lines are those of the text without its comments. -/
theorem flatten_eq_squeeze (s : List Char) : flatten s = squeeze (Text.trim (dropComments s)) := by
  rw [flatten_eq, ← Text.intercalate_words]
  exact congrArg _ (words_dropComments fun l ls known => (opens_lines known).1).symm

end SemanticLayer.Formula
