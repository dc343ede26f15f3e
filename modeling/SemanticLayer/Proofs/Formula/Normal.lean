import SemanticLayer.Formula.Normal
import SemanticLayer.Proofs.Text.Words

set_option autoImplicit false

/-!
The normal form of a formula does not depend on the blanks around the formula. It is made of the
words of the lines, and blanks at an end of a text add no word to any of its lines.
-/
namespace SemanticLayer.Formula

open Text (Blank isBlank lines words)

theorem isBlank_ne {c d : Char} (h : isBlank c = true) (hd : isBlank d = false) : c ≠ d :=
  fun same => by
    rw [same, hd] at h
    cases h

def lineWords (line : List Char) : List (List Char) := words (cutComment line)

theorem lineWords_cons {c : Char} (h : isBlank c = true) (line : List Char) :
    lineWords (c :: line) = lineWords line := by
  have cut : cutComment (c :: line) = c :: cutComment line := by
    rw [cutComment]
    · exact fun _ same _ => isBlank_ne h (by decide) same
    · exact fun _ same _ => isBlank_ne h (by decide) same
  rw [lineWords, cut, Text.words_cons_blank h, lineWords]

theorem cutComment_concat {c : Char} (h : isBlank c = true) (line : List Char) :
    cutComment (line ++ [c]) = cutComment line ∨
      cutComment (line ++ [c]) = cutComment line ++ [c] := by
  fun_induction cutComment line with
  | case1 =>
    refine Or.inr ?_
    rw [List.nil_append, cutComment]
    · rfl
    · exact fun _ same _ => isBlank_ne h (by decide) same
    · exact fun _ same _ => isBlank_ne h (by decide) same
  | case2 => exact Or.inl rfl
  | case3 => exact Or.inl rfl
  | case4 d line slash dash ih =>
    have head {e : Char} (he : isBlank e = false) {tail : List Char}
        (starts : line ++ [c] = e :: tail) : ∃ tail, line = e :: tail := by
      cases line with
      | nil =>
        injection starts with same
        exact absurd same (isBlank_ne h he)
      | cons first line =>
        injection starts with same
        exact ⟨line, by rw [same]⟩
    have cut : cutComment (d :: line ++ [c]) = d :: cutComment (line ++ [c]) := by
      rw [List.cons_append, cutComment]
      · intro tail same starts
        obtain ⟨tail, shape⟩ := head rfl starts
        exact slash tail same shape
      · intro tail same starts
        obtain ⟨tail, shape⟩ := head rfl starts
        exact dash tail same shape
    rw [cut]
    exact ih.imp (congrArg (d :: ·)) (congrArg (d :: ·))

theorem lineWords_concat {c : Char} (h : isBlank c = true) (line : List Char) :
    lineWords (line ++ [c]) = lineWords line := by
  rw [lineWords]
  rcases cutComment_concat h line with same | more
  · rw [same, lineWords]
  · rw [more, Text.words_concat h, lineWords]

theorem flatten_eq (s : List Char) :
    flatten s = [' '].intercalate ((lines s).flatMap lineWords) := by
  rw [flatten, Text.words_intercalate, List.flatMap_map]
  rfl

theorem lines_newline (s : List Char) : lines ('\n' :: s) = [] :: lines s := rfl

/-- A line ends before a line feed, and a carriage return right before that belongs to neither. -/
theorem lines_cons {d : Char} (newline : d ≠ '\n') {s l : List Char} {ls : List (List Char)}
    (known : lines s = l :: ls) :
    lines (d :: s) = (if s.head? = some '\n' ∧ d = '\r' then l else d :: l) :: ls := by
  cases s with
  | nil => cases known
  | cons c s =>
    by_cases feed : c = '\n'
    · subst feed
      unfold lines
      simp [newline, known]
    · have apart : ¬((c :: s).head? = some '\n' ∧ d = '\r') := by simp [feed]
      rw [if_neg apart]
      unfold lines
      simp [newline, feed, known]

theorem exists_lines_cons {s : List Char} (some : s ≠ []) : ∃ l ls, lines s = l :: ls := by
  induction s with
  | nil => exact absurd rfl some
  | cons d s ih =>
    by_cases newline : d = '\n'
    · exact ⟨[], lines s, by rw [newline, lines_newline]⟩
    by_cases empty : s = []
    · subst empty
      exact ⟨[d], [], by simp [lines, newline]⟩
    · obtain ⟨l, ls, known⟩ := ih empty
      exact ⟨_, ls, lines_cons newline known⟩

theorem flatMap_lines_cons {c : Char} (h : isBlank c = true) (s : List Char) :
    (lines (c :: s)).flatMap lineWords = (lines s).flatMap lineWords := by
  by_cases newline : c = '\n'
  · rw [newline, lines_newline]
    rfl
  by_cases empty : s = []
  · subst empty
    have alone : lines [c] = [[c]] := by simp [lines, newline]
    rw [alone, List.flatMap_cons, lineWords_cons h]
    rfl
  · obtain ⟨l, ls, known⟩ := exists_lines_cons empty
    rw [lines_cons newline known, known, List.flatMap_cons, List.flatMap_cons]
    split
    · rfl
    · rw [lineWords_cons h]

theorem lines_concat {c : Char} (h : isBlank c = true) {s : List Char} (full : s ≠ []) :
    ∃ l ls l' ls', lines s = l :: ls ∧ lines (s ++ [c]) = l' :: ls' ∧
      (∀ before, lineWords (before ++ l') = lineWords (before ++ l)) ∧
      ls'.flatMap lineWords = ls.flatMap lineWords := by
  have last (before : List Char) : lineWords (before ++ [c]) = lineWords before :=
    lineWords_concat h before
  -- On the text. The first line is still open at its start, hence `before`; a carriage return that
  -- ends the text is the hard case, since a line feed behind it takes it away.
  induction s with
  | nil => exact absurd rfl full
  | cons d s ih =>
    cases s with
    | nil =>
      by_cases newline : d = '\n'
      · subst newline
        refine ⟨[], [], [], lines [c], rfl, rfl, fun _ => rfl, ?_⟩
        exact (flatMap_lines_cons h []).trans rfl
      by_cases ends : c = '\n'
      · subst ends
        refine ⟨[d], [], if d = '\r' then [] else [d], [], by simp [lines, newline],
          by simp [lines, newline], fun before => ?_, rfl⟩
        split
        · rename_i carriage
          subst carriage
          rw [List.append_nil]
          exact (lineWords_concat rfl before).symm
        · rfl
      · refine ⟨[d], [], [d, c], [], by simp [lines, newline],
          by simp [lines, newline, ends], fun before => ?_, rfl⟩
        have more : before ++ [d, c] = (before ++ [d]) ++ [c] := by simp
        rw [more, last]
    | cons e s =>
      obtain ⟨l, ls, l', ls', shape, shape', first, rest⟩ := ih (List.cons_ne_nil e s)
      by_cases newline : d = '\n'
      · refine ⟨[], l :: ls, [], l' :: ls', by rw [newline, lines_newline, shape],
          by rw [newline, List.cons_append, lines_newline, shape'], fun _ => rfl, ?_⟩
        rw [List.flatMap_cons, List.flatMap_cons, rest]
        exact congrArg (· ++ _) (first [])
      · refine ⟨_, ls, _, ls', lines_cons newline shape, lines_cons newline shape', ?_, rest⟩
        intro before
        change lineWords (before ++ if some e = some '\n' ∧ d = '\r' then l' else d :: l') =
          lineWords (before ++ if some e = some '\n' ∧ d = '\r' then l else d :: l)
        split
        · exact first before
        · have longer (m : List Char) : before ++ d :: m = (before ++ [d]) ++ m :=
            List.append_cons before d m
          rw [longer l', longer l]
          exact first _

theorem flatMap_lines_concat {c : Char} (h : isBlank c = true) (s : List Char) :
    (lines (s ++ [c])).flatMap lineWords = (lines s).flatMap lineWords := by
  by_cases empty : s = []
  · subst empty
    exact flatMap_lines_cons h []
  · obtain ⟨l, ls, l', ls', shape, shape', first, rest⟩ := lines_concat h empty
    rw [shape, shape', List.flatMap_cons, List.flatMap_cons, rest]
    exact congrArg (· ++ _) (first [])

theorem flatten_append {b : List Char} (hb : Blank b) (s : List Char) :
    flatten (b ++ s) = flatten s := by
  induction b with
  | nil => rfl
  | cons c b ih =>
    rw [List.cons_append, flatten_eq, flatMap_lines_cons (hb c List.mem_cons_self), ← flatten_eq]
    exact ih fun d hd => hb d (List.mem_cons_of_mem c hd)

theorem flatten_append_blank {b : List Char} (hb : Blank b) (s : List Char) :
    flatten (s ++ b) = flatten s := by
  induction b generalizing s with
  | nil => rw [List.append_nil]
  | cons c b ih =>
    rw [List.append_cons, ih fun d hd => hb d (List.mem_cons_of_mem c hd), flatten_eq,
      flatMap_lines_concat (hb c List.mem_cons_self), ← flatten_eq]

theorem normalize_trim (s : List Char) : normalize (Text.trim s) = normalize s := by
  obtain ⟨b, b', before, after, shape⟩ := Text.exists_trim_append s
  have same : flatten (b ++ Text.trim s ++ b') = flatten (Text.trim s) := by
    rw [List.append_assoc, flatten_append before, flatten_append_blank after]
  rw [← shape] at same
  rw [normalize, normalize, same]

end SemanticLayer.Formula
