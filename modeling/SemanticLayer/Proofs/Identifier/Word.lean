import SemanticLayer.Identifier.Basic
import SemanticLayer.Proofs.Text.Words

set_option autoImplicit false

namespace SemanticLayer

theorem Text.mem_intercalate {separator : List Char} {words : List (List Char)} {c : Char}
    (h : c ∈ separator.intercalate words) : c ∈ separator ∨ ∃ word ∈ words, c ∈ word := by
  induction words with
  | nil => cases h
  | cons word words ih =>
    cases words with
    | nil =>
      rw [List.intercalate_singleton] at h
      exact Or.inr ⟨word, List.mem_singleton_self word, h⟩
    | cons next words =>
      rw [List.intercalate_cons_cons, List.append_assoc] at h
      rcases List.mem_append.1 h with here | later
      · exact Or.inr ⟨word, List.mem_cons_self, here⟩
      rcases List.mem_append.1 later with between | later
      · exact Or.inl between
      · rcases ih later with between | ⟨other, found, inside⟩
        · exact Or.inl between
        · exact Or.inr ⟨other, List.mem_cons_of_mem word found, inside⟩

namespace Identifier

def IsWord (identifier : String) : Prop :=
  ∀ c ∈ identifier.toList, isWordChar c = true ∨ c = '_'

theorem IsWord.notMem {identifier : String} (h : IsWord identifier) {c : Char}
    (special : isWordChar c = false) (other : c ≠ '_') : c ∉ identifier.toList := by
  intro found
  rcases h c found with word | under
  · rw [special] at word
    cases word
  · exact other under

theorem IsWord.append {a b : String} (ha : IsWord a) (hb : IsWord b) : IsWord (a ++ b) := by
  intro c hc
  rw [String.toList_append] at hc
  exact (List.mem_append.1 hc).elim (ha c) (hb c)

theorem head_underscoreRuns {p : Char → Bool} {s : List Char} :
    (underscoreRuns p s).head? = some '_' ↔ ∃ c, s.head? = some c ∧ (p c = true ∨ c = '_') := by
  fun_induction underscoreRuns p s with
  | case1 => simp
  | case2 c s found more ih =>
    obtain ⟨d, first, also⟩ := (Option.any_eq_true _ _).1 more
    simp [ih, first, also, found]
  | case3 c s found last ih => simp [found]
  | case4 c s other ih => simp [other]

theorem ne_underscore {c : Char} (h : isWordChar c = true) : c ≠ '_' := by
  rintro rfl
  cases h

def spaced (s : List Char) : List Char :=
  underscoreRuns (· == '_') (underscoreRuns (fun c => !isWordChar c && c != '_') s)

theorem spaced_word {c : Char} (h : isWordChar c = true) (s : List Char) :
    spaced (c :: s) = c :: spaced s := by
  simp [spaced, underscoreRuns, h, ne_underscore h]

theorem spaced_other {c : Char} (h : isWordChar c = false) (s : List Char) :
    spaced (c :: s) = if (spaced s).head? = some '_' then spaced s else '_' :: spaced s := by
  let illegal (c : Char) : Bool := !isWordChar c && c != '_'
  have collapse (t : List Char) : underscoreRuns (· == '_') ('_' :: t) =
      if (underscoreRuns (· == '_') t).head? = some '_' then underscoreRuns (· == '_') t
      else '_' :: underscoreRuns (· == '_') t := by
    rw [underscoreRuns, if_pos (beq_self_eq_true '_')]
    refine if_congr ?_ rfl rfl
    rw [head_underscoreRuns, Option.any_eq_true]
    simp
  by_cases more : s.head?.any illegal = true ∧ c ≠ '_'
  · obtain ⟨⟨d, first, also⟩, other⟩ := more.imp_left (Option.any_eq_true _ _).1
    have start : (spaced s).head? = some '_' :=
      head_underscoreRuns.2 ⟨'_', head_underscoreRuns.2 ⟨d, first, Or.inl also⟩, Or.inr rfl⟩
    rw [if_pos start, spaced, underscoreRuns, if_pos (by simp [h, other]), if_pos more.1, spaced]
  · have replaced : underscoreRuns illegal (c :: s) = '_' :: underscoreRuns illegal s := by
      rw [underscoreRuns]
      by_cases under : c = '_'
      · simp [under, illegal]
      · rw [if_pos (by simp [illegal, h, under]), if_neg fun first => more ⟨first, under⟩]
    rw [spaced, replaced]
    exact collapse _

/-- The underscore that is left of what stands before the first word. -/
def lead (s : List Char) : List Char := if s.head?.all isWordChar then [] else ['_']

theorem lead_word {c : Char} (h : isWordChar c = true) (s : List Char) : lead (c :: s) = [] :=
  if_pos h

theorem lead_other {c : Char} (h : isWordChar c = false) (s : List Char) :
    lead (c :: s) = ['_'] :=
  if_neg (Bool.eq_false_iff.1 h)

theorem spaced_skipped {c : Char} (hc : isWordChar c = false) {s t : List Char}
    (shape : spaced s = lead s ++ t) : spaced (c :: s) = '_' :: t := by
  rw [spaced_other hc, shape]
  cases s with
  | nil =>
    cases t with
    | nil => rfl
    | cons => cases shape
  | cons d s =>
    cases hd : isWordChar d with
    | false =>
      rw [lead_other hd]
      rfl
    | true =>
      rw [lead_word hd, List.nil_append] at shape ⊢
      rw [← shape, spaced_word hd, if_neg (by simpa using ne_underscore hd)]

/-- Between the words of a text one underscore is left, and perhaps one at either end. -/
theorem spaced_eq (s : List Char) : ∃ after : List Char, (after = [] ∨ after = ['_']) ∧
    (Text.runs isWordChar s = [] → after = []) ∧
      spaced s = lead s ++ (['_'].intercalate (Text.runs isWordChar s) ++ after) := by
  induction s with
  | nil => exact ⟨[], Or.inl rfl, fun _ => rfl, rfl⟩
  | cons c s ih =>
    obtain ⟨after, one, none, shape⟩ := ih
    cases hc : isWordChar c with
    | false =>
      rw [Text.runs_cons_skipped hc, spaced_skipped hc shape, lead_other hc]
      exact ⟨after, one, none, rfl⟩
    | true =>
      rw [spaced_word hc, lead_word hc, shape]
      cases s with
      | nil =>
        obtain rfl := none rfl
        rw [Text.runs_cons_last hc (by simp)]
        exact ⟨[], Or.inl rfl, fun _ => rfl, rfl⟩
      | cons d s =>
        cases hd : isWordChar d with
        | false =>
          rw [Text.runs_cons_last hc (by simpa using hd), lead_other hd]
          cases more : Text.runs isWordChar (d :: s) with
          | nil =>
            obtain rfl := none more
            exact ⟨['_'], Or.inr rfl, (nomatch ·), rfl⟩
          | cons w ws => exact ⟨after, one, (nomatch ·), rfl⟩
        | true =>
          obtain ⟨w, ws, whole, longer⟩ := Text.runs_cons_more hc hd s
          rw [whole, longer, lead_word hd]
          refine ⟨after, one, (nomatch ·), ?_⟩
          cases ws <;> rfl

theorem exists_head_intercalate {words : List (List Char)} (some : words ≠ [])
    (full : ∀ word ∈ words, word ≠ [] ∧ ∀ c ∈ word, isWordChar c = true) :
    ∃ c r, ['_'].intercalate words = c :: r ∧ isWordChar c = true := by
  obtain ⟨word, words, rfl⟩ := List.exists_cons_of_ne_nil some
  obtain ⟨ne, kept⟩ := full word List.mem_cons_self
  obtain ⟨c, word, rfl⟩ := List.exists_cons_of_ne_nil ne
  cases words with
  | nil => exact ⟨c, word, List.intercalate_singleton, kept c List.mem_cons_self⟩
  | cons next words =>
    exact ⟨c, _, List.intercalate_cons_cons.trans rfl, kept c List.mem_cons_self⟩

theorem exists_getLast_intercalate {words : List (List Char)} (some : words ≠ [])
    (full : ∀ word ∈ words, word ≠ [] ∧ ∀ c ∈ word, isWordChar c = true) :
    ∃ s d, ['_'].intercalate words = s ++ [d] ∧ isWordChar d = true := by
  induction words with
  | nil => exact absurd rfl some
  | cons word words ih =>
    cases words with
    | nil =>
      obtain ⟨ne, kept⟩ := full word List.mem_cons_self
      refine ⟨word.dropLast, word.getLast ne, ?_, kept _ (List.getLast_mem ne)⟩
      rw [List.intercalate_singleton, List.dropLast_append_getLast]
    | cons next words =>
      obtain ⟨s, d, shape, last⟩ :=
        ih (List.cons_ne_nil _ _) fun w hw => full w (List.mem_cons_of_mem _ hw)
      exact ⟨word ++ ['_'] ++ s, d,
        by rw [List.intercalate_cons_cons, shape, List.append_assoc _ s], last⟩

theorem trimUnderscores_append {before s after : List Char}
    (left : before = [] ∨ before = ['_']) (right : after = [] ∨ after = ['_'])
    (first : ∃ c r, s = c :: r ∧ isWordChar c = true)
    (last : ∃ r d, s = r ++ [d] ∧ isWordChar d = true) :
    trimUnderscores (before ++ (s ++ after)) = s := by
  have plain {c : Char} (h : isWordChar c = true) : ¬(c == '_') = true := fun under =>
    ne_underscore h (eq_of_beq under)
  have side {side : List Char} (h : side = [] ∨ side = ['_']) : ∀ c ∈ side, (c == '_') = true := by
    rcases h with rfl | rfl <;> simp
  obtain ⟨c, r, start, word⟩ := first
  obtain ⟨q, d, stop, wordLast⟩ := last
  have front : (before ++ (s ++ after)).dropWhile (· == '_') = s ++ after := by
    rw [List.dropWhile_append_of_pos (side left), start, List.cons_append,
      List.dropWhile_cons_of_neg (p := (· == '_')) (plain word)]
  have back : (s ++ after).reverse.dropWhile (· == '_') = s.reverse := by
    rw [List.reverse_append, List.dropWhile_append_of_pos fun c hc =>
      side right c (List.mem_reverse.1 hc), stop, List.reverse_append, List.reverse_singleton,
      List.singleton_append, List.dropWhile_cons_of_neg (p := (· == '_')) (plain wordLast)]
  rw [trimUnderscores, front, back, List.reverse_reverse]

theorem sanitize_eq_words (name : String) : sanitize name =
    if Text.runs isWordChar name.toList = [] then "unnamed"
    else String.ofList (['_'].intercalate (Text.runs isWordChar name.toList)) := by
  obtain ⟨after, one, none, shape⟩ := spaced_eq name.toList
  have before : lead name.toList = [] ∨ lead name.toList = ['_'] := by
    rw [lead]
    split <;> simp
  rw [spaced] at shape
  simp only [sanitize, shape]
  cases words : Text.runs isWordChar name.toList with
  | nil =>
    obtain rfl := none words
    rw [if_pos rfl]
    rcases before with start | start <;> rw [start] <;> rfl
  | cons w ws =>
    have full (word : List Char) (found : word ∈ w :: ws) :=
      Text.mem_runs (words ▸ found : word ∈ Text.runs isWordChar name.toList)
    have first := exists_head_intercalate (List.cons_ne_nil w ws) full
    have last := exists_getLast_intercalate (List.cons_ne_nil w ws) full
    rw [trimUnderscores_append before one first last, if_neg (List.cons_ne_nil w ws)]
    obtain ⟨c, r, joined, -⟩ := first
    rw [joined]

theorem isWord_sanitize (name : String) : IsWord (sanitize name) := by
  rw [sanitize_eq_words]
  split
  · have letters : "unnamed".toList.all isWordChar = true := rfl
    exact fun c hc => Or.inl (List.all_eq_true.1 letters c hc)
  · intro c hc
    rw [String.toList_ofList] at hc
    rcases Text.mem_intercalate hc with between | ⟨word, found, inside⟩
    · exact Or.inr (List.mem_singleton.1 between)
    · exact Or.inl ((Text.mem_runs found).2 c inside)

theorem sanitize_ne_empty (name : String) : sanitize name ≠ "" := by
  rw [sanitize_eq_words]
  split
  · decide
  · rename_i some
    obtain ⟨c, r, shape, -⟩ := exists_head_intercalate some fun _ found => Text.mem_runs found
    intro empty
    rw [shape] at empty
    simpa using congrArg String.toList empty

end Identifier

end SemanticLayer
