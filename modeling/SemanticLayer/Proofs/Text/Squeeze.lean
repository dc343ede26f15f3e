import SemanticLayer.Proofs.Text.Delimited
import SemanticLayer.Proofs.Text.Words

set_option autoImplicit false

/-!
Texts in which one space stands for each run of blanks. Everything that can be said without blanks
is the same before and after; `exists_of_squeeze` finds the parts of a text from those of the other.
-/
namespace SemanticLayer.Text

/-- A text with one space for each run of blanks. -/
def squeeze : List Char → List Char
  | [] => []
  | c :: r =>
    if isBlank c then
      if r.head?.any isBlank then squeeze r else ' ' :: squeeze r
    else c :: squeeze r

@[simp] theorem squeeze_nil : squeeze [] = [] := rfl

theorem squeeze_visible {c : Char} (h : isBlank c = false) (s : List Char) :
    squeeze (c :: s) = c :: squeeze s := by
  simp [squeeze, h]

theorem squeeze_more {c d : Char} (hc : isBlank c = true) (hd : isBlank d = true) (s : List Char) :
    squeeze (c :: d :: s) = squeeze (d :: s) := by
  rw [squeeze]
  simp [hc, hd]

theorem squeeze_last {c : Char} (hc : isBlank c = true) {s : List Char}
    (h : ∀ d ∈ s.head?, isBlank d = false) : squeeze (c :: s) = ' ' :: squeeze s := by
  rw [squeeze]
  cases s with
  | nil => simp [hc]
  | cons d s => simp [hc, h d rfl]

theorem head_squeeze {c : Char} (visible : isBlank c = false) {s : List Char}
    (h : (squeeze s).head? = some c) : s.head? = some c := by
  fun_induction squeeze s with
  | case1 => cases h
  | case2 d s blank more ih =>
    rw [ih h] at more
    simp [visible] at more
  | case3 =>
    cases h
    cases visible
  | case4 => exact h

theorem squeeze_blank {b : List Char} (h : Blank b) (ne : b ≠ []) : squeeze b = [' '] := by
  induction b with
  | nil => exact absurd rfl ne
  | cons c b ih =>
    have first := h c List.mem_cons_self
    cases b with
    | nil => simp [squeeze, first]
    | cons d b =>
      have later : Blank (d :: b) := fun e he => h e (List.mem_cons_of_mem c he)
      rw [squeeze_more first (later d List.mem_cons_self)]
      exact ih later (List.cons_ne_nil d b)

theorem blank_squeeze {b : List Char} (h : Blank b) : Blank (squeeze b) := by
  by_cases ne : b = []
  · rw [ne]
    exact Blank.nil
  · rw [squeeze_blank h ne]
    intro c hc
    rw [List.mem_singleton.1 hc]
    rfl

theorem squeeze_append_cons {c : Char} (h : isBlank c = false) (s t : List Char) :
    squeeze (s ++ c :: t) = squeeze s ++ c :: squeeze t := by
  fun_induction squeeze s with
  | case1 => exact squeeze_visible h t
  | case2 d r blank more ih =>
    cases r with
    | nil => simp at more
    | cons e r =>
      rw [List.cons_append, List.cons_append, squeeze_more blank (by simpa using more)]
      exact ih
  | case3 d r blank last ih =>
    have next : ∀ e ∈ (r ++ c :: t).head?, isBlank e = false := by
      cases r with
      | nil => simpa using h
      | cons e r => simpa using last
    rw [List.cons_append, squeeze_last blank next, ih]
    rfl
  | case4 d r visible ih =>
    rw [List.cons_append, squeeze_visible (by simpa using visible), ih]
    rfl

theorem squeeze_append_tight {s : List Char} (h : Tight s) (before after : List Char) :
    squeeze (before ++ s ++ after) = squeeze before ++ squeeze s ++ squeeze after := by
  obtain ⟨⟨c, r, start, first⟩, q, d, stop, last⟩ := h
  have left : squeeze (before ++ s) = squeeze before ++ squeeze s := by
    rw [start, squeeze_append_cons first, squeeze_visible first]
  have right : squeeze (before ++ s ++ after) = squeeze (before ++ s) ++ squeeze after := by
    rw [stop, ← List.append_assoc, List.append_assoc, List.singleton_append,
      squeeze_append_cons last, squeeze_append_cons last, List.append_assoc]
    rfl
  rw [right, left]

theorem squeeze_tight_append {s : List Char} (h : Tight s) (after : List Char) :
    squeeze (s ++ after) = squeeze s ++ squeeze after :=
  squeeze_append_tight h [] after

theorem tight_squeeze {s : List Char} (h : Tight s) : Tight (squeeze s) := by
  obtain ⟨⟨c, r, start, first⟩, q, d, stop, last⟩ := h
  constructor
  · exact ⟨c, squeeze r, by rw [start, squeeze_visible first], first⟩
  · exact ⟨squeeze q, d, by rw [stop, squeeze_append_cons last, squeeze_nil], last⟩

theorem squeeze_eq_nil_iff {s : List Char} : squeeze s = [] ↔ s = [] := by
  constructor
  · intro h
    fun_induction squeeze s with
    | case1 => rfl
    | case2 d r _ more ih =>
      rw [ih h] at more
      simp at more
    | case3 => cases h
    | case4 => cases h
  · rintro rfl
    rfl

theorem trim_squeeze (s : List Char) : trim (squeeze s) = squeeze (trim s) := by
  obtain ⟨b, b', before, after, shape⟩ := exists_trim_append s
  by_cases empty : trim s = []
  · have blank : Blank s := by
      rw [shape, empty, List.append_nil]
      intro c hc
      exact (List.mem_append.1 hc).elim (before c) (after c)
    have none : trim (squeeze s) = [] := by
      have start := trimStart_append (s := []) (blank_squeeze blank)
      rw [List.append_nil] at start
      rw [trim, start]
      rfl
    rw [none, empty]
    rfl
  · have tight := tight_trim empty
    have parts : squeeze s = squeeze b ++ squeeze (trim s) ++ squeeze b' := by
      rw [← squeeze_append_tight tight, ← shape]
    rw [parts]
    exact trim_of_tight (tight_squeeze tight) (blank_squeeze before) (blank_squeeze after)

theorem squeeze_squeeze (s : List Char) : squeeze (squeeze s) = squeeze s := by
  have head (r : List Char) (h : ¬r.head?.any isBlank = true) :
      ∀ d ∈ (squeeze r).head?, isBlank d = false := by
    cases r with
    | nil => simp
    | cons e r =>
      have visible : isBlank e = false := by simpa using h
      rw [squeeze_visible visible]
      simpa using visible
  fun_induction squeeze s with
  | case1 => rfl
  | case2 d r _ _ ih => exact ih
  | case3 d r _ last ih => rw [squeeze_last rfl (head r last), ih]
  | case4 d r visible ih => rw [squeeze_visible (by simpa using visible), ih]

theorem squeeze_length_le (s : List Char) : (squeeze s).length ≤ s.length := by
  fun_induction squeeze s with
  | case1 => exact Nat.le_refl 0
  | case2 => rw [List.length_cons]; omega
  | case3 => rw [List.length_cons, List.length_cons]; omega
  | case4 => rw [List.length_cons, List.length_cons]; omega

theorem squeeze_within {s t : List Char} (single : squeeze s = s) (part : t <:+: s)
    (tight : Tight t) : squeeze t = t := by
  obtain ⟨before, after, rfl⟩ := part
  rw [squeeze_append_tight tight, List.append_assoc, List.append_assoc] at single
  have lengths := congrArg List.length single
  have left := squeeze_length_le before
  have inner := squeeze_length_le t
  have right := squeeze_length_le after
  simp only [List.length_append] at lengths
  obtain ⟨-, rest⟩ := List.append_inj single (by omega)
  exact (List.append_inj rest (by omega)).1

theorem intercalate_words (s : List Char) : [' '].intercalate (words s) = squeeze (trim s) := by
  induction s with
  | nil => rfl
  | cons c s ih =>
    by_cases hc : isBlank c = true
    · rw [words_cons_blank hc, trim_cons_blank hc, ih]
    rw [Bool.not_eq_true] at hc
    cases s with
    | nil => simp [words, runs, hc, trim_cons_visible hc, trimEnd, squeeze]
    | cons d s =>
      by_cases hd : isBlank d = true
      · rw [words_cons_last hc (by simpa using hd)]
        obtain ⟨b, b', before, after, shape⟩ := exists_trim_append (d :: s)
        by_cases empty : trim (d :: s) = []
        · rw [empty, List.append_nil] at shape
          have blank : Blank (d :: s) := by
            rw [shape]
            intro e he
            exact (List.mem_append.1 he).elim (before e) (after e)
          rw [words_blank blank, trim_cons_visible hc, trimEnd_blank blank,
            squeeze_visible hc]
          rfl
        · have tight := tight_trim empty
          have gap : b ≠ [] := by
            rintro rfl
            obtain ⟨⟨e, r, first, visible⟩, -⟩ := tight
            rw [first] at shape
            cases shape
            rw [visible] at hd
            cases hd
          have more : words (d :: s) ≠ [] := by
            intro none
            rw [none] at ih
            exact empty (squeeze_eq_nil_iff.1 ih.symm)
          obtain ⟨w, ws, some⟩ := List.exists_cons_of_ne_nil more
          have whole : trim (c :: d :: s) = c :: (b ++ trim (d :: s)) := by
            obtain ⟨-, q, e, last, visible⟩ := tight
            have ends : trimEnd (d :: s) = b ++ trim (d :: s) := by
              calc
                trimEnd (d :: s) = trimEnd (b ++ trim (d :: s) ++ b') := congrArg trimEnd shape
                _ = b ++ trim (d :: s) := by
                  rw [trimEnd_append after, last, ← List.append_assoc, trimEnd_concat visible]
            rw [trim_cons_visible hc, ends]
          have inner : squeeze (b ++ trim (d :: s)) = squeeze b ++ squeeze (trim (d :: s)) := by
            have parts := squeeze_append_tight tight b []
            rwa [List.append_nil, squeeze_nil, List.append_nil] at parts
          rw [whole, squeeze_visible hc, inner, squeeze_blank before gap, ← ih, some]
          rfl
      · rw [Bool.not_eq_true] at hd
        obtain ⟨w, ws, first, both⟩ := words_cons_more hc hd s
        have joined : [' '].intercalate ((c :: w) :: ws) = c :: [' '].intercalate (w :: ws) := by
          cases ws <;> rfl
        rw [first, trim_cons_visible hd] at ih
        rw [both, joined, ih, trim_cons_visible hc, trimEnd]
        cases kept : trimEnd s with
        | nil => simp [hd, squeeze_visible hc]
        | cons e r => simp [squeeze_visible hc]

theorem head_blank_squeeze (s : List Char) :
    (squeeze s).head?.any isBlank = s.head?.any isBlank := by
  fun_induction squeeze s with
  | case1 => rfl
  | case2 c s blank more ih => simpa [blank, more] using ih
  | case3 c s blank _ => simp [blank]; rfl
  | case4 => rfl

theorem eq_of_squeeze {s t : List Char} (h : squeeze t = s) (visible : ∀ c ∈ s, isBlank c = false) :
    t = s := by
  subst h
  fun_induction squeeze t with
  | case1 => rfl
  | case2 c s _ more ih =>
    rw [← ih visible] at visible
    cases s with
    | nil => simp at more
    | cons d s =>
      have seen := visible d List.mem_cons_self
      simp [seen] at more
  | case3 c s _ _ _ => cases visible ' ' List.mem_cons_self
  | case4 c s _ ih => rw [← ih fun d hd => visible d (List.mem_cons_of_mem c hd)]

theorem exists_of_squeeze {c : Char} (visible : isBlank c = false) {s u v : List Char}
    (h : squeeze s = u ++ c :: v) :
    ∃ u' v', s = u' ++ c :: v' ∧ squeeze u' = u ∧ squeeze v' = v := by
  fun_induction squeeze s generalizing u with
  | case1 => simp at h
  | case2 d s blank more ih =>
    obtain ⟨u', v', rfl, left, right⟩ := ih h
    cases u' with
    | nil =>
      simp [visible] at more
    | cons e u' =>
      have next : isBlank e = true := by simpa using more
      exact ⟨d :: e :: u', v', rfl, by rw [squeeze_more blank next, left], right⟩
  | case3 d s blank last ih =>
    cases u with
    | nil =>
      cases h
      cases visible
    | cons e u =>
      injection h with space rest
      obtain ⟨u', v', rfl, left, right⟩ := ih rest
      have next : ∀ f ∈ u'.head?, isBlank f = false := by
        intro f found
        simpa [List.head?_append, Option.mem_def.1 found] using last
      exact ⟨d :: u', v', rfl, by rw [squeeze_last blank next, left, space], right⟩
  | case4 d s seen ih =>
    cases u with
    | nil =>
      cases h
      exact ⟨[], s, rfl, rfl, rfl⟩
    | cons e u =>
      injection h with same rest
      obtain ⟨u', v', rfl, left, right⟩ := ih rest
      exact ⟨d :: u', v', rfl, by rw [squeeze_visible (by simpa using seen), left, same], right⟩

theorem getLast?_squeeze {c : Char} (visible : isBlank c = false) (s : List Char) :
    (squeeze s).getLast? = some c ↔ s.getLast? = some c := by
  rw [List.getLast?_eq_some_iff, List.getLast?_eq_some_iff]
  constructor
  · rintro ⟨u, shape⟩
    obtain ⟨u', v', rfl, -, none⟩ := exists_of_squeeze visible shape
    exact ⟨u', by rw [squeeze_eq_nil_iff.1 none]⟩
  · rintro ⟨u, rfl⟩
    exact ⟨squeeze u, squeeze_append_cons visible u []⟩

theorem count_squeeze {c : Char} (visible : isBlank c = false) (s : List Char) :
    (squeeze s).count c = s.count c := by
  have other {d : Char} (blank : isBlank d = true) : d ≠ c := fun same => by
    rw [← same, blank] at visible
    cases visible
  fun_induction squeeze s with
  | case1 => rfl
  | case2 d s blank _ ih => rw [ih, List.count_cons_of_ne (other blank)]
  | case3 d s blank _ ih =>
    rw [List.count_cons_of_ne (other blank), List.count_cons_of_ne (other rfl), ih]
  | case4 d s _ ih => rw [List.count_cons, List.count_cons, ih]

theorem mem_squeeze {c : Char} (visible : isBlank c = false) (s : List Char) :
    c ∈ squeeze s ↔ c ∈ s := by
  rw [← List.count_pos_iff, count_squeeze visible, List.count_pos_iff]

theorem prefix_squeeze {piece : List Char} (visible : ∀ c ∈ piece, isBlank c = false)
    (s : List Char) : piece <+: squeeze s ↔ piece <+: s := by
  induction piece generalizing s with
  | nil => simp
  | cons c piece ih =>
    have first := visible c List.mem_cons_self
    have later := ih fun d hd => visible d (List.mem_cons_of_mem c hd)
    constructor
    · rintro ⟨t, shape⟩
      obtain ⟨u, v, rfl, left, right⟩ := exists_of_squeeze (u := []) first shape.symm
      rw [squeeze_eq_nil_iff.1 left]
      exact List.cons_prefix_cons.2 ⟨rfl, (later v).1 ⟨t, right.symm⟩⟩
    · rintro ⟨t, rfl⟩
      rw [List.cons_append, squeeze_visible first]
      exact List.cons_prefix_cons.2 ⟨rfl, (later (piece ++ t)).2 (List.prefix_append piece t)⟩

theorem squeeze_of_visible {s : List Char} (h : ∀ c ∈ s, isBlank c = false) : squeeze s = s := by
  induction s with
  | nil => rfl
  | cons c s ih =>
    rw [squeeze_visible (h c List.mem_cons_self), ih fun d hd => h d (List.mem_cons_of_mem c hd)]

theorem squeeze_append_visible {piece : List Char} (visible : ∀ c ∈ piece, isBlank c = false)
    (s : List Char) : squeeze (piece ++ s) = piece ++ squeeze s := by
  induction piece with
  | nil => rfl
  | cons c piece ih =>
    rw [List.cons_append, squeeze_visible (visible c List.mem_cons_self),
      ih fun d hd => visible d (List.mem_cons_of_mem c hd), List.cons_append]

theorem countOf_squeeze {c : Char} {piece : List Char}
    (visible : ∀ d ∈ c :: piece, isBlank d = false) (s : List Char) :
    countOf (c :: piece) 0 (squeeze s) = countOf (c :: piece) 0 s := by
  have skip (skipped t : List Char) :
      countOf (c :: piece) skipped.length (skipped ++ t) = countOf (c :: piece) 0 t := by
    induction skipped with
    | nil => rfl
    | cons d skipped ih => exact ih
  have found (t : List Char) :
      countOf (c :: piece) 0 (c :: piece ++ t) = countOf (c :: piece) 0 t + 1 := by
    have start : (c :: piece).isPrefixOf (c :: (piece ++ t)) = true :=
      List.isPrefixOf_iff_prefix.2 ⟨t, rfl⟩
    rw [List.cons_append, countOf, if_pos start]
    exact congrArg (· + 1) (skip piece t)
  have missed {d : Char} {t : List Char} (absent : ¬c :: piece <+: d :: t) :
      countOf (c :: piece) 0 (d :: t) = countOf (c :: piece) 0 t := by
    rw [countOf, if_neg fun start => absent (List.isPrefixOf_iff_prefix.1 start)]
  -- On the length: behind an occurrence the count goes on after all of it.
  induction size : s.length using Nat.strongRecOn generalizing s with
  | _ size ih =>
    subst size
    cases s with
    | nil => rfl
    | cons d s =>
      have rest := ih s.length (Nat.lt_succ_self _) s rfl
      by_cases blank : isBlank d = true
      · have other {e : Char} (he : isBlank e = true) (t : List Char) : ¬c :: piece <+: e :: t := by
          rintro ⟨u, same⟩
          cases same
          rw [visible c List.mem_cons_self] at he
          cases he
        rw [missed (other blank s), squeeze, if_pos blank]
        split
        · exact rest
        · rw [missed (other rfl _), rest]
      · by_cases start : c :: piece <+: d :: s
        · obtain ⟨t, shape⟩ := start
          rw [← shape, squeeze_append_visible visible, found, found]
          have shorter : t.length < (d :: s).length := by
            rw [← shape, List.length_append, List.length_cons]
            omega
          rw [ih t.length shorter t rfl]
        · have absent : ¬c :: piece <+: d :: squeeze s := by
            rw [← squeeze_visible (by simpa using blank), prefix_squeeze visible]
            exact start
          rw [squeeze_visible (by simpa using blank), missed start, missed absent, rest]

theorem Paired.squeeze {close : Char} (visible : isBlank close = false) {s : List Char}
    (h : Paired close s) : Paired close (squeeze s) := by
  have other {d : Char} (blank : isBlank d = true) : d ≠ close := fun same => by
    rw [same, visible] at blank
    cases blank
  induction h with
  | nil => exact .nil
  | @char c s apart _ ih =>
    rw [Text.squeeze]
    split
    · split
      · exact ih
      · exact .char (other rfl) ih
    · exact .char apart ih
  | pair _ ih =>
    rw [squeeze_visible visible, squeeze_visible visible]
    exact .pair ih

theorem squeeze_doubled {close : Char} (visible : isBlank close = false) (s : List Char) :
    squeeze (doubled close s) = doubled close (squeeze s) := by
  induction s with
  | nil => rfl
  | cons c s ih =>
    by_cases same : c = close
    · rw [same, doubled_cons_self, squeeze_visible visible, squeeze_visible visible,
        squeeze_visible visible, ih, doubled_cons_self]
    · have space : ' ' ≠ close := by
        rintro rfl
        cases visible
      rw [doubled_cons_of_ne same, squeeze, squeeze, head?_doubled, ih]
      split
      · split
        · rfl
        · rw [doubled_cons_of_ne space]
      · rw [doubled_cons_of_ne same]

theorem replaceAll_squeeze {x : Char} (visible : isBlank x = false) (s : List Char) :
    replaceAll [x, x] [x] (squeeze s) = squeeze (replaceAll [x, x] [x] s) := by
  have pair (t : List Char) : replaceAll [x, x] [x] (x :: x :: t) = x :: replaceAll [x, x] [x] t :=
    replaceAll_append_self x [x] [x] t
  have single {c : Char} {t : List Char} (h : c = x → t.head? ≠ some x) :
      replaceAll [x, x] [x] (c :: t) = c :: replaceAll [x, x] [x] t := by
    apply replaceAll_cons_of_absent
    rintro ⟨u, same⟩
    cases same
    exact h rfl rfl
  have other {d : Char} (blank : isBlank d = true) : d ≠ x := fun same => by
    rw [same, visible] at blank
    cases blank
  have first (t : List Char) :
      (replaceAll [x, x] [x] t).head?.any isBlank = t.head?.any isBlank := by
    cases t with
    | nil => rfl
    | cons c t =>
      by_cases twice : c = x ∧ t.head? = some x
      · obtain ⟨rfl, next⟩ := twice
        obtain ⟨r, rfl⟩ := List.head?_eq_some_iff.1 next
        rw [pair]
        rfl
      · rw [single fun same next => twice ⟨same, next⟩]
        rfl
  -- A pair is replaced at once, so the text is taken together with one `x` more before it.
  suffices both : replaceAll [x, x] [x] (squeeze s) = squeeze (replaceAll [x, x] [x] s) ∧
      replaceAll [x, x] [x] (squeeze (x :: s)) = squeeze (replaceAll [x, x] [x] (x :: s)) from both.1
  induction s with
  | nil =>
    refine ⟨rfl, ?_⟩
    rw [squeeze_visible visible, squeeze_nil, single (by simp)]
    exact (squeeze_visible visible []).symm
  | cons c s ih =>
    have here : replaceAll [x, x] [x] (squeeze (c :: s)) =
        squeeze (replaceAll [x, x] [x] (c :: s)) := by
      by_cases same : c = x
      · rw [same]
        exact ih.2
      rw [single fun again => absurd again same]
      by_cases blank : isBlank c = true
      · rw [squeeze, squeeze, if_pos blank, if_pos blank, first]
        split
        · exact ih.1
        · rw [single fun again => absurd again (other rfl), ih.1]
      · rw [squeeze_visible (by simpa using blank), squeeze_visible (by simpa using blank),
          single fun again => absurd again same, ih.1]
    refine ⟨here, ?_⟩
    by_cases same : c = x
    · subst same
      rw [squeeze_visible visible, squeeze_visible visible, pair, pair, squeeze_visible visible,
        ih.1]
    · have next : (c :: s).head? ≠ some x := by simpa using same
      have next' : (squeeze (c :: s)).head? ≠ some x := fun found =>
        next (head_squeeze visible found)
      rw [squeeze_visible visible, single fun _ => next', single fun _ => next,
        squeeze_visible visible, here]

end SemanticLayer.Text
