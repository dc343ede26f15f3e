import Mathlib.Data.List.Basic
import SemanticLayer.Text.Search

set_option autoImplicit false

namespace SemanticLayer.Text

theorem takeWhile_of_head {p : Char → Bool} {s rest : List Char} (run : ∀ c ∈ s, p c = true)
    (stop : ∀ c ∈ rest.head?, p c = false) :
    (s ++ rest).takeWhile p = s ∧ (s ++ rest).dropWhile p = rest := by
  rw [List.takeWhile_append_of_pos run, List.dropWhile_append_of_pos run]
  cases rest with
  | nil => exact ⟨List.append_nil s, rfl⟩
  | cons c rest =>
    have other : ¬p c = true := by simp [stop c rfl]
    rw [List.takeWhile_cons_of_neg other, List.dropWhile_cons_of_neg other, List.append_nil]
    exact ⟨rfl, rfl⟩

theorem takeWhile_of_notMem {c : Char} {s : List Char} (free : c ∉ s) (rest : List Char) :
    (s ++ c :: rest).takeWhile (· ≠ c) = s ∧ (s ++ c :: rest).dropWhile (· ≠ c) = c :: rest := by
  refine takeWhile_of_head (fun d hd => ?_) fun d hd => ?_
  · simpa using fun eq : d = c => free (eq ▸ hd)
  · cases hd
    simp

theorem occursIn_iff_infix {piece s : List Char} : occursIn piece s = true ↔ piece <:+: s := by
  induction s with
  | nil => rw [occursIn, List.isEmpty_iff, List.infix_nil]
  | cons c s ih =>
    rw [occursIn, Bool.or_eq_true, List.isPrefixOf_iff_prefix, ih, List.infix_cons_iff]

theorem splitFirst_of_notMem {c : Char} {s : List Char} (free : c ∉ s) (rest : List Char) :
    splitFirst [c] (s ++ c :: rest) = some (s, rest) := by
  induction s with
  | nil => simp [splitFirst]
  | cons d s ih =>
    obtain ⟨other, free⟩ := List.ne_and_not_mem_of_not_mem_cons free
    have next : [c].isPrefixOf (d :: (s ++ c :: rest)) = false := by
      simpa [List.isPrefixOf] using other
    rw [List.cons_append, splitFirst, next, ih free]
    rfl

theorem splitFirst_eq_none {c : Char} {piece s : List Char} (free : ¬c :: piece <:+: s) :
    splitFirst (c :: piece) s = none := by
  induction s with
  | nil => rfl
  | cons d s ih =>
    have here : ¬(c :: piece).isPrefixOf (d :: s) = true := fun found =>
      free (List.isPrefixOf_iff_prefix.1 found).isInfix
    have later : ¬c :: piece <:+: s := fun found =>
      free (found.trans (List.suffix_cons d s).isInfix)
    rw [splitFirst, if_neg here, ih later]
    rfl

/-- A piece whose first character does not come again cannot start before its first occurrence and
end within it. -/
theorem splitFirst_append {c : Char} {piece before : List Char} (once : c ∉ piece)
    (free : ¬c :: piece <:+: before) (rest : List Char) :
    splitFirst (c :: piece) (before ++ (c :: piece ++ rest)) = some (before, rest) := by
  induction before with
  | nil =>
    have found : (c :: piece).isPrefixOf (c :: (piece ++ rest)) = true :=
      List.isPrefixOf_iff_prefix.2 (List.prefix_append (c :: piece) rest)
    rw [List.nil_append, List.cons_append, splitFirst, if_pos found]
    simp
  | cons d before ih =>
    have later : ¬c :: piece <:+: before := fun found =>
      free (found.trans (List.suffix_cons d before).isInfix)
    have here : ¬(c :: piece).isPrefixOf (d :: (before ++ (c :: piece ++ rest))) = true := by
      intro found
      obtain ⟨rfl, inner⟩ := List.cons_prefix_cons.1 (List.isPrefixOf_iff_prefix.1 found)
      obtain short | ⟨beyond, rfl⟩ := List.prefix_or_prefix_of_prefix inner
        (List.prefix_append before (c :: piece ++ rest))
      · exact free (List.cons_prefix_cons.2 ⟨rfl, short⟩).isInfix
      · cases beyond with
        | nil => exact free (by simp)
        | cons e beyond =>
          obtain ⟨rfl, -⟩ := List.cons_prefix_cons.1 ((List.prefix_append_right_inj before).1 inner)
          exact once (by simp)
    rw [List.cons_append, splitFirst, if_neg here, ih later]
    rfl

theorem notInfix_of_splitFirst {piece s before after : List Char} (nonempty : piece ≠ [])
    (h : splitFirst piece s = some (before, after)) : ¬piece <:+: before := by
  induction s generalizing before with
  | nil =>
    rw [splitFirst, if_neg (by simpa using nonempty)] at h
    cases h
  | cons d s ih =>
    rw [splitFirst] at h
    split at h
    · cases h
      intro found
      exact nonempty (List.infix_nil.1 found)
    · rename_i absent
      obtain ⟨⟨b, a⟩, inner, same⟩ := Option.map_eq_some_iff.1 h
      cases same
      intro found
      rcases List.infix_cons_iff.1 found with here | later
      · have start : d :: b <+: d :: s := by
          rw [splitFirst_eq_append inner, List.append_assoc]
          exact List.prefix_append (d :: b) _
        exact absent (List.isPrefixOf_iff_prefix.2 (here.trans start))
      · exact ih inner later

/-- The first occurrence of a piece whose first character does not come again. -/
theorem splitFirst_eq_some_iff {c : Char} {piece s before after : List Char} (once : c ∉ piece) :
    splitFirst (c :: piece) s = some (before, after) ↔
      s = before ++ (c :: piece ++ after) ∧ ¬c :: piece <:+: before := by
  constructor
  · intro h
    have shape := splitFirst_eq_append h
    rw [List.append_assoc] at shape
    exact ⟨shape, notInfix_of_splitFirst (List.cons_ne_nil c piece) h⟩
  · rintro ⟨rfl, free⟩
    exact splitFirst_append once free after

theorem replaceAll_of_notMem {c : Char} {piece s : List Char} (free : c ∉ s)
    (replacement : List Char) : replaceAll (c :: piece) replacement s = s := by
  induction s with
  | nil => rfl
  | cons d s ih =>
    obtain ⟨other, free⟩ := List.ne_and_not_mem_of_not_mem_cons free
    have next : ¬c :: piece <+: d :: s := fun h => other (List.cons_prefix_cons.1 h).1
    rw [replaceAll_cons_of_absent next, ih free]

/-- A text is passed over when the piece can neither start in it nor reach beyond its end. -/
theorem replaceAll_append {piece s : List Char}
    (apart : ∀ t, t <:+ s → t ≠ [] → ¬t <+: piece ∧ ¬piece <+: t) (replacement rest : List Char) :
    replaceAll piece replacement (s ++ rest) = s ++ replaceAll piece replacement rest := by
  induction s with
  | nil => rfl
  | cons c s ih =>
    have here : ¬piece <+: c :: (s ++ rest) := fun found => by
      have inner : c :: s <+: c :: (s ++ rest) := List.prefix_append (c :: s) rest
      obtain ⟨short, long⟩ := apart (c :: s) List.suffix_rfl (List.cons_ne_nil c s)
      exact (List.prefix_or_prefix_of_prefix found inner).elim long short
    rw [List.cons_append, replaceAll_cons_of_absent here,
      ih fun t ht => apart t (ht.trans (List.suffix_cons c s))]
    rfl

theorem splitClose_cons_of_ne {c d : Char} (h : d ≠ c) {s inside rest : List Char}
    (found : splitClose c s = some (inside, rest)) :
    splitClose c (d :: s) = some (d :: inside, rest) := by
  cases s with
  | nil => simp [splitClose] at found
  | cons e s => rw [splitClose, if_neg h, found]; rfl

theorem splitClose_append_of_notMem {c : Char} {s : List Char} (free : c ∉ s)
    {t inside rest : List Char} (found : splitClose c t = some (inside, rest)) :
    splitClose c (s ++ t) = some (s ++ inside, rest) := by
  induction s with
  | nil => exact found
  | cons d s ih =>
    obtain ⟨other, free⟩ := List.ne_and_not_mem_of_not_mem_cons free
    exact splitClose_cons_of_ne (Ne.symm other) (ih free)

theorem splitClose_of_head {c : Char} {rest : List Char} (apart : rest.head? ≠ some c) :
    splitClose c (c :: rest) = some ([], rest) := by
  cases rest with
  | nil => simp [splitClose]
  | cons d rest =>
    have other : d ≠ c := fun h => apart (congrArg some h)
    simp [splitClose, other]

/-- A name without its closing character ends at the first one, unless another one follows. -/
theorem splitClose_of_notMem {c : Char} {s rest : List Char} (free : c ∉ s)
    (apart : rest.head? ≠ some c) : splitClose c (s ++ c :: rest) = some (s, rest) := by
  simpa using splitClose_append_of_notMem free (splitClose_of_head apart)

theorem startsFold_iff (start s : List Char) :
    startsFold start s = true ↔ start.map Char.toLower <+: s.map Char.toLower := by
  induction start generalizing s with
  | nil => simp [startsFold]
  | cons a start ih =>
    cases s with
    | nil => simp [startsFold]
    | cons b s => simp [startsFold, ih, List.cons_prefix_cons]

theorem eq_of_prefix_of_notMem {c : Char} {s t rest : List Char} (hs : c ∉ s) (ht : c ∉ t)
    (h : s ++ [c] <+: t ++ c :: rest) : s = t := by
  induction s generalizing t with
  | nil =>
    cases t with
    | nil => rfl
    | cons d t => exact absurd (List.cons_prefix_cons.1 h).1 (List.ne_of_not_mem_cons ht)
  | cons a s ih =>
    cases t with
    | nil => exact absurd (List.cons_prefix_cons.1 h).1.symm (List.ne_of_not_mem_cons hs)
    | cons d t =>
      obtain ⟨rfl, inner⟩ := List.cons_prefix_cons.1 h
      rw [ih (List.not_mem_of_not_mem_cons hs) (List.not_mem_of_not_mem_cons ht) inner]

theorem prefix_append_cons {c : Char} {piece : List Char} (free : c ∉ piece) (s t : List Char) :
    piece <+: s ++ c :: t ↔ piece <+: s := by
  constructor
  · intro h
    obtain short | ⟨beyond, rfl⟩ := List.prefix_or_prefix_of_prefix h (List.prefix_append s (c :: t))
    · exact short
    · rw [List.prefix_append_right_inj] at h
      cases beyond with
      | nil => simp
      | cons d beyond =>
        obtain ⟨rfl, -⟩ := List.cons_prefix_cons.1 h
        exact absurd (List.mem_append_right s List.mem_cons_self) free
  · exact fun h => h.trans (List.prefix_append s (c :: t))

theorem infix_append_cons {c : Char} {piece : List Char} (free : c ∉ piece) {s t : List Char} :
    piece <:+: s ++ c :: t ↔ piece <:+: s ∨ piece <:+: t := by
  induction s with
  | nil =>
    have alone : piece <+: c :: t ↔ piece = [] := by
      simpa using prefix_append_cons free [] t
    rw [List.nil_append, List.infix_cons_iff, alone, List.infix_nil]
  | cons d s ih =>
    rw [List.cons_append, List.infix_cons_iff, List.infix_cons_iff, ih, ← List.cons_append,
      prefix_append_cons free, or_assoc]

theorem countOf_cons_of_ne {c d : Char} (h : d ≠ c) (piece s : List Char) :
    countOf (c :: piece) 0 (d :: s) = countOf (c :: piece) 0 s := by
  have next : ¬(c :: piece).isPrefixOf (d :: s) = true := by
    simp [List.isPrefixOf, Ne.symm h]
  exact if_neg next

theorem countOf_append_of_notMem {c : Char} {s : List Char} (free : c ∉ s)
    (piece rest : List Char) :
    countOf (c :: piece) 0 (s ++ rest) = countOf (c :: piece) 0 rest := by
  induction s with
  | nil => rfl
  | cons d s ih =>
    obtain ⟨other, free⟩ := List.ne_and_not_mem_of_not_mem_cons free
    exact (countOf_cons_of_ne (Ne.symm other) piece _).trans (ih free)

end SemanticLayer.Text
