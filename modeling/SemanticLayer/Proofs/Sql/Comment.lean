import SemanticLayer.Proofs.Text.Blank
import SemanticLayer.Proofs.Text.Search
import SemanticLayer.Sql

set_option autoImplicit false

namespace SemanticLayer.Text

/-- The turns of a replacement: an occurrence of the piece, or a character where none starts. -/
theorem replaced_induction (c : Char) (piece : List Char) {motive : List Char → Prop}
    (nil : motive []) (found : ∀ rest, motive rest → motive (c :: piece ++ rest))
    (kept : ∀ d rest, ¬c :: piece <+: d :: rest → motive rest → motive (d :: rest))
    (s : List Char) : motive s := by
  induction hn : s.length using Nat.strongRecOn generalizing s with
  | ind n ih =>
    cases s with
    | nil => exact nil
    | cons d s =>
      by_cases start : c :: piece <+: d :: s
      · obtain ⟨rest, same⟩ := start
        have shorter : rest.length < n := by
          rw [← hn, ← same, List.length_append, List.length_cons]
          omega
        rw [← same]
        exact found rest (ih rest.length shorter rest rfl)
      · have shorter : s.length < n := hn ▸ Nat.lt_succ_self s.length
        exact kept d s start (ih s.length shorter s rfl)

variable {c : Char} {piece replacement : List Char}

theorem filter_replaceAll {p : Char → Bool}
    (same : replacement.filter p = (c :: piece).filter p) (s : List Char) :
    (replaceAll (c :: piece) replacement s).filter p = s.filter p := by
  induction s using replaced_induction c piece with
  | nil => rfl
  | found rest ih =>
    rw [replaceAll_append_self, List.filter_append, List.filter_append, same, ih]
  | kept d rest absent ih =>
    rw [replaceAll_cons_of_absent absent, List.filter_cons, List.filter_cons, ih]

theorem sublist_replaceAll (part : (c :: piece).Sublist replacement) (s : List Char) :
    s.Sublist (replaceAll (c :: piece) replacement s) := by
  induction s using replaced_induction c piece with
  | nil => exact List.Sublist.slnil
  | found rest ih =>
    rw [replaceAll_append_self]
    exact part.append ih
  | kept d rest absent ih =>
    rw [replaceAll_cons_of_absent absent]
    exact ih.cons_cons d

theorem head_replaceAll (c : Char) (piece replacement s : List Char) :
    (replaceAll (c :: piece) (c :: replacement) s).head? = s.head? := by
  induction s using replaced_induction c piece with
  | nil => rfl
  | found rest _ =>
    rw [replaceAll_append_self]
    rfl
  | kept d rest absent _ =>
    rw [replaceAll_cons_of_absent absent]
    rfl

/-- A mark of two characters that is broken up wherever it occurs does not occur any more. -/
theorem notInfix_replaceAll {a b x : Char} (apart : a ≠ b) (fresh : x ∉ [a, b]) (s : List Char) :
    ¬[a, b] <:+: replaceAll [a, b] [a, x, b] s := by
  induction s using replaced_induction a [b] with
  | nil => exact fun found => List.cons_ne_nil a [b] (List.infix_nil.1 found)
  | found rest ih =>
    rw [replaceAll_append_self]
    intro found
    -- The mark lies on one side of the character that breaks it up.
    rcases (infix_append_cons fresh (s := [a])).1 found with alone | later
    · exact absurd alone.length_le (by simp)
    · rcases List.infix_cons_iff.1 later with start | within
      · exact apart (List.cons_prefix_cons.1 start).1
      · exact ih within
  | kept d rest absent ih =>
    rw [replaceAll_cons_of_absent absent]
    intro found
    rcases List.infix_cons_iff.1 found with start | within
    · -- Both characters were kept, and the second one is the first of the rest.
      obtain ⟨rfl, next⟩ := List.cons_prefix_cons.1 start
      obtain ⟨t, shape⟩ := next
      have first : rest.head? = some b := by
        rw [← head_replaceAll a [b] [x, b], ← shape]
        rfl
      obtain ⟨rest, rfl⟩ := List.head?_eq_some_iff.1 first
      exact absent (List.prefix_append [a, b] rest)
    · exact ih within

/-- A piece whose first character does not come again, behind a text in which it does not occur:
that is its only occurrence. -/
theorem append_eq_append_iff_of_notInfix (once : c ∉ piece) {s : List Char}
    (free : ¬c :: piece <:+: s) {before after : List Char} :
    s ++ c :: piece = before ++ (c :: piece ++ after) ↔ before = s ∧ after = [] := by
  constructor
  · intro same
    have shorter : before.length ≤ s.length := by
      have lengths := congrArg List.length same
      simp only [List.length_append] at lengths
      omega
    have part : before <+: s :=
      List.prefix_of_prefix_length_le (same ▸ List.prefix_append before _)
        (List.prefix_append s (c :: piece)) shorter
    have first := splitFirst_append once free []
    have second := splitFirst_append once (fun found => free (found.trans part.isInfix)) after
    rw [List.append_nil, same, second] at first
    simpa using first
  · rintro ⟨rfl, rfl⟩
    rw [List.append_nil]

def visible (s : List Char) : List Char := s.filter fun c => !isBlank c

theorem Blank.visible_eq_nil {b : List Char} (h : Blank b) : visible b = [] :=
  List.filter_eq_nil_iff.2 fun c hc => by simp [h c hc]

theorem visible_append (s t : List Char) : visible (s ++ t) = visible s ++ visible t :=
  List.filter_append s t

theorem visible_trim (s : List Char) : visible (trim s) = visible s := by
  obtain ⟨before, after, blank, blank', shape⟩ := exists_trim_append s
  conv_rhs => rw [shape, visible_append, visible_append, blank.visible_eq_nil,
    blank'.visible_eq_nil, List.nil_append, List.append_nil]

end SemanticLayer.Text

namespace SemanticLayer.Sql

/-- What is read of a text, inside of a comment or outside. A comment goes from its opening mark to
the next end mark or, when there is none, to the end of the text. -/
def readFrom : (inside : Bool) → List Char → List Char
  | _, [] => []
  | false, '/' :: '*' :: s => readFrom true s
  | true, '*' :: '/' :: s => readFrom false s
  | false, c :: s => c :: readFrom false s
  | true, _ :: s => readFrom true s

def outsideComments (s : List Char) : List Char := readFrom false s

/-- A text ends in a comment and with its end mark, which does not occur in the comment before. -/
structure EndsInComment (start inside text : List Char) : Prop where
  shape : text = start ++ (['/', '*'] ++ (inside ++ ['*', '/']))
  once : ∀ before after,
    inside ++ ['*', '/'] = before ++ (['*', '/'] ++ after) ↔ before = inside ∧ after = []
  outside : outsideComments text = start

/-- A text is a value and a comment behind it that has the whole of an original text in it, spread
by nothing but blanks. -/
def KeepsInComment (value original text : String) : Prop :=
  ∃ kept, EndsInComment (value.toList ++ [' ']) (' ' :: (kept ++ [' '])) text.toList ∧
    (Text.trim original.toList).Sublist kept ∧ Text.visible kept = Text.visible original.toList

theorem readFrom_false_append {s : List Char} (plain : '/' ∉ s) (rest : List Char) :
    readFrom false (s ++ rest) = s ++ readFrom false rest := by
  induction s with
  | nil => rfl
  | cons c s ih =>
    obtain ⟨other, plain⟩ := List.ne_and_not_mem_of_not_mem_cons plain
    rw [List.cons_append, readFrom, ih plain, List.cons_append]
    rintro _ rfl
    exact absurd rfl other

theorem readFrom_true_append {inside : List Char} (free : ¬['*', '/'] <:+: inside)
    (rest : List Char) : readFrom true (inside ++ '*' :: '/' :: rest) = readFrom false rest := by
  induction inside with
  | nil => rfl
  | cons c inside ih =>
    have later : ¬['*', '/'] <:+: inside := fun found =>
      free (found.trans (List.suffix_cons c inside).isInfix)
    rw [List.cons_append, readFrom, ih later]
    -- No end mark starts at a star that is the last character of the comment.
    rintro t rfl next
    cases inside with
    | nil => cases next
    | cons d inside =>
      cases next
      exact free (List.prefix_append ['*', '/'] inside).isInfix

theorem endsInComment_of_notInfix {start inside : List Char} (plain : '/' ∉ start)
    (free : ¬['*', '/'] <:+: inside) :
    EndsInComment start inside (start ++ (['/', '*'] ++ (inside ++ ['*', '/']))) where
  shape := rfl
  once before after := Text.append_eq_append_iff_of_notInfix (by decide) free
  outside := by
    have read : readFrom false ('/' :: '*' :: (inside ++ ['*', '/'])) = [] :=
      readFrom_true_append free []
    rw [outsideComments, readFrom_false_append plain]
    exact (congrArg (start ++ ·) read).trans (List.append_nil start)

theorem toList_commentText (text : List Char) :
    (commentText text).toList = Text.replaceAll ['*', '/'] ['*', ' ', '/'] text :=
  String.toList_ofList

/-- No end mark arises in a comment, neither from the pieces of broken ones nor beside them. -/
theorem notInfix_commentText (text : List Char) : ¬['*', '/'] <:+: (commentText text).toList := by
  rw [toList_commentText]
  exact Text.notInfix_replaceAll (by decide) (by decide) text

theorem withComment_keeps {value : String} (plain : '/' ∉ value.toList) (original : String) :
    KeepsInComment value original (withComment value (Text.trim original.toList)) := by
  let text := Text.trim original.toList
  have apart : ' ' ∉ ['*', '/'] := by decide
  have free : ¬['*', '/'] <:+: [] ++ ' ' :: ((commentText text).toList ++ [' ']) := by
    rw [Text.infix_append_cons apart, Text.infix_append_cons apart]
    simp [notInfix_commentText]
  have shape : (withComment value text).toList = value.toList ++ [' '] ++
      (['/', '*'] ++ (' ' :: ((commentText text).toList ++ [' ']) ++ ['*', '/'])) := by
    simp [withComment]
  refine ⟨(commentText text).toList, ?_, ?_, ?_⟩
  · rw [shape]
    exact endsInComment_of_notInfix (by simpa using plain) free
  · rw [toList_commentText]
    exact Text.sublist_replaceAll (by decide) text
  · rw [toList_commentText, Text.visible, Text.filter_replaceAll (by decide)]
    exact Text.visible_trim original.toList

end SemanticLayer.Sql
