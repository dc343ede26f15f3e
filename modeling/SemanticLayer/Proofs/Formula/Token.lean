import SemanticLayer.Proofs.Formula.Comment
import SemanticLayer.Proofs.Text.Arguments
import SemanticLayer.Proofs.Text.Delimited

set_option autoImplicit false

/-!
The names that a formula is written with. The normal form takes blanks, comments and the parentheses
around a formula away without regard to names, and `exists_tokens_normalize_iff` says what becomes
of the names: they are kept as they are written exactly when none of them has a comment mark or more
than one space in a row.
-/
namespace SemanticLayer.Formula

open Text (Blank Paired Tight isBlank squeeze)

/-- A character outside of names and texts, or one of those with the characters that enclose it. -/
inductive Token where
  | mark (c : Char)
  | name (text : List Char)
  deriving DecidableEq, Repr

/-- The tokens that a text is written with. Blanks and comments are of no account, but within a name
they belong to it. -/
inductive Tokens : List Token → List Char → Prop where
  | nil : Tokens [] []
  | blank {c : Char} {s : List Char} {ts : List Token} (space : isBlank c = true)
      (rest : Tokens ts s) : Tokens ts (c :: s)
  | comment {c : Char} {s : List Char} {ts : List Token} (mark : c = '/' ∨ c = '-')
      (rest : Tokens ts (s.dropWhile (· ≠ '\n'))) : Tokens ts (c :: c :: s)
  | name {start close : Char} {inside s : List Char} {ts : List Token}
      (region : argumentStyle.regionEnd start = some close) (inner : Paired close inside)
      (apart : s.head? ≠ some close) (rest : Tokens ts s) :
      Tokens (.name (start :: (inside ++ [close])) :: ts) (start :: (inside ++ close :: s))
  | mark {c : Char} {s : List Char} {ts : List Token} (visible : isBlank c = false)
      (region : argumentStyle.regionEnd c = none) (plain : startsComment (c :: s) = false)
      (rest : Tokens ts s) : Tokens (.mark c :: ts) (c :: s)

/-- A text that the normal form leaves as it is. -/
def Clean (s : List Char) : Prop := squeeze s = s ∧ Uncommented s

instance (s : List Char) : Decidable (Clean s) :=
  inferInstanceAs (Decidable (_ ∧ _))

theorem regionEnd_eq_some {start close : Char}
    (h : argumentStyle.regionEnd start = some close) :
    (start = '[' ∧ close = ']') ∨ (start = '\'' ∧ close = '\'') ∨ start = '"' ∧ close = '"' := by
  simp only [argumentStyle] at h
  split at h
  · exact Or.inl ⟨rfl, (Option.some.inj h).symm⟩
  · exact Or.inr (Or.inl ⟨rfl, (Option.some.inj h).symm⟩)
  · exact Or.inr (Or.inr ⟨rfl, (Option.some.inj h).symm⟩)
  · cases h

theorem regionEnd_visible {start close : Char} (h : argumentStyle.regionEnd start = some close) :
    isBlank start = false ∧ isBlank close = false ∧ close ≠ ')' ∧ close ≠ '/' ∧ close ≠ '-' ∧
      close ≠ '\n' := by
  rcases regionEnd_eq_some h with ⟨rfl, rfl⟩ | ⟨rfl, rfl⟩ | ⟨rfl, rfl⟩
  all_goals decide

theorem tight_name {start close : Char} (h : argumentStyle.regionEnd start = some close)
    (inside : List Char) : Tight (start :: (inside ++ [close])) := by
  obtain ⟨first, last, -⟩ := regionEnd_visible h
  exact ⟨⟨start, _, rfl, first⟩, start :: inside, close, rfl, last⟩

namespace Tokens

variable {ts : List Token} {s : List Char}

/-- Comments can be left out, unless something in a name is taken for one. -/
theorem dropped (h : Tokens ts s) (clean : ∀ n, .name n ∈ ts → Uncommented n) :
    Tokens ts (dropComments s) := by
  induction h with
  | nil => exact .nil
  | @blank c s ts space rest ih =>
    rw [dropComments_cons (startsComment_blank space s)]
    exact .blank space (ih clean)
  | @comment c s ts mark rest ih =>
    have start : startsComment (c :: c :: s) = true := startsComment_cons_iff.2 ⟨mark, rfl⟩
    have other : c ≠ '\n' := by rcases mark with rfl | rfl <;> decide
    have cut : dropComments (c :: c :: s) = dropComments (s.dropWhile (· ≠ '\n')) := by
      rw [← dropFrom_true, dropComments, dropFrom, if_neg Bool.false_ne_true, if_pos start,
        dropFrom, if_pos rfl, if_neg other]
    rw [cut]
    exact ih clean
  | @name start close inside s ts region inner apart rest ih =>
    obtain ⟨-, -, -, slash, dash, feed⟩ := regionEnd_visible region
    have whole : start :: (inside ++ close :: s) = start :: (inside ++ [close]) ++ s := by simp
    have last : ∀ c ∈ (start :: (inside ++ [close])).getLast?, c ≠ '/' ∧ c ≠ '-' := by
      rw [← List.cons_append, List.getLast?_append]
      rintro c ⟨⟩
      exact ⟨slash, dash⟩
    rw [whole, dropComments_append (clean _ List.mem_cons_self) last, List.cons_append,
      List.append_assoc]
    refine .name region inner ?_ (ih fun n later => clean n (List.mem_cons_of_mem _ later))
    intro next
    exact (head_dropComments next).elim apart feed
  | @mark c s ts visible region plain rest ih =>
    have kept := dropComments_cons plain
    have still : startsComment (c :: dropComments s) = false := by
      rw [← kept]
      exact (uncommented_dropComments (c :: s)).not_starts
    rw [kept]
    exact .mark visible region still (ih fun n later => clean n (List.mem_cons_of_mem _ later))

theorem trimStart (h : Tokens ts s) : Tokens ts (Text.trimStart s) := by
  induction h with
  | nil => exact .nil
  | blank space rest ih =>
    rw [Text.trimStart, List.dropWhile_cons_of_pos space]
    exact ih
  | comment mark rest _ =>
    rw [Text.trimStart, List.dropWhile_cons_of_neg]
    · exact .comment mark rest
    · rcases mark with rfl | rfl <;> decide
  | name region inner apart rest _ =>
    rw [Text.trimStart, List.dropWhile_cons_of_neg (by simp [(regionEnd_visible region).1])]
    exact .name region inner apart rest
  | mark visible region plain rest _ =>
    rw [Text.trimStart, List.dropWhile_cons_of_neg (by simp [visible])]
    exact .mark visible region plain rest

theorem trimEnd (h : Tokens ts s) (clear : Uncommented s) : Tokens ts (Text.trimEnd s) := by
  have head {t : List Char} {c : Char} (h : (Text.trimEnd t).head? = some c) :
      t.head? = some c := by
    obtain ⟨b, -, shape⟩ := Text.exists_trimEnd_append t
    rw [shape, List.head?_append, h]
    rfl
  induction h with
  | nil => exact .nil
  | @blank c s ts space rest ih =>
    have kept := ih clear.tail
    rw [Text.trimEnd]
    split
    · rename_i none
      rw [if_pos space]
      rwa [none] at kept
    · exact .blank space kept
  | comment mark _ _ => exact absurd mark clear.not_mark
  | @name start close inside s ts region inner apart rest ih =>
    have later : Uncommented s := by
      apply clear.within
      exact ⟨start :: (inside ++ [close]), [], by simp⟩
    have kept : Text.trimEnd (start :: (inside ++ close :: s)) =
        start :: (inside ++ close :: Text.trimEnd s) := by
      obtain ⟨-, visible, -⟩ := regionEnd_visible region
      have whole := Text.trimEnd_append_cons visible (start :: inside) s
      exact whole
    rw [kept]
    exact .name region inner (fun next => apart (head next)) (ih later)
  | @mark c s ts visible region plain rest ih =>
    have kept : Text.trimEnd (c :: s) = c :: Text.trimEnd s :=
      Text.trimEnd_append_cons visible [] s
    rw [kept]
    exact .mark visible region (startsComment_of_head plain fun d _ => head) (ih clear.tail)

theorem squeezed (h : Tokens ts s) (clear : Uncommented s)
    (clean : ∀ n, .name n ∈ ts → squeeze n = n) : Tokens ts (squeeze s) := by
  induction h with
  | nil => exact .nil
  | @blank c s ts space rest ih =>
    rw [squeeze, if_pos space]
    split
    · exact ih clear.tail clean
    · exact .blank rfl (ih clear.tail clean)
  | comment mark _ _ => exact absurd mark clear.not_mark
  | @name start close inside s ts region inner apart rest ih =>
    have later : Uncommented s := by
      apply clear.within
      exact ⟨start :: (inside ++ [close]), [], by simp⟩
    have same := clean _ List.mem_cons_self
    have kept : squeeze (start :: (inside ++ close :: s)) =
        start :: (inside ++ close :: squeeze s) := by
      have parts := Text.squeeze_append_tight (tight_name region inside) [] s
      rw [same] at parts
      simpa using parts
    rw [kept]
    refine .name region inner ?_ (ih later fun n found => clean n (List.mem_cons_of_mem _ found))
    intro next
    exact apart (Text.head_squeeze (regionEnd_visible region).2.1 next)
  | @mark c s ts visible region plain rest ih =>
    rw [Text.squeeze_visible visible]
    exact .mark visible region (startsComment_of_head plain fun d seen => Text.head_squeeze seen)
      (ih clear.tail fun n found => clean n (List.mem_cons_of_mem _ found))

theorem of_concat (h : Tokens ts (s ++ [')'])) (clear : Uncommented (s ++ [')'])) :
    ∃ ts', ts = ts' ++ [.mark ')'] ∧ Tokens ts' s := by
  generalize whole : s ++ [')'] = t at h
  induction h generalizing s with
  | nil => simp at whole
  | @blank c t ts space rest ih =>
    rcases List.append_eq_cons_iff.1 whole with ⟨-, last⟩ | ⟨s', rfl, more⟩
    · cases last
      cases space
    · obtain ⟨ts', rfl, inner⟩ := ih (clear.within ⟨[c], [], by simp⟩) more.symm
      exact ⟨ts', rfl, .blank space inner⟩
  | comment mark _ _ =>
    rw [whole] at clear
    exact absurd mark clear.not_mark
  | @name start close inside t ts region inner apart rest ih =>
    rcases List.eq_nil_or_concat' t with rfl | ⟨t', d, rfl⟩
    · have last := congrArg List.getLast? whole
      rw [← List.cons_append, List.getLast?_append, List.getLast?_append] at last
      exact absurd (Option.some.inj last).symm (regionEnd_visible region).2.2.1
    · have shape : s ++ [')'] = (start :: (inside ++ close :: t')) ++ [d] := by
        rw [whole]
        simp
      obtain ⟨rfl, last⟩ := List.append_inj' shape rfl
      cases last
      have later : Uncommented (t' ++ [')']) := by
        apply clear.within
        exact ⟨start :: (inside ++ [close]), [], by simp⟩
      obtain ⟨ts', rfl, tokens⟩ := ih later rfl
      refine ⟨.name (start :: (inside ++ [close])) :: ts', rfl, .name region inner ?_ tokens⟩
      intro next
      exact apart (by rw [List.head?_append, next]; rfl)
  | @mark c t ts visible region plain rest ih =>
    rcases List.append_eq_cons_iff.1 whole with ⟨rfl, last⟩ | ⟨s', rfl, more⟩
    · cases last
      cases rest
      exact ⟨[], rfl, .nil⟩
    · obtain ⟨ts', rfl, inner⟩ := ih (clear.within ⟨[c], [], by simp⟩) more.symm
      refine ⟨.mark c :: ts', rfl, .mark visible region ?_ inner⟩
      apply startsComment_of_head plain
      intro d _ next
      rw [more, List.head?_append, next]
      rfl

theorem of_mark {c : Char} (h : Tokens ts (c :: s)) (clear : Uncommented (c :: s))
    (visible : isBlank c = false) (region : argumentStyle.regionEnd c = none) :
    ∃ ts', ts = .mark c :: ts' ∧ Tokens ts' s := by
  cases h with
  | blank space _ =>
    rw [visible] at space
    cases space
  | comment mark _ => exact absurd mark clear.not_mark
  | name other _ _ _ =>
    rw [region] at other
    cases other
  | mark _ _ _ rest => exact ⟨_, rfl, rest⟩

theorem name_of_mem (h : Tokens ts s) {n : List Char} (found : .name n ∈ ts) :
    Tight n ∧ n <:+: s := by
  induction h with
  | nil => cases found
  | @blank c s ts _ _ ih => exact (ih found).imp_right (·.trans (List.suffix_cons c s).isInfix)
  | @comment c s ts _ _ ih =>
    have skipped : s.dropWhile (· ≠ '\n') <:+ c :: c :: s :=
      (List.dropWhile_suffix _).trans ((List.suffix_cons c s).trans (List.suffix_cons c _))
    exact (ih found).imp_right (·.trans skipped.isInfix)
  | @name start close inside s ts region _ _ _ ih =>
    rcases List.mem_cons.1 found with same | later
    · cases same
      exact ⟨tight_name region inside, [], s, by simp⟩
    · refine (ih later).imp_right (·.trans ?_)
      exact ⟨start :: (inside ++ [close]), [], by simp⟩
  | @mark c s ts _ _ _ _ ih =>
    rcases List.mem_cons.1 found with same | later
    · cases same
    · exact (ih later).imp_right (·.trans (List.suffix_cons c s).isInfix)

end Tokens

theorem argumentStyle_plain : argumentStyle.Plain := ⟨⟨rfl, rfl⟩, rfl, rfl⟩

theorem exists_of_isWrapped {s : List Char} (h : isWrapped s = true) :
    ∃ inside, s = '(' :: (inside ++ [')']) ∧ (s.drop 1).dropLast = inside := by
  unfold isWrapped at h
  split at h
  · rename_i found split
    obtain ⟨inside, rfl, splits⟩ := (Text.splitArguments_eq_some_iff argumentStyle_plain).1 split
    obtain ⟨before, whole⟩ := splits.exists_append
    rw [List.isEmpty_iff.1 h] at whole
    exact ⟨before, by rw [whole], by simp [whole]⟩
  · cases h

def enclose (k : Nat) (ts : List Token) : List Token :=
  List.replicate k (.mark '(') ++ ts ++ List.replicate k (.mark ')')

theorem enclose_succ (k : Nat) (ts : List Token) :
    enclose (k + 1) ts = .mark '(' :: (enclose k ts ++ [.mark ')']) := by
  rw [enclose, enclose, List.replicate_succ, List.replicate_succ']
  simp

theorem Tokens.unwrapped {ts : List Token} {s : List Char} (h : Tokens ts s)
    (clear : Uncommented s) : ∃ k inner, ts = enclose k inner ∧ Tokens inner (unwrap s) := by
  fun_induction unwrap s generalizing ts with
  | case1 s wrapped ih =>
    obtain ⟨inside, rfl, shape⟩ := exists_of_isWrapped wrapped
    obtain ⟨rest, rfl, first⟩ := h.of_mark clear rfl rfl
    obtain ⟨middle, rfl, inner⟩ := first.of_concat clear.tail
    rw [shape] at ih ⊢
    have clearInside : Uncommented inside := clear.within ⟨['('], [')'], by simp⟩
    have trimmed : Tokens middle (Text.trim inside) :=
      inner.trimStart.trimEnd (clearInside.within (List.dropWhile_suffix _).isInfix)
    obtain ⟨k, core, rfl, tokens⟩ := ih trimmed (clearInside.within (Text.trim_within inside))
    exact ⟨k + 1, core, (enclose_succ k core).symm, tokens⟩
  | case2 s _ => exact ⟨0, ts, by simp [enclose], h⟩

theorem unwrap_within (s : List Char) : unwrap s <:+: s := by
  fun_induction unwrap s with
  | case1 s wrapped ih =>
    obtain ⟨inside, rfl, shape⟩ := exists_of_isWrapped wrapped
    rw [shape] at ih ⊢
    have within : inside <:+: '(' :: (inside ++ [')']) := ⟨['('], [')'], by simp⟩
    exact (ih.trans (Text.trim_within inside)).trans within
  | case2 s _ => exact List.infix_rfl

theorem clean_flatten (s : List Char) : Clean (flatten s) := by
  rw [flatten_eq_squeeze]
  constructor
  · exact Text.squeeze_squeeze _
  · apply uncommented_squeeze
    exact (uncommented_dropComments s).within (Text.trim_within _)

/-- A text is written with the tokens of its normal form and parentheses around them, exactly when
the normal form changes none of its names. -/
theorem exists_tokens_normalize_iff {ts : List Token} {s : List Char} (h : Tokens ts s) :
    (∃ k inner, ts = enclose k inner ∧ Tokens inner (normalize s)) ↔
      ∀ n, .name n ∈ ts → Clean n := by
  constructor
  · rintro ⟨k, inner, rfl, tokens⟩ n found
    have among : .name n ∈ inner := by simpa [enclose] using found
    obtain ⟨tight, inside⟩ := tokens.name_of_mem among
    have part := inside.trans (unwrap_within (flatten s))
    obtain ⟨single, clear⟩ := clean_flatten s
    exact ⟨Text.squeeze_within single part tight, clear.within part⟩
  · intro clean
    have clear := (uncommented_dropComments s).within (Text.trim_within _)
    have kept := h.dropped fun n found => (clean n found).2
    have trimmed := kept.trimStart.trimEnd
      ((uncommented_dropComments s).within (List.dropWhile_suffix _).isInfix)
    have single := trimmed.squeezed clear fun n found => (clean n found).1
    have whole : Tokens ts (flatten s) := by
      rw [flatten_eq_squeeze]
      exact single
    exact whole.unwrapped (clean_flatten s).2

end SemanticLayer.Formula
