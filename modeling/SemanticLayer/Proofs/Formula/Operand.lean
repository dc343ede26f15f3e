import SemanticLayer.Proofs.Formula.Scanning

set_option autoImplicit false

namespace SemanticLayer.Formula

open Text (Blank Tight)
open Arithmetic (Written Expression MetricText Operand)

theorem Passes.metric {name : String} {s : List Char} (h : MetricText name s) : Passes s := by
  intro depth region free
  have first : argumentStyle.scan (depth, region) "[Measures]".toList =
      some (depth, .leaving ']') :=
    have entered : argumentStyle.step region '[' = .inside ']' :=
      step_of_free free (by decide) (by decide)
    scan_region entered (s := "Measures".toList) (by decide) depth
  have last : argumentStyle.scan (depth, .outside) ('[' :: (name.toList ++ [']'])) =
      some (depth, .leaving ']') :=
    scan_region rfl h.1 depth
  have start : referenceStart = "[Measures]".toList ++ ['.'] ++ ['['] := rfl
  refine ⟨.leaving ']', Or.inr (Or.inl rfl), ?_⟩
  rw [h.2, Arithmetic.toList_measureReference, start, List.append_assoc, List.append_assoc,
    Text.ArgumentStyle.scan_append, first]
  exact last

theorem Passes.expression {e : Arithmetic String} {s : List Char} (h : Expression e s) :
    Passes s :=
  Passes.written (fun _ _ => Passes.metric) (fun _ h => h.elim) h

theorem tight_expression {e : Arithmetic String} {s : List Char} (h : Expression e s) : Tight s :=
  h.tight (fun _ _ => MetricText.tight) fun _ h => h.elim

theorem isWrapped_append {e : Arithmetic String} {s rest : List Char} (h : Expression e s)
    (more : rest ≠ []) : isWrapped (s ++ rest) = false := by
  induction h generalizing rest with
  | number n =>
    obtain ⟨c, r, eq⟩ := List.exists_cons_of_ne_nil n.ne_nil
    have first := n.isNumeralChar c (eq ▸ List.mem_cons_self)
    have other : c ≠ '(' := fun h => by rw [h] at first; cases first
    have missing : splitArguments (c :: (r ++ rest)) = none := by
      simp [splitArguments, Text.splitArguments, other]
    rw [eq, List.cons_append, isWrapped, missing]
  | reference h =>
    rw [h.2, Arithmetic.toList_measureReference]
    rfl
  | @group e s before after inner hb ha _ =>
    have whole : '(' :: (before ++ s ++ after ++ [')']) ++ rest =
        '(' :: (before ++ s ++ after ++ ')' :: rest) := by simp
    have passes := ((Passes.blank hb).append (.expression inner)).append (.blank ha)
    rw [whole, isWrapped, splitArguments_group passes]
    exact List.isEmpty_eq_false_iff.2 more
  | negate _ _ => rfl
  | binary _ _ _ _ ihl _ =>
    rw [List.append_assoc, List.append_assoc]
    exact ihl (by simp)
  | ratio hk => exact hk.elim

def references : Arithmetic String → Nat
  | .number _ => 0
  | .reference _ => 1
  | .group e | .negate e => references e
  | .binary _ left right => references left + references right
  | .ratio numerator denominator => references numerator + references denominator

theorem countOf_metric {name : String} {s : List Char} (h : MetricText name s) {rest : List Char}
    (apart : rest.head? ≠ some '.') :
    Text.countOf [']', '.', '['] 0 (s ++ rest) = Text.countOf [']', '.', '['] 0 rest + 1 := by
  have last : Text.countOf [']', '.', '['] 0 (']' :: rest) =
      Text.countOf [']', '.', '['] 0 rest := by
    cases rest with
    | nil => rfl
    | cons c rest =>
      have other : c ≠ '.' := fun h => apart (congrArg some h)
      have next : ¬[']', '.', '['].isPrefixOf (']' :: c :: rest) = true := by
        simp [List.isPrefixOf, Ne.symm other]
      exact if_neg next
  have start : referenceStart = "[Measures".toList ++ [']', '.', '['] := rfl
  calc
    Text.countOf [']', '.', '['] 0 (s ++ rest)
      = Text.countOf [']', '.', '['] 0
          ("[Measures".toList ++ ']' :: '.' :: '[' :: (name.toList ++ ']' :: rest)) := by
        rw [h.2, Arithmetic.toList_measureReference, start]
        simp
    _ = Text.countOf [']', '.', '['] 0 (']' :: '.' :: '[' :: (name.toList ++ ']' :: rest)) :=
        Text.countOf_append_of_notMem (by decide) _ _
    _ = Text.countOf [']', '.', '['] 0 (name.toList ++ ']' :: rest) + 1 := rfl
    _ = Text.countOf [']', '.', '['] 0 rest + 1 := by
        rw [Text.countOf_append_of_notMem h.1, last]

theorem head_append_ne {c : Char} {b s : List Char} (hb : c ∉ b) (hs : s.head? ≠ some c) :
    (b ++ s).head? ≠ some c := by
  cases b with
  | nil => exact hs
  | cons d b => exact fun h => hb (Option.some.inj h ▸ List.mem_cons_self)

/-- The text between two brackets that are a point apart occurs once for each metric. -/
theorem countOf_expression {e : Arithmetic String} {s : List Char} (h : Expression e s)
    {rest : List Char} (apart : rest.head? ≠ some '.') :
    Text.countOf [']', '.', '['] 0 (s ++ rest) =
      references e + Text.countOf [']', '.', '['] 0 rest := by
  -- Metrics end in a bracket, and a point behind it would go on with the text looked for.
  induction h generalizing rest with
  | number n =>
    have free : ']' ∉ n.text := fun found => by cases n.isNumeralChar ']' found
    rw [Text.countOf_append_of_notMem free, references, Nat.zero_add]
  | reference h => rw [countOf_metric h apart, references, Nat.add_comm]
  | @group e s before after inner hb ha ih =>
    calc
      Text.countOf [']', '.', '['] 0 ('(' :: (before ++ s ++ after ++ [')']) ++ rest)
        = Text.countOf [']', '.', '['] 0
            (('(' :: before) ++ (s ++ (after ++ ')' :: rest))) := by simp
      _ = references e + Text.countOf [']', '.', '['] 0 (after ++ ')' :: rest) := by
          rw [Text.countOf_append_of_notMem (by simpa using hb.notMem rfl)]
          exact ih (head_append_ne (ha.notMem rfl) (by simp))
      _ = references e + Text.countOf [']', '.', '['] 0 rest := by
          rw [Text.countOf_append_of_notMem (ha.notMem rfl)]
          rfl
  | @negate e s gap _ hg ih =>
    calc
      Text.countOf [']', '.', '['] 0 ('-' :: (gap ++ s) ++ rest)
        = Text.countOf [']', '.', '['] 0 (('-' :: gap) ++ (s ++ rest)) := by simp
      _ = references e + Text.countOf [']', '.', '['] 0 rest := by
          rw [Text.countOf_append_of_notMem (by simpa using hg.notMem rfl)]
          exact ih apart
  | @binary op l r s t before after _ _ hb ha ihl ihr =>
    have symbol : op.symbol ≠ ']' ∧ op.symbol ≠ '.' := by cases op <;> decide
    calc
      Text.countOf [']', '.', '['] 0 (s ++ before ++ op.symbol :: (after ++ t) ++ rest)
        = Text.countOf [']', '.', '['] 0
            (s ++ (before ++ op.symbol :: (after ++ (t ++ rest)))) := by simp
      _ = references l + Text.countOf [']', '.', '['] 0
            (op.symbol :: (after ++ (t ++ rest))) := by
          rw [ihl (head_append_ne (hb.notMem rfl) (by simpa using symbol.2)),
            Text.countOf_append_of_notMem (hb.notMem rfl)]
      _ = references l + (references r + Text.countOf [']', '.', '['] 0 rest) := by
          rw [Text.countOf_cons_of_ne symbol.1,
            Text.countOf_append_of_notMem (ha.notMem rfl), ihr apart]
      _ = references (.binary op l r) + Text.countOf [']', '.', '['] 0 rest :=
          (Nat.add_assoc _ _ _).symm
  | ratio hk => exact hk.elim

theorem references_pos_of_head {e : Arithmetic String} {s : List Char} (h : Expression e s)
    (first : s.head? = some '[') : 0 < references e := by
  induction h with
  | number n =>
    cases n.isNumeralChar '[' (List.mem_of_mem_head? first)
  | reference _ => exact Nat.one_pos
  | group _ _ _ | negate _ _ => cases first
  | binary hl _ _ _ ihl _ =>
    refine Nat.add_pos_left (ihl ?_) _
    rwa [List.append_assoc, List.head?_append_of_ne_nil _ (tight_expression hl).ne_nil] at first
  | ratio hk => exact hk.elim

theorem references_pos_of_last {e : Arithmetic String} {s : List Char} (h : Expression e s)
    (last : s.getLast? = some ']') : 0 < references e := by
  induction h with
  | number n =>
    cases n.isNumeralChar ']' (List.mem_of_mem_getLast? last)
  | reference _ => exact Nat.one_pos
  | group _ _ _ =>
    rw [← List.cons_append, List.getLast?_append] at last
    cases last
  | @negate e s gap he _ ih =>
    refine ih ?_
    rwa [← List.cons_append, List.getLast?_append_of_ne_nil _ (tight_expression he).ne_nil] at last
  | @binary op l r s t before after _ hr _ _ _ ihr =>
    refine Nat.add_pos_right _ (ihr ?_)
    rwa [← List.cons_append, ← List.append_assoc,
      List.getLast?_append_of_ne_nil _ (tight_expression hr).ne_nil] at last
  | ratio hk => exact hk.elim

theorem isBare_of_isMeasureReference {e : Arithmetic String} {s : List Char}
    (h : Expression e s) (single : isMeasureReference s = true) : e.isBare = true := by
  simp only [isMeasureReference, Bool.and_eq_true, decide_eq_true_eq] at single
  obtain ⟨⟨start, last⟩, count⟩ := single
  obtain ⟨u, hu⟩ := List.isPrefixOf_iff_prefix.1 start
  have first : s.head? = some '[' := hu ▸ rfl
  have number : Text.countOf [']', '.', '['] 0 (s ++ []) =
      references e + Text.countOf [']', '.', '['] 0 [] := countOf_expression h (by simp)
  rw [List.append_nil, count] at number
  have number : 1 = references e := number
  cases h with
  | number _ | reference _ | group _ _ _ => rfl
  | negate _ _ => cases first
  | @binary op l r s t before after hl hr _ _ =>
    have left := references_pos_of_head hl <| by
      rwa [List.append_assoc, List.head?_append_of_ne_nil _ (tight_expression hl).ne_nil] at first
    have right := references_pos_of_last hr <| by
      rwa [← List.cons_append, ← List.append_assoc,
        List.getLast?_append_of_ne_nil _ (tight_expression hr).ne_nil] at last
    have total : 1 = references l + references r := number
    omega
  | ratio hk => exact hk.elim

theorem eq_number_of_numeral {e : Arithmetic String} {s : List Char} (h : Expression e s)
    (numeral : ∀ c ∈ s, Arithmetic.isNumeralChar c = true) : ∃ n, e = .number n := by
  cases h with
  | number n => exact ⟨n, rfl⟩
  | reference h =>
    rw [h.2, Arithmetic.toList_measureReference] at numeral
    cases numeral '[' (List.mem_append_left _ (by decide))
  | group _ _ _ => cases numeral '(' List.mem_cons_self
  | negate _ _ => cases numeral '-' List.mem_cons_self
  | @binary op _ _ _ _ _ _ _ _ _ _ =>
    have symbol := numeral op.symbol (List.mem_append_right _ List.mem_cons_self)
    rw [(Arithmetic.symbol_plain op).2] at symbol
    cases symbol
  | ratio hk => exact hk.elim

/-- A number is kept with the sign before it. -/
def unsigned : List Char → List Char
  | '+' :: r => r
  | '-' :: r => r
  | r => r

theorem numeral_of_isNumber {s : List Char} (h : isNumber s = true) :
    ∀ c ∈ unsigned s, Arithmetic.isNumeralChar c = true := by
  have shape : ((unsigned s).any Char.isDigit &&
      (unsigned s).all (fun c => c.isDigit || c = '.') &&
        decide ((unsigned s).count '.' ≤ 1)) = true := h
  simp only [Bool.and_eq_true, List.all_eq_true] at shape
  exact shape.1.2

theorem mem_unsigned_cons {c d : Char} {s : List Char} (h : d ∈ s) : d ∈ unsigned (c :: s) := by
  unfold unsigned
  split
  · rename_i eq
    cases eq
    exact h
  · rename_i eq
    cases eq
    exact h
  · exact List.mem_cons_of_mem c h

theorem isBare_of_isNumber {e : Arithmetic String} {s : List Char} (h : Expression e s)
    (number : isNumber s = true) : e.isBare = true := by
  have numeral := numeral_of_isNumber number
  cases h with
  | number _ | reference _ | group _ _ _ => rfl
  | @negate e s gap he _ =>
    obtain ⟨n, rfl⟩ := eq_number_of_numeral he fun c hc => numeral c (List.mem_append_right _ hc)
    rfl
  | @binary op l r s t before after hl _ _ _ =>
    obtain ⟨⟨c, tail, rfl, -⟩, -⟩ := tight_expression hl
    have symbol : op.symbol ∈ tail ++ before ++ op.symbol :: (after ++ t) :=
      List.mem_append_right _ List.mem_cons_self
    have digit := numeral _ (mem_unsigned_cons symbol)
    rw [(Arithmetic.symbol_plain op).2] at digit
    cases digit
  | ratio hk => exact hk.elim

theorem isBare_of_isWrapped {e : Arithmetic String} {s : List Char} (h : Expression e s)
    (wrapped : isWrapped s = true) : e.isBare = true := by
  cases h with
  | number _ | reference _ | group _ _ _ => rfl
  | negate _ _ => cases wrapped
  | @binary op l r s t before after hl _ _ _ =>
    rw [List.append_assoc, isWrapped_append hl (by simp)] at wrapped
    cases wrapped
  | ratio hk => exact hk.elim

theorem expression_parenthesize {e : Arithmetic String} {s : List Char} (h : Expression e s) :
    ∃ operand, Operand e operand ∧ Expression operand (parenthesize s) := by
  rw [parenthesize, Text.trim_tight (tight_expression h)]
  by_cases bare : (isMeasureReference s || isNumber s || isWrapped s) = true
  · refine ⟨e, Or.inl ⟨rfl, ?_⟩, by rwa [if_pos bare]⟩
    simp only [Bool.or_eq_true] at bare
    rcases bare with (reference | number) | wrapped
    · exact isBare_of_isMeasureReference h reference
    · exact isBare_of_isNumber h number
    · exact isBare_of_isWrapped h wrapped
  · refine ⟨.group e, Or.inr rfl, ?_⟩
    rw [if_neg bare]
    have written : Expression (.group e) ('(' :: ([] ++ s ++ [] ++ [')'])) :=
      .group h Text.Blank.nil Text.Blank.nil
    simpa using written

end SemanticLayer.Formula
