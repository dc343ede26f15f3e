import SemanticLayer.Proofs.Arithmetic.Tree

set_option autoImplicit false

/-!
Division calls written as quotients without parentheses around the whole.

A quotient binds less tightly than the call that it stands for. In a product and after a sign that
does no harm, because a quotient may be moved out of either; as a divisor, as the base of a power or
as its exponent it falls apart. `Grouped` says that no call stands in such a place.
`Opened` ties a tree to one in which every call is a quotient, and `grouped_of_opened` shows that
a well-formed tree of that kind exists for grouped trees only.
-/
namespace SemanticLayer.Arithmetic

variable {α β : Type}

/-- Whether a tree is a division call, up to signs before it. -/
def isQuotient : Arithmetic α → Bool
  | ratio _ _ => true
  | negate e => e.isQuotient
  | _ => false

/-- Whether no division call is divided by, raised to a power or an exponent. -/
def Grouped : Arithmetic α → Prop
  | number _ | reference _ => True
  | group e | negate e => e.Grouped
  | binary op left right =>
    left.Grouped ∧ right.Grouped ∧ (op = .div → right.isQuotient = false) ∧
      (op = .pow → left.isQuotient = false ∧ right.isQuotient = false)
  | ratio numerator denominator => numerator.Grouped ∧ denominator.Grouped

/-- A product, with the quotients of its second factor moved out. -/
def times (e : Arithmetic α) : Arithmetic α → Arithmetic α
  | binary .mul left right => .binary .mul (times e left) right
  | binary .div left right => .binary .div (times e left) right
  | other => .binary .mul e other

def minus : Arithmetic α → Arithmetic α
  | binary .mul left right => .binary .mul (minus left) right
  | binary .div left right => .binary .div (minus left) right
  | other => .negate other

/-- What a quotient takes as an operand without parentheses. -/
def isBare : Arithmetic α → Bool
  | number _ | reference _ | group _ => true
  | negate (number _) => true
  | _ => false

def Operand (e operand : Arithmetic α) : Prop :=
  (operand = e ∧ e.isBare = true) ∨ operand = group e

/-- A tree and one with quotients for its division calls, whose references answer each other. -/
inductive Opened (answers : α → β → Prop) : Arithmetic α → Arithmetic β → Prop where
  | number (n : Numeral) : Opened answers (number n) (number n)
  | reference {r : α} {b : β} (h : answers r b) : Opened answers (reference r) (reference b)
  | group {e : Arithmetic α} {e' : Arithmetic β} (h : Opened answers e e') :
    Opened answers (group e) (group e')
  | negate {e : Arithmetic α} {e' : Arithmetic β} (h : Opened answers e e') :
    Opened answers (negate e) (minus e')
  | product {l r : Arithmetic α} {l' r' : Arithmetic β} (hl : Opened answers l l')
    (hr : Opened answers r r') : Opened answers (binary .mul l r) (times l' r')
  | binary {op : Operator} {l r : Arithmetic α} {l' r' : Arithmetic β} (h : op ≠ .mul)
    (hl : Opened answers l l') (hr : Opened answers r r') :
    Opened answers (binary op l r) (binary op l' r')
  | ratio {n d : Arithmetic α} {n' d' above below : Arithmetic β} (hn : Opened answers n n')
    (hd : Opened answers d d') (ha : Operand n' above) (hb : Operand d' below) :
    Opened answers (ratio n d) (binary .div above below)

theorem value_times (worth : β → ℚ) (e f : Arithmetic β) :
    (times e f).value worth = (binary .mul e f).value worth := by
  fun_induction times e f with
  | case1 left right ih =>
    simp only [value, Operator.apply] at ih ⊢
    rw [ih]
    cases e.value worth <;> cases left.value worth <;> cases right.value worth <;>
      simp [mul_assoc]
  | case2 left right ih =>
    simp only [value, Operator.apply] at ih ⊢
    rw [ih]
    cases e.value worth <;> cases left.value worth <;> cases right.value worth <;> simp
    split_ifs <;> simp [mul_div_assoc]
  | case3 => rfl

theorem value_minus (worth : β → ℚ) (e : Arithmetic β) :
    (minus e).value worth = (negate e).value worth := by
  fun_induction minus e with
  | case1 left right ih =>
    simp only [value, Operator.apply] at ih ⊢
    rw [ih]
    cases left.value worth <;> cases right.value worth <;> simp
  | case2 left right ih =>
    simp only [value, Operator.apply] at ih ⊢
    rw [ih]
    cases left.value worth <;> cases right.value worth <;> simp
    split_ifs <;> simp [neg_div]
  | case3 => rfl

theorem Operand.value_eq {e operand : Arithmetic β} (h : Operand e operand) (worth : β → ℚ) :
    operand.value worth = e.value worth := by
  rcases h with ⟨rfl, -⟩ | rfl <;> rfl

theorem Opened.value_eq {answers : α → β → Prop} {e : Arithmetic α} {e' : Arithmetic β}
    (h : Opened answers e e') {worth : α → ℚ} {worth' : β → ℚ}
    (agree : ∀ r b, answers r b → worth' b = worth r) : e'.value worth' = e.value worth := by
  induction h with
  | number n => rfl
  | reference h => exact congrArg some (agree _ _ h)
  | group _ ih => exact ih
  | negate _ ih => rw [value_minus, value, value, ih]
  | product _ _ ihl ihr => rw [value_times, value, value, ihl, ihr]
  | binary _ _ _ ihl ihr => rw [value, value, ihl, ihr]
  | ratio _ _ ha hb ihn ihd =>
    rw [value, value, ha.value_eq, hb.value_eq, ihn, ihd]

theorem leading_times (e f : Arithmetic α) : (times e f).leading = 2 := by
  fun_cases times e f <;> rfl

theorem leading_minus {e : Arithmetic α} (h : e.leading = 2) : (minus e).leading = 2 := by
  cases e with
  | binary op left right => cases op <;> first | rfl | cases h
  | number _ | reference _ | group _ | negate _ | ratio _ _ => cases h

theorem two_le_leading_minus (e : Arithmetic α) : 2 ≤ (minus e).leading := by
  fun_cases minus e with
  | case1 | case2 => exact le_refl 2
  | case3 => exact show 2 ≤ 5 by decide

theorem minus_of_three_le {e : Arithmetic α} (h : 3 ≤ e.leading) : minus e = negate e := by
  cases e with
  | binary op left right =>
    cases op with
    | pow => rfl
    | mul | div => exact absurd h (show ¬(3 ≤ 2) by decide)
    | add | sub => exact absurd h (show ¬(3 ≤ 1) by decide)
  | number _ | reference _ | group _ | negate _ | ratio _ _ => rfl

theorem three_le_leading {e : Arithmetic α} (h : 2 ≤ e.leading)
    (hm : ∀ left right, e ≠ binary .mul left right)
    (hd : ∀ left right, e ≠ binary .div left right) : 3 ≤ e.leading := by
  cases e with
  | binary op left right =>
    cases op with
    | mul => exact absurd rfl (hm left right)
    | div => exact absurd rfl (hd left right)
    | pow => exact show 3 ≤ 4 by decide
    | add | sub => exact absurd h (show ¬(2 ≤ 1) by decide)
  | number _ | reference _ | group _ | negate _ | ratio _ _ => exact show 3 ≤ 5 by decide

section Levels

variable {order : PowerOrder}

theorem WellFormed.two_le_trailing {e : Arithmetic α} (h : e.WellFormed order)
    (loose : 2 ≤ e.leading) : 2 ≤ e.trailing :=
  (le_min (show 2 ≤ 3 by decide) loose).trans h.min_leading_le_trailing

theorem WellFormed.three_le_trailing {e : Arithmetic α} (h : e.WellFormed order)
    (loose : 3 ≤ e.leading) : 3 ≤ e.trailing :=
  (le_min (le_refl 3) loose).trans h.min_leading_le_trailing

theorem wellFormed_times {e f : Arithmetic α} (he : e.WellFormed order) (left : 2 ≤ e.trailing)
    (hf : f.WellFormed order) (right : 2 ≤ f.leading) : (times e f).WellFormed order := by
  fun_induction times e f with
  | case1 l r ih | case2 l r ih =>
    have first := ih hf.2.2.1 (hf.1.trans l.trailing_le_leading)
    exact ⟨first.two_le_trailing (leading_times e l).ge, hf.2.1, first, hf.2.2.2⟩
  | case3 f hm hd => exact ⟨left, three_le_leading right hm hd, he, hf⟩

theorem wellFormed_minus {e : Arithmetic α} (h : e.WellFormed order) (loose : 2 ≤ e.leading) :
    (minus e).WellFormed order := by
  fun_induction minus e with
  | case1 l r ih | case2 l r ih =>
    have first := ih h.2.2.1 (h.1.trans l.trailing_le_leading)
    exact ⟨first.two_le_trailing (two_le_leading_minus l), h.2.1, first, h.2.2.2⟩
  | case3 f hm hd => exact ⟨three_le_leading loose hm hd, h⟩

theorem Operand.wellFormed {e operand : Arithmetic α} (h : Operand e operand)
    (he : e.WellFormed order) :
    operand.WellFormed order ∧ operand.leading = 5 ∧ 3 ≤ operand.trailing := by
  rcases h with ⟨rfl, bare⟩ | rfl
  · cases operand with
    | number _ | reference _ | group _ => exact ⟨he, rfl, show 3 ≤ 5 by decide⟩
    | negate _ => exact ⟨he, rfl, he.three_le_trailing (show 3 ≤ 5 by decide)⟩
    | binary _ _ _ | ratio _ _ => cases bare
  · exact ⟨he, rfl, show 3 ≤ 5 by decide⟩

/-- How the levels of a tree with quotients follow from those of the tree with calls. -/
def KeepsLevels (e : Arithmetic α) (e' : Arithmetic β) : Prop :=
  (e.isQuotient = false → e'.leading = e.leading ∧ e'.trailing = e.trailing) ∧
    (e.isQuotient = true → e'.leading = 2 ∧ e'.trailing = 2)

theorem KeepsLevels.le_leading {e : Arithmetic α} {e' : Arithmetic β} (h : KeepsLevels e e')
    {level : Nat} (small : level ≤ 2) (le : level ≤ e.leading) : level ≤ e'.leading := by
  cases quotient : e.isQuotient with
  | false => exact (h.1 quotient).1 ▸ le
  | true => exact (h.2 quotient).1 ▸ small

theorem KeepsLevels.le_trailing {e : Arithmetic α} {e' : Arithmetic β} (h : KeepsLevels e e')
    {level : Nat} (small : level ≤ 2) (le : level ≤ e.trailing) : level ≤ e'.trailing := by
  cases quotient : e.isQuotient with
  | false => exact (h.1 quotient).2 ▸ le
  | true => exact (h.2 quotient).2 ▸ small

/-- A well-formed tree that is grouped stays well formed when its calls become quotients. -/
theorem Opened.wellFormed {answers : α → β → Prop} {e : Arithmetic α} {e' : Arithmetic β}
    (h : Opened answers e e') (formed : e.WellFormed order) (grouped : e.Grouped) :
    e'.WellFormed order ∧ KeepsLevels e e' := by
  -- The levels go through the induction as well: whether an operator can take a quotient where it
  -- took a call is a matter of the level of the quotient.
  induction h with
  | number n => exact ⟨trivial, fun _ => ⟨rfl, rfl⟩, fun h => (nomatch h)⟩
  | reference h => exact ⟨trivial, fun _ => ⟨rfl, rfl⟩, fun h => (nomatch h)⟩
  | group _ ih => exact ⟨(ih formed grouped).1, fun _ => ⟨rfl, rfl⟩, fun h => (nomatch h)⟩
  | @negate e e' h ih =>
    obtain ⟨inner, levels⟩ := ih formed.2 grouped
    have loose := levels.le_leading (le_refl 2) ((show 2 ≤ 3 by decide).trans formed.1)
    have outer := wellFormed_minus inner loose
    refine ⟨outer, fun plain => ?_, fun quotient => ?_⟩
    · obtain ⟨leads, trails⟩ := levels.1 plain
      rw [minus_of_three_le (leads ▸ formed.1)]
      exact ⟨rfl, congrArg (min 3) trails⟩
    · have two := leading_minus (levels.2 quotient).1
      exact ⟨two, le_antisymm (two ▸ (minus e').trailing_le_leading)
        (outer.two_le_trailing two.ge)⟩
  | @product l r l' r' hl hr ihl ihr =>
    obtain ⟨before, after, fl, fr⟩ := formed
    obtain ⟨left, leftLevels⟩ := ihl fl grouped.1
    obtain ⟨right, rightLevels⟩ := ihr fr grouped.2.1
    have outer := wellFormed_times left (leftLevels.le_trailing (le_refl 2) before) right
      (rightLevels.le_leading (le_refl 2) ((show 2 ≤ 3 by decide).trans after))
    have two := leading_times l' r'
    refine ⟨outer, fun _ => ⟨two, ?_⟩, fun h => (nomatch h)⟩
    calc
      (times l' r').trailing = 2 :=
        le_antisymm (two ▸ (times l' r').trailing_le_leading) (outer.two_le_trailing two.ge)
      _ = min 2 r.trailing :=
        (Nat.min_eq_left (fr.two_le_trailing ((show 2 ≤ 3 by decide).trans after))).symm
  | @binary op l r l' r' other hl hr ihl ihr =>
    obtain ⟨before, after, fl, fr⟩ := formed
    obtain ⟨left, leftLevels⟩ := ihl fl grouped.1
    obtain ⟨right, rightLevels⟩ := ihr fr grouped.2.1
    have kept (trails : min op.level r'.trailing = min op.level r.trailing) :
        KeepsLevels (Arithmetic.binary op l r) (Arithmetic.binary op l' r') :=
      ⟨fun _ => ⟨rfl, trails⟩, fun h => (nomatch h)⟩
    cases op with
    | mul => exact absurd rfl other
    | add | sub =>
      have loose := rightLevels.le_leading (le_refl 2) after
      refine ⟨⟨leftLevels.le_trailing (show 1 ≤ 2 by decide) before, loose, left, right⟩, kept ?_⟩
      have first := right.two_le_trailing loose
      have second := fr.two_le_trailing after
      change min 1 r'.trailing = min 1 r.trailing
      omega
    | div =>
      obtain ⟨leads, trails⟩ := rightLevels.1 (grouped.2.2.1 rfl)
      exact ⟨⟨leftLevels.le_trailing (le_refl 2) before, leads ▸ after, left, right⟩,
        kept (congrArg (min 2) trails)⟩
    | pow =>
      obtain ⟨plainLeft, plainRight⟩ := grouped.2.2.2 rfl
      obtain ⟨leads, trails⟩ := rightLevels.1 plainRight
      exact ⟨⟨(leftLevels.1 plainLeft).2 ▸ before, leads ▸ after, left, right⟩,
        kept (congrArg (min 4) trails)⟩
  | ratio _ _ ha hb ihn ihd =>
    obtain ⟨above, five, trails⟩ := ha.wellFormed (ihn formed.1 grouped.1).1
    obtain ⟨below, five', trails'⟩ := hb.wellFormed (ihd formed.2 grouped.2).1
    have kept := Nat.min_eq_left ((show 2 ≤ 3 by decide).trans trails')
    exact ⟨⟨(show 2 ≤ 3 by decide).trans trails, five' ▸ (show 3 ≤ 5 by decide), above, below⟩,
      fun h => (nomatch h), fun _ => ⟨rfl, kept⟩⟩

theorem wellFormed_of_times {e f : Arithmetic α} (h : (times e f).WellFormed order) :
    e.WellFormed order ∧ f.WellFormed order ∧ 2 ≤ f.leading := by
  fun_induction times e f with
  | case1 l r ih | case2 l r ih =>
    obtain ⟨he, hl, loose⟩ := ih h.2.2.1
    exact ⟨he, ⟨hl.two_le_trailing loose, h.2.1, hl, h.2.2.2⟩, le_refl 2⟩
  | case3 f hm hd => exact ⟨h.2.2.1, h.2.2.2, (show 2 ≤ 3 by decide).trans h.2.1⟩

theorem wellFormed_of_minus {e : Arithmetic α} (h : (minus e).WellFormed order) :
    e.WellFormed order ∧ 2 ≤ e.leading := by
  fun_induction minus e with
  | case1 l r ih | case2 l r ih =>
    obtain ⟨hl, loose⟩ := ih h.2.2.1
    exact ⟨⟨hl.two_le_trailing loose, h.2.1, hl, h.2.2.2⟩, le_refl 2⟩
  | case3 f hm hd => exact ⟨h.2, (show 2 ≤ 3 by decide).trans h.1⟩

theorem Opened.leading_of_isQuotient {answers : α → β → Prop} {e : Arithmetic α}
    {e' : Arithmetic β} (h : Opened answers e e') (quotient : e.isQuotient = true) :
    e'.leading = 2 := by
  induction h with
  | ratio _ _ _ _ => rfl
  | negate _ ih => exact leading_minus (ih quotient)
  | number _ | reference _ | group _ | product _ _ | binary _ _ _ => cases quotient

theorem Operand.of_wellFormed {e operand : Arithmetic α} (h : Operand e operand)
    (formed : operand.WellFormed order) : e.WellFormed order := by
  rcases h with ⟨rfl, -⟩ | rfl <;> exact formed

/-- Only a grouped tree can be written with quotients and no further parentheses. -/
theorem grouped_of_opened {answers : α → β → Prop} {e : Arithmetic α} {e' : Arithmetic β}
    (h : Opened answers e e') (formed : e'.WellFormed order) : e.Grouped := by
  induction h with
  | number _ | reference _ => trivial
  | group _ ih => exact ih formed
  | negate _ ih => exact ih (wellFormed_of_minus formed).1
  | product _ _ ihl ihr =>
    obtain ⟨left, right, -⟩ := wellFormed_of_times formed
    exact ⟨ihl left, ihr right, fun h => (nomatch h), fun h => (nomatch h)⟩
  | @binary op l r l' r' _ hl hr ihl ihr =>
    obtain ⟨before, after, left, right⟩ := formed
    -- A quotient is of level 2, too loose for every place that asks for level 3.
    have tight {x : Arithmetic α} {x' : Arithmetic β} (hx : Opened answers x x')
        (three : 3 ≤ x'.leading) : x.isQuotient = false := by
      by_contra quotient
      have two := hx.leading_of_isQuotient (Bool.not_eq_false _ ▸ quotient)
      omega
    refine ⟨ihl left, ihr right, ?_, ?_⟩
    · rintro rfl
      exact tight hr after
    · rintro rfl
      have first : 3 ≤ l'.leading := by
        have := l'.trailing_le_leading
        cases order <;> simp only [Operator.before, reduceCtorEq, ite_true, ite_false] at before <;>
          omega
      have second : 3 ≤ r'.leading := by
        cases order <;> simp only [Operator.after, reduceCtorEq, ite_true, ite_false] at after <;>
          omega
      exact ⟨tight hl first, tight hr second⟩
  | ratio _ _ ha hb ihn ihd =>
    obtain ⟨-, -, above, below⟩ := formed
    exact ⟨ihn (ha.of_wellFormed above), ihd (hb.of_wellFormed below)⟩

end Levels

end SemanticLayer.Arithmetic
