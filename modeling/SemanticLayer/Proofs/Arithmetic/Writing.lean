import SemanticLayer.Formula.Rendering
import SemanticLayer.Proofs.Arithmetic.Precedence
import SemanticLayer.Proofs.Arithmetic.Quotient
import SemanticLayer.Proofs.Text.Blank
import SemanticLayer.Proofs.Text.Search

set_option autoImplicit false

namespace SemanticLayer

open Text (Blank Tight isBlank)

namespace Arithmetic

variable {α : Type}

/-- The texts of a tree, given those of its references and the keywords of its division calls. -/
inductive Written (spells : α → List Char → Prop) (calls : List Char → Prop) :
    Arithmetic α → List Char → Prop where
  | number (n : Numeral) : Written spells calls (number n) n.text
  | reference {r : α} {s : List Char} (h : spells r s) : Written spells calls (reference r) s
  | group {e : Arithmetic α} {s before after : List Char} (h : Written spells calls e s)
    (hb : Blank before) (ha : Blank after) :
    Written spells calls (group e) ('(' :: (before ++ s ++ after ++ [')']))
  | negate {e : Arithmetic α} {s gap : List Char} (h : Written spells calls e s)
    (hg : Blank gap) : Written spells calls (negate e) ('-' :: (gap ++ s))
  | binary {op : Operator} {l r : Arithmetic α} {s t before after : List Char}
    (hl : Written spells calls l s) (hr : Written spells calls r t) (hb : Blank before)
    (ha : Blank after) :
    Written spells calls (binary op l r) (s ++ before ++ op.symbol :: (after ++ t))
  | ratio {n d : Arithmetic α} {keyword s t g₁ g₂ g₃ g₄ : List Char} (hk : calls keyword)
    (hn : Written spells calls n s) (hd : Written spells calls d t)
    (h₁ : Blank g₁) (h₂ : Blank g₂) (h₃ : Blank g₃) (h₄ : Blank g₄) :
    Written spells calls (ratio n d)
      (keyword ++ '(' :: (g₁ ++ s ++ g₂ ++ ',' :: (g₃ ++ t ++ g₄ ++ [')'])))

def isNumeralChar (c : Char) : Bool := c.isDigit || c = '.'

theorem isBlank_of_isNumeralChar {c : Char} (h : isNumeralChar c = true) : isBlank c = false := by
  simp only [isNumeralChar, Bool.or_eq_true, decide_eq_true_eq, Char.isDigit_iff_toNat] at h
  rcases h with ⟨low, high⟩ | rfl
  · have low : 48 ≤ c.toNat := low
    have high : c.toNat ≤ 57 := high
    simp only [isBlank, Bool.or_eq_false_iff, Bool.and_eq_false_iff, decide_eq_false_iff_not,
      beq_eq_false_iff_ne]
    omega
  · rfl

theorem symbol_plain (op : Operator) :
    isBlank op.symbol = false ∧ isNumeralChar op.symbol = false := by
  cases op <;> decide

end Arithmetic

open Arithmetic (isNumeralChar)

theorem Numeral.isNumeralChar (n : Numeral) : ∀ c ∈ n.text, isNumeralChar c = true := by
  have valid := n.valid
  simp only [isNumeral, Bool.and_eq_true, List.all_eq_true] at valid
  exact valid.1.2

theorem Numeral.ne_nil (n : Numeral) : n.text ≠ [] := by
  intro empty
  have valid := n.valid
  rw [empty] at valid
  cases valid

theorem Numeral.tight (n : Numeral) : Tight n.text := by
  have free {c : Char} (h : c ∈ n.text) : isBlank c = false :=
    Arithmetic.isBlank_of_isNumeralChar (n.isNumeralChar c h)
  constructor
  · obtain ⟨c, r, eq⟩ := List.exists_cons_of_ne_nil n.ne_nil
    exact ⟨c, r, eq, free (eq ▸ List.mem_cons_self)⟩
  · refine ⟨n.text.dropLast, n.text.getLast n.ne_nil, ?_, free (List.getLast_mem n.ne_nil)⟩
    exact (List.dropLast_concat_getLast n.ne_nil).symm

namespace Arithmetic

variable {α : Type}

section Written

variable {spells : α → List Char → Prop} {calls : List Char → Prop}

theorem Written.tight (hs : ∀ r s, spells r s → Tight s) (hc : ∀ k, calls k → Tight k)
    {e : Arithmetic α} {s : List Char} (h : Written spells calls e s) : Tight s := by
  have closed : Tight [')'] := Tight.singleton rfl
  induction h with
  | number n => exact n.tight
  | reference h => exact hs _ _ h
  | @group e s before after _ _ _ _ =>
    exact Tight.append (s := ['(']) (Tight.singleton rfl) (before ++ s ++ after) closed
  | @negate e s gap _ _ ih => exact Tight.append (s := ['-']) (Tight.singleton rfl) gap ih
  | @binary op l r s t before after _ _ _ _ ihl ihr =>
    have := ihl.append (before ++ op.symbol :: after) ihr
    simpa only [List.append_assoc, List.cons_append] using this
  | @ratio n d keyword s t g₁ g₂ g₃ g₄ hk _ _ _ _ _ _ _ _ =>
    have := (hc _ hk).append ('(' :: (g₁ ++ s ++ g₂ ++ ',' :: (g₃ ++ t ++ g₄))) closed
    simpa only [List.append_assoc, List.cons_append] using this

theorem Written.times {e f : Arithmetic α} {s t before after : List Char}
    (he : Written spells calls e s) (hf : Written spells calls f t) (hb : Blank before)
    (ha : Blank after) :
    Written spells calls (times e f) (s ++ before ++ '*' :: (after ++ t)) := by
  fun_induction Arithmetic.times e f generalizing t with
  | case1 left right ih =>
    cases hf with
    | binary hl hr hb' ha' =>
      have : Written spells calls (.binary .mul _ _) _ := .binary (ih hl) hr hb' ha'
      simpa only [List.append_assoc, List.cons_append] using this
  | case2 left right ih =>
    cases hf with
    | binary hl hr hb' ha' =>
      have : Written spells calls (.binary .div _ _) _ := .binary (ih hl) hr hb' ha'
      simpa only [List.append_assoc, List.cons_append] using this
  | case3 => exact @Written.binary _ _ _ .mul _ _ _ _ _ _ he hf hb ha

theorem Written.minus {e : Arithmetic α} {s gap : List Char} (h : Written spells calls e s)
    (hg : Blank gap) : Written spells calls (minus e) ('-' :: (gap ++ s)) := by
  fun_induction Arithmetic.minus e generalizing s with
  | case1 left right ih =>
    cases h with
    | binary hl hr hb' ha' =>
      have : Written spells calls (.binary .mul _ _) _ := .binary (ih hl) hr hb' ha'
      simpa only [List.append_assoc, List.cons_append] using this
  | case2 left right ih =>
    cases h with
    | binary hl hr hb' ha' =>
      have : Written spells calls (.binary .div _ _) _ := .binary (ih hl) hr hb' ha'
      simpa only [List.append_assoc, List.cons_append] using this
  | case3 => exact .negate h hg

end Written

def operator? (c : Char) : Option Operator :=
  [Operator.add, .sub, .mul, .div, .pow].find? fun op => op.symbol == c

def metric? (s : List Char) : Option (String × List Char) :=
  if Formula.referenceStart.isPrefixOf s then
    (Text.splitFirst [']'] (s.drop Formula.referenceStart.length)).map fun (name, rest) =>
      (String.ofList name, rest)
  else none

def token? (c : Char) (r : List Char) : Option (Token String × List Char) :=
  if c = '(' then some (.opening, r)
  else if c = ')' then some (.closing, r)
  else if isNumeralChar c then
    let run := c :: r.takeWhile isNumeralChar
    if valid : isNumeral run = true then some (.number ⟨run, valid⟩, r.dropWhile isNumeralChar)
    else none
  else
    match operator? c with
    | some op => some (.operator op, r)
    | none => (metric? (c :: r)).map fun (name, rest) => (.reference name, rest)

theorem token?_length {c : Char} {r rest : List Char} {t : Token String}
    (h : token? c r = some (t, rest)) : rest.length ≤ r.length := by
  simp only [token?] at h
  split at h
  · cases h
    exact le_refl _
  split at h
  · cases h
    exact le_refl _
  split at h
  · split at h
    · cases h
      exact (List.dropWhile_suffix isNumeralChar).length_le
    · cases h
  split at h
  · cases h
    exact le_refl _
  · obtain ⟨⟨name, after⟩, hm, he⟩ := Option.map_eq_some_iff.1 h
    cases he
    simp only [metric?] at hm
    split at hm
    · obtain ⟨⟨inside, q⟩, hs, hq⟩ := Option.map_eq_some_iff.1 hm
      cases hq
      have bound := Text.splitFirst_length hs
      have start : Formula.referenceStart.length = 12 := rfl
      simp only [start, List.length_drop, List.length_cons, List.length_nil] at bound
      change q.length ≤ r.length
      omega
    · cases hm

def lex : List Char → Option (List (Token String))
  | [] => some []
  | c :: r =>
    if isBlank c then lex r
    else
      match _h : token? c r with
      | some (t, rest) => (lex rest).map (t :: ·)
      | none => none
termination_by s => s.length
decreasing_by
  · exact Nat.lt_succ_self _
  · exact Nat.lt_succ_of_le (token?_length _h)

/-- The tree that a text over metrics writes. -/
def read? (order : PowerOrder) (s : String) : Option (Arithmetic String) :=
  (lex s.toList).bind (readTokens order)

theorem lex_nil : lex [] = some [] := by
  rw [lex.eq_def]

theorem lex_blank {b : List Char} (h : Blank b) (s : List Char) : lex (b ++ s) = lex s := by
  induction b with
  | nil => rfl
  | cons c b ih =>
    rw [List.cons_append, lex.eq_def]
    dsimp only
    rw [if_pos (h c List.mem_cons_self)]
    exact ih fun d hd => h d (List.mem_cons_of_mem c hd)

theorem lex_cons {c : Char} {r rest : List Char} {t : Token String} (plain : isBlank c = false)
    (h : token? c r = some (t, rest)) : lex (c :: r) = (lex rest).map (t :: ·) := by
  rw [lex.eq_def]
  dsimp only
  rw [if_neg (by simp [plain])]
  split
  · rename_i found
    rw [h] at found
    cases found
    rfl
  · rename_i missing
    rw [h] at missing
    cases missing

theorem token?_operator (op : Operator) (r : List Char) :
    token? op.symbol r = some (.operator op, r) := by
  cases op <;> rfl

def Apart (s : List Char) : Prop := ∀ c ∈ s.head?, isNumeralChar c = false

theorem apart_append {b s : List Char} (hb : Blank b) (hs : Apart s) : Apart (b ++ s) := by
  cases b with
  | nil => exact hs
  | cons c b =>
    intro d hd
    cases hd
    refine Bool.eq_false_iff.2 fun numeral => ?_
    have blank := hb c List.mem_cons_self
    rw [isBlank_of_isNumeralChar numeral] at blank
    cases blank

theorem apart_cons {c : Char} (h : isNumeralChar c = false) (s : List Char) : Apart (c :: s) := by
  intro d hd
  cases hd
  exact h

theorem lex_number (n : Numeral) {rest : List Char} (h : Apart rest) :
    lex (n.text ++ rest) = (lex rest).map (.number n :: ·) := by
  obtain ⟨text, valid⟩ := n
  obtain ⟨c, r, rfl⟩ := List.exists_cons_of_ne_nil (Numeral.ne_nil ⟨text, valid⟩)
  have numeral := Numeral.isNumeralChar ⟨c :: r, valid⟩
  have first := numeral c List.mem_cons_self
  obtain ⟨taken, dropped⟩ := Text.takeWhile_of_head (fun d hd => numeral d (.tail c hd)) h
  refine lex_cons (isBlank_of_isNumeralChar first) ?_
  have opening : c ≠ '(' := fun h => by rw [h] at first; cases first
  have closing : c ≠ ')' := fun h => by rw [h] at first; cases first
  change token? c (r ++ rest) = _
  simp only [token?, if_neg opening, if_neg closing, if_pos first, taken, dropped, dif_pos valid]

def MetricText (name : String) (s : List Char) : Prop :=
  ']' ∉ name.toList ∧ s = (Formula.measureReference name).toList

theorem toList_measureReference (name : String) :
    (Formula.measureReference name).toList = Formula.referenceStart ++ (name.toList ++ [']']) := by
  rw [Formula.measureReference, String.toList_append, String.toList_append, List.append_assoc]
  rfl

theorem metric?_metricText {name : String} {s : List Char} (h : MetricText name s)
    (rest : List Char) : metric? (s ++ rest) = some (name, rest) := by
  obtain ⟨free, rfl⟩ := h
  have start (t : List Char) :
      Formula.referenceStart.isPrefixOf (Formula.referenceStart ++ t) = true :=
    List.isPrefixOf_iff_prefix.2 (List.prefix_append _ t)
  rw [toList_measureReference, List.append_assoc, metric?, if_pos (start _), List.drop_left,
    List.append_assoc, List.singleton_append, Text.splitFirst_of_notMem free]
  exact congrArg (fun known => some (known, rest)) String.ofList_toList

abbrev Expression : Arithmetic String → List Char → Prop := Written MetricText fun _ => False

theorem tight_metric (name : String) : Tight (Formula.measureReference name).toList := by
  rw [toList_measureReference]
  exact ⟨⟨'[', _, rfl, rfl⟩, Formula.referenceStart ++ name.toList, ']', by simp, rfl⟩

theorem MetricText.tight {name : String} {s : List Char} (h : MetricText name s) : Tight s := by
  rw [h.2]
  exact tight_metric name

theorem lex_expression {e : Arithmetic String} {s : List Char} (h : Expression e s)
    {rest : List Char} (apart : Apart rest) :
    lex (s ++ rest) = (lex rest).map (e.tokens ++ ·) := by
  -- Each part is lexed with all that stands behind it, so what follows is general. It must not
  -- start with a character of a number, or the last number would go on.
  induction h generalizing rest with
  | number n => exact lex_number n apart
  | @reference name s h =>
    have first : s ++ rest = '[' :: (s.drop 1 ++ rest) := by
      rw [h.2, toList_measureReference]
      rfl
    rw [first]
    refine lex_cons rfl ?_
    change (metric? ('[' :: (s.drop 1 ++ rest))).map _ = _
    rw [← first, metric?_metricText h]
    rfl
  | @group e s before after _ hb ha ih =>
    have closing : lex (after ++ ')' :: rest) = (lex rest).map (.closing :: ·) := by
      rw [lex_blank ha]
      exact lex_cons rfl rfl
    calc
      lex ('(' :: (before ++ s ++ after ++ [')']) ++ rest)
        = lex ('(' :: (before ++ (s ++ (after ++ ')' :: rest)))) := by simp
      _ = (lex (before ++ (s ++ (after ++ ')' :: rest)))).map (.opening :: ·) := lex_cons rfl rfl
      _ = _ := by
        rw [lex_blank hb, ih (apart_append ha (apart_cons rfl rest)), closing]
        simp [tokens, Function.comp_def]
  | @negate e s gap _ hg ih =>
    calc
      lex ('-' :: (gap ++ s) ++ rest) = lex ('-' :: (gap ++ (s ++ rest))) := by simp
      _ = (lex (gap ++ (s ++ rest))).map (.operator .sub :: ·) := lex_cons rfl rfl
      _ = _ := by
        rw [lex_blank hg, ih apart]
        simp [tokens, Function.comp_def]
  | @binary op l r s t before after _ _ hb ha ihl ihr =>
    obtain ⟨visible, plain⟩ := symbol_plain op
    have behind : lex (op.symbol :: (after ++ (t ++ rest))) =
        ((lex rest).map (r.tokens ++ ·)).map (.operator op :: ·) := by
      rw [lex_cons visible (token?_operator op _), lex_blank ha, ihr apart]
    calc
      lex (s ++ before ++ op.symbol :: (after ++ t) ++ rest)
        = lex (s ++ (before ++ op.symbol :: (after ++ (t ++ rest)))) := by simp
      _ = (lex (before ++ op.symbol :: (after ++ (t ++ rest)))).map (l.tokens ++ ·) :=
        ihl (apart_append hb (apart_cons plain _))
      _ = _ := by
        rw [lex_blank hb, behind]
        simp [tokens, Function.comp_def]
  | ratio hk => exact hk.elim

/-- A text writes what is read from it, as long as that is well formed. -/
theorem read?_expression {order : PowerOrder} {e : Arithmetic String} {s : List Char}
    (h : Expression e s) : read? order (String.ofList s) = readTokens order e.tokens := by
  have whole : lex (s ++ []) = (lex []).map (e.tokens ++ ·) :=
    lex_expression h fun _ h => nomatch h
  rw [List.append_nil] at whole
  rw [read?, String.toList_ofList, whole, lex_nil]
  simp

theorem read?_of_wellFormed {order : PowerOrder} {e : Arithmetic String} {s : List Char}
    (h : Expression e s) (formed : e.WellFormed order) :
    read? order (String.ofList s) = some e :=
  (read?_expression h).trans (readTokens_tokens formed)

end Arithmetic

end SemanticLayer
