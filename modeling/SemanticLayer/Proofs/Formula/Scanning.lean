import SemanticLayer.Formula.Normal
import SemanticLayer.Proofs.Arithmetic.Writing
import SemanticLayer.Proofs.Text.Arguments

set_option autoImplicit false

namespace SemanticLayer.Formula

open Text (ArgumentStyle Blank Region isBlank)
open Arithmetic (Written)

/-- Outside of names and texts, or right behind a name. -/
def Free (region : Region) : Prop :=
  region = .outside ∨ region = .leaving ']' ∨ region = .leaving '\''

/-- A text that a reader of arguments goes through at any depth. -/
def Passes (s : List Char) : Prop :=
  ∀ (depth : Nat) (region : Region), Free region →
    ∃ next, Free next ∧ argumentStyle.scan (depth, region) s = some (depth, next)

/-- A character without a meaning to a reader of arguments, commas aside. -/
def isPlain (c : Char) : Bool :=
  c ≠ '(' && c ≠ ')' && c ≠ '[' && c ≠ ']' && c ≠ '\'' && c ≠ '"'

theorem isPlain_of_isBlank {c : Char} (h : isBlank c = true) : isPlain c = true := by
  have free {d : Char} (hd : isBlank d = false) : c ≠ d := fun eq => by
    rw [eq, hd] at h
    cases h
  simp only [isPlain, ne_eq, Bool.and_eq_true, decide_eq_true_eq]
  exact ⟨⟨⟨⟨⟨free rfl, free rfl⟩, free rfl⟩, free rfl⟩, free rfl⟩, free rfl⟩

theorem isPlain_of_isNumeralChar {c : Char} (h : Arithmetic.isNumeralChar c = true) :
    isPlain c = true := by
  have free {d : Char} (hd : Arithmetic.isNumeralChar d = false) : c ≠ d := fun eq => by
    rw [eq, hd] at h
    cases h
  simp only [isPlain, ne_eq, Bool.and_eq_true, decide_eq_true_eq]
  exact ⟨⟨⟨⟨⟨free rfl, free rfl⟩, free rfl⟩, free rfl⟩, free rfl⟩, free rfl⟩

theorem step_of_free {region : Region} (h : Free region) {c : Char} (bracket : c ≠ ']')
    (quote : c ≠ '\'') : argumentStyle.step region c = argumentStyle.enter c := by
  rcases h with rfl | rfl | rfl
  · rfl
  · exact if_neg bracket
  · exact if_neg quote

theorem enter_of_isPlain {c : Char} (h : isPlain c = true) :
    argumentStyle.enter c = .outside := by
  simp only [isPlain, ne_eq, Bool.and_eq_true, decide_eq_true_eq] at h
  obtain ⟨⟨⟨⟨-, bracket⟩, -⟩, quote⟩, double⟩ := h
  have none : argumentStyle.regionEnd c = none := by
    simp only [argumentStyle]
  rw [ArgumentStyle.enter, none]

theorem advance_plain {c : Char} (h : isPlain c = true) {depth : Nat} {region : Region}
    (free : Free region) (comma : c = ',' → depth ≠ 0) :
    argumentStyle.advance (depth, region) c = some (depth, .outside) := by
  have shape := h
  simp only [isPlain, ne_eq, Bool.and_eq_true, decide_eq_true_eq] at shape
  obtain ⟨⟨⟨⟨⟨opening, closing⟩, -⟩, bracket⟩, quote⟩, -⟩ := shape
  have whole : ¬(c = ',' ∧ depth = 0) := fun ⟨isComma, zero⟩ => comma isComma zero
  have opens : ¬argumentStyle.opens c = true := by simpa [argumentStyle] using opening
  have closes : ¬argumentStyle.closes c = true := by simpa [argumentStyle] using closing
  simp only [ArgumentStyle.advance, step_of_free free bracket quote, enter_of_isPlain h, ne_eq,
    not_true_eq_false, if_false, if_neg opens, if_neg closes, if_neg whole]

theorem scan_outside {s : List Char} (h : ∀ c ∈ s, isPlain c = true) {depth : Nat}
    (comma : ',' ∈ s → depth ≠ 0) :
    argumentStyle.scan (depth, .outside) s = some (depth, .outside) := by
  induction s with
  | nil => rfl
  | cons c s ih =>
    have first : argumentStyle.advance (depth, .outside) c = some (depth, .outside) :=
      advance_plain (h c List.mem_cons_self) (Or.inl rfl) fun isComma =>
        comma (isComma ▸ List.mem_cons_self)
    rw [ArgumentStyle.scan_cons, first]
    exact ih (fun d hd => h d (List.mem_cons_of_mem c hd)) fun later =>
      comma (List.mem_cons_of_mem c later)

theorem scan_plain {s : List Char} (h : ∀ c ∈ s, isPlain c = true) {depth : Nat}
    {region : Region} (free : Free region) (comma : ',' ∈ s → depth ≠ 0) :
    ∃ next, Free next ∧ argumentStyle.scan (depth, region) s = some (depth, next) := by
  cases s with
  | nil => exact ⟨region, free, rfl⟩
  | cons c s =>
    have first := advance_plain (h c List.mem_cons_self) free
      fun isComma => comma (isComma ▸ List.mem_cons_self)
    refine ⟨.outside, Or.inl rfl, ?_⟩
    rw [ArgumentStyle.scan_cons, first]
    exact scan_outside (fun d hd => h d (List.mem_cons_of_mem c hd)) fun later =>
      comma (List.mem_cons_of_mem c later)

theorem scan_inside (style : ArgumentStyle) {close : Char} {s : List Char} (h : close ∉ s)
    (depth : Nat) :
    style.scan (depth, .inside close) s = some (depth, .inside close) := by
  induction s with
  | nil => rfl
  | cons c s ih =>
    obtain ⟨other, later⟩ := List.ne_and_not_mem_of_not_mem_cons h
    have first : style.advance (depth, .inside close) c = some (depth, .inside close) := by
      simp only [ArgumentStyle.advance, ArgumentStyle.step, if_neg (Ne.symm other), ne_eq,
        reduceCtorEq, not_false_eq_true, if_true]
    rw [ArgumentStyle.scan_cons, first]
    exact ih later

theorem scan_region {start close : Char} {s : List Char} {region : Region}
    (entered : argumentStyle.step region start = .inside close) (h : close ∉ s) (depth : Nat) :
    argumentStyle.scan (depth, region) (start :: (s ++ [close])) =
      some (depth, .leaving close) := by
  have first : argumentStyle.advance (depth, region) start = some (depth, .inside close) := by
    simp only [ArgumentStyle.advance, entered, ne_eq, reduceCtorEq, not_false_eq_true, if_true]
  have last : argumentStyle.advance (depth, .inside close) close =
      some (depth, .leaving close) := by
    simp only [ArgumentStyle.advance, ArgumentStyle.step, if_true, ne_eq, reduceCtorEq,
      not_false_eq_true]
  rw [ArgumentStyle.scan_cons, first, Option.bind_some, ArgumentStyle.scan_append,
    scan_inside _ h depth, Option.bind_some, ArgumentStyle.scan_cons, last]
  rfl

theorem advance_opening {region : Region} (free : Free region) (depth : Nat) :
    argumentStyle.advance (depth, region) '(' = some (depth + 1, .outside) := by
  rcases free with rfl | rfl | rfl <;> rfl

theorem advance_closing {region : Region} (free : Free region) (depth : Nat) :
    argumentStyle.advance (depth + 1, region) ')' = some (depth, .outside) := by
  rcases free with rfl | rfl | rfl <;> rfl

theorem Passes.append {s t : List Char} (hs : Passes s) (ht : Passes t) : Passes (s ++ t) := by
  intro depth region free
  obtain ⟨middle, stays, first⟩ := hs depth region free
  obtain ⟨next, ends, second⟩ := ht depth middle stays
  refine ⟨next, ends, ?_⟩
  rw [ArgumentStyle.scan_append, first]
  exact second

theorem passes_plain {s : List Char} (h : ∀ c ∈ s, isPlain c = true) (comma : ',' ∉ s) :
    Passes s :=
  fun _ _ free => scan_plain h free fun found => absurd found comma

theorem passes_char {c : Char} (h : isPlain c = true) (comma : ',' ≠ c) : Passes [c] :=
  passes_plain (List.forall_mem_singleton.2 h) fun found => comma (List.mem_singleton.1 found)

theorem Passes.blank {b : List Char} (h : Blank b) : Passes b :=
  passes_plain (fun c hc => isPlain_of_isBlank (h c hc)) (h.notMem rfl)

theorem passes_nested {s : List Char}
    (h : ∀ (depth : Nat) (region : Region), Free region →
      ∃ next, Free next ∧ argumentStyle.scan (depth + 1, region) s = some (depth + 1, next)) :
    Passes ('(' :: (s ++ [')'])) := by
  intro depth region free
  obtain ⟨middle, stays, inner⟩ := h depth .outside (Or.inl rfl)
  refine ⟨.outside, Or.inl rfl, ?_⟩
  rw [ArgumentStyle.scan_cons, advance_opening free, Option.bind_some, ArgumentStyle.scan_append,
    inner, Option.bind_some, ArgumentStyle.scan_cons, advance_closing stays]
  rfl

theorem passes_comma {s t : List Char} (hs : Passes s) (ht : Passes t) :
    Passes ('(' :: (s ++ ',' :: t ++ [')'])) := by
  refine passes_nested fun depth region free => ?_
  obtain ⟨middle, stays, first⟩ := hs (depth + 1) region free
  obtain ⟨next, ends, second⟩ := ht (depth + 1) .outside (Or.inl rfl)
  have comma := advance_plain (c := ',') rfl stays fun _ => Nat.succ_ne_zero depth
  refine ⟨next, ends, ?_⟩
  rw [ArgumentStyle.scan_append, first, Option.bind_some, ArgumentStyle.scan_cons, comma]
  exact second

section Written

variable {α : Type} {spells : α → List Char → Prop} {calls : List Char → Prop}

theorem Passes.written (hs : ∀ r s, spells r s → Passes s) (hc : ∀ k, calls k → Passes k)
    {e : Arithmetic α} {s : List Char} (h : Written spells calls e s) : Passes s := by
  -- A comma may only stand inside a call, so a division call is passed with its two arguments one
  -- level down.
  induction h with
  | number n =>
    refine passes_plain (fun c hc => isPlain_of_isNumeralChar (n.isNumeralChar c hc)) fun h => ?_
    cases n.isNumeralChar ',' h
  | reference h => exact hs _ _ h
  | @group e s before after _ hb ha ih =>
    exact passes_nested fun depth => ((Passes.blank hb).append ih).append (.blank ha) (depth + 1)
  | @negate e s gap _ hg ih =>
    have sign : Passes ['-'] := passes_char rfl (by decide)
    exact sign.append ((Passes.blank hg).append ih)
  | @binary op l r s t before after _ _ hb ha ihl ihr =>
    have symbol : Passes [op.symbol] := by cases op <;> exact passes_char rfl (by decide)
    exact (ihl.append (.blank hb)).append (symbol.append ((Passes.blank ha).append ihr))
  | @ratio n d keyword s t g₁ g₂ g₃ g₄ hk _ _ h₁ h₂ h₃ h₄ ihn ihd =>
    have above := ((Passes.blank h₁).append ihn).append (.blank h₂)
    have below := ((Passes.blank h₃).append ihd).append (.blank h₄)
    have := (hc _ hk).append (passes_comma above below)
    simpa only [List.append_assoc, List.cons_append] using this

end Written

theorem splitArguments_group {s : List Char} (h : Passes s) (rest : List Char) :
    splitArguments ('(' :: (s ++ ')' :: rest)) = some ⟨[s], rest⟩ := by
  obtain ⟨next, free, inner⟩ := h 0 .outside (Or.inl rfl)
  have closed : argumentStyle.read 0 next (')' :: rest) = some ⟨[[]], rest⟩ := by
    rcases free with rfl | rfl | rfl <;> rfl
  change argumentStyle.read 0 .outside (s ++ ')' :: rest) = _
  rw [argumentStyle.read_append inner, closed, Option.map_some, Text.Arguments.pushAll_eq,
    List.append_nil]

theorem splitArguments_pair {s t : List Char} (hs : Passes s) (ht : Passes t)
    (rest : List Char) :
    splitArguments ('(' :: (s ++ ',' :: (t ++ ')' :: rest))) = some ⟨[s, t], rest⟩ := by
  obtain ⟨middle, stays, first⟩ := hs 0 .outside (Or.inl rfl)
  obtain ⟨next, free, second⟩ := ht 0 .outside (Or.inl rfl)
  have closed : argumentStyle.read 0 next (')' :: rest) = some ⟨[[]], rest⟩ := by
    rcases free with rfl | rfl | rfl <;> rfl
  have cut (r : List Char) : argumentStyle.read 0 middle (',' :: r) =
      (argumentStyle.read 0 .outside r).map fun found =>
        { found with items := [] :: found.items } := by
    rcases stays with rfl | rfl | rfl <;> rfl
  change argumentStyle.read 0 .outside (s ++ ',' :: (t ++ ')' :: rest)) = _
  rw [argumentStyle.read_append first, cut, argumentStyle.read_append second, closed]
  simp only [Option.map_some, Text.Arguments.pushAll_eq, List.append_nil]

end SemanticLayer.Formula
