import SemanticLayer.Proofs.Formula.Operand
import SemanticLayer.Proofs.Formula.Reference

set_option autoImplicit false

/-!
Formulas read piece by piece. `Translates` says what a piece of a formula becomes whatever follows
it; pieces are put together by `Translates.append`, and division calls take two of them.
-/
namespace SemanticLayer.Formula

open Text (Blank Tight isBlank startsFold)

def push (c : Char) : Formula → Formula
  | .stop run rest => .stop (c :: run) rest
  | .reference run here target tail => .reference (c :: run) here target tail
  | .ratio run here numerator denominator tail =>
    .ratio (c :: run) here numerator denominator tail

theorem parse_eq (s : List Char) : parse s =
    match ratioArguments (s.dropWhile isArithmetic) with
    | some (numerator, denominator, rest) =>
      .ratio (arithmeticRun s) (s.dropWhile isArithmetic) (parse numerator) (parse denominator)
        (parse rest)
    | none =>
      match reference? (s.dropWhile isArithmetic) with
      | some (target, rest) =>
        .reference (arithmeticRun s) (s.dropWhile isArithmetic) target (parse rest)
      | none => .stop (arithmeticRun s) (s.dropWhile isArithmetic) := by
  rw [parse]
  split
  · rename_i found
    rw [found]
  · rename_i missing
    rw [missing]
    split
    · rename_i found
      rw [found]
    · rename_i missing
      rw [missing]

theorem parse_nil : parse [] = .stop [] [] := by
  rw [parse_eq]
  rfl

theorem parse_cons {c : Char} (h : isArithmetic c = true) (s : List Char) :
    parse (c :: s) = (parse s).push c := by
  rw [parse_eq (c :: s), parse_eq s, List.dropWhile_cons_of_pos h, arithmeticRun,
    List.takeWhile_cons_of_pos h]
  cases ratioArguments (s.dropWhile isArithmetic) with
  | some found => rfl
  | none => cases reference? (s.dropWhile isArithmetic) <;> rfl

theorem parse_ne_stop {s : List Char} (h : s ≠ []) : parse s ≠ .stop [] [] := by
  intro stopped
  rw [parse_eq] at stopped
  split at stopped
  · cases stopped
  split at stopped
  · cases stopped
  · injection stopped with run rest
    refine h ?_
    rw [← List.takeWhile_append_dropWhile (p := isArithmetic) (l := s)]
    exact List.append_eq_nil_iff.2 ⟨run, rest⟩

section Evaluate

variable {S : Type} {source : MeasureSource (StateM S)}

def extend (o : List Char) (answer : (List Char × List Char) × S) :
    (List Char × List Char) × S :=
  ((o ++ answer.1.1, answer.1.2), answer.2)

theorem run_bind_eq {A B : Type} {x : StateM S A} {f : A → StateM S B} {σ σ' : S} {a : A}
    (h : x.run σ = (a, σ')) : (x >>= f).run σ = (f a).run σ' := by
  rw [StateT.run_bind, h]
  rfl

theorem evaluate_push (c : Char) (f : Formula) (σ : S) :
    ((f.push c).evaluate source).run σ = extend [c] ((f.evaluate source).run σ) := by
  cases f with
  | stop run rest => rfl
  | reference run here target tail =>
    rcases asked : (target.resolve source).run σ with ⟨_ | name, σ'⟩
    all_goals
      simp only [push, evaluate, run_bind_eq asked]
      rfl
  | ratio run here numerator denominator tail =>
    simp only [push, evaluate]
    by_cases noAbove : numerator = .stop [] []
    · simp only [noAbove, if_true]
      rfl
    simp only [noAbove, if_false]
    rcases first : (numerator.evaluate source).run σ with ⟨⟨above, _ | ⟨d, rest⟩⟩, σ'⟩
    · simp only [run_bind_eq first]
      by_cases noBelow : denominator = .stop [] []
      · simp only [noBelow, if_true]
        rfl
      simp only [noBelow, if_false]
      rcases second : (denominator.evaluate source).run σ' with ⟨⟨below, _ | ⟨d, rest⟩⟩, σ''⟩
      all_goals
        simp only [run_bind_eq second]
        rfl
    · simp only [run_bind_eq first]
      rfl

/-- What a piece of a formula becomes, whatever is read after it. A bracket right behind could
belong to a name. -/
structure Translates (source : MeasureSource (StateM S)) (s o : List Char) (σ σ' : S) : Prop where
  starts : ∀ rest : List Char, rest.head? ≠ some ']' → (s ++ rest).head? ≠ some ']'
  run : ∀ rest : List Char, rest.head? ≠ some ']' →
    ((parse (s ++ rest)).evaluate source).run σ =
      extend o (((parse rest).evaluate source).run σ')

theorem Translates.append {s t o p : List Char} {σ₁ σ₂ σ₃ : S}
    (hs : Translates source s o σ₁ σ₂) (ht : Translates source t p σ₂ σ₃) :
    Translates source (s ++ t) (o ++ p) σ₁ σ₃ := by
  constructor
  · intro rest apart
    rw [List.append_assoc]
    exact hs.starts _ (ht.starts rest apart)
  · intro rest apart
    rw [List.append_assoc, hs.run _ (ht.starts rest apart), ht.run rest apart]
    simp only [extend, List.append_assoc]

theorem Translates.arithmetic {s : List Char} (h : ∀ c ∈ s, isArithmetic c = true) (σ : S) :
    Translates source s s σ σ := by
  constructor
  · intro rest apart
    cases s with
    | nil => exact apart
    | cons c s =>
      intro bracket
      have first := h c List.mem_cons_self
      rw [Option.some.inj bracket] at first
      cases first
  · intro rest _
    induction s with
    | nil => rfl
    | cons c s ih =>
      rw [List.cons_append, parse_cons (h c List.mem_cons_self), evaluate_push,
        ih fun d hd => h d (List.mem_cons_of_mem c hd)]
      rfl

theorem isArithmetic_of_isBlank {c : Char} (h : isBlank c = true) : isArithmetic c = true := by
  simp [isArithmetic, h]

theorem Translates.blank {b : List Char} (h : Blank b) (σ : S) : Translates source b b σ σ :=
  .arithmetic (fun c hc => isArithmetic_of_isBlank (h c hc)) σ

theorem Translates.char {c : Char} (h : isArithmetic c = true) (σ : S) :
    Translates source [c] [c] σ σ :=
  .arithmetic (fun d hd => by rwa [List.mem_singleton.1 hd]) σ

theorem isArithmetic_of_isNumeralChar {c : Char} (h : Arithmetic.isNumeralChar c = true) :
    isArithmetic c = true := by
  simp only [Arithmetic.isNumeralChar, Bool.or_eq_true, decide_eq_true_eq] at h
  rcases h with h | rfl
  · simp [isArithmetic, h]
  · rfl

theorem isArithmetic_of_isAlpha {c : Char} (h : c.isAlpha = true) : isArithmetic c = false := by
  have free {d : Char} (hd : d.isAlpha = false) : c ≠ d := fun eq => by
    rw [eq, hd] at h
    cases h
  have digit : c.isDigit = false := by
    rw [← Bool.not_eq_true, Char.isDigit_iff_toNat]
    have range := (Text.isAlpha_iff c).1 h
    intro ⟨_, high⟩
    have high : c.toNat ≤ 57 := high
    omega
  simp [isArithmetic, digit, Text.isBlank_of_isAlpha h, free (d := '+') rfl, free (d := '-') rfl,
    free (d := '*') rfl, free (d := '/') rfl, free (d := '^') rfl, free (d := '(') rfl,
    free (d := ')') rfl, free (d := '.') rfl]

theorem dropWhile_of_not_isArithmetic {c : Char} (h : isArithmetic c = false) (s : List Char) :
    (c :: s).dropWhile isArithmetic = c :: s ∧ arithmeticRun (c :: s) = [] := by
  have plain : ¬isArithmetic c = true := by simp [h]
  exact ⟨List.dropWhile_cons_of_neg plain, List.takeWhile_cons_of_neg plain⟩

theorem Spelling.first {r : Reference} {s : List Char} (h : Spelling r s) :
    ∃ c t, s = c :: t ∧ isArithmetic c = false ∧ c ≠ ']' := by
  have word {f : AggregateFunction} {keyword tail : List Char}
      (hk : keyword.map Char.toLower = f.keyword.toList) :
      ∃ c t, keyword ++ tail = c :: t ∧ isArithmetic c = false ∧ c ≠ ']' := by
    obtain ⟨c, t, rfl⟩ : ∃ c t, keyword = c :: t := by
      refine List.exists_cons_of_ne_nil fun empty => ?_
      rw [empty] at hk
      exact f.keyword_ne_nil hk.symm
    have letter := Text.isAlpha_of_map_toLower hk f.keyword_letters c List.mem_cons_self
    refine ⟨c, t ++ tail, rfl, isArithmetic_of_isAlpha letter, fun bracket => ?_⟩
    rw [bracket] at letter
    cases letter
  cases h with
  | measure _ => exact ⟨'[', _, rfl, rfl, by decide⟩
  | column _ hk _ _ _ _ _ _ => exact word hk
  | rows hk _ _ _ _ => exact word hk

theorem Spelling.ratioArguments_eq_none {r : Reference} {s : List Char} (h : Spelling r s)
    (rest : List Char) : ratioArguments (s ++ rest) = none := by
  have word {f : AggregateFunction} {keyword tail : List Char}
      (hk : keyword.map Char.toLower = f.keyword.toList) :
      startsFold ratioKeyword (keyword ++ '(' :: tail) = false := by
    rw [← Bool.not_eq_true, Text.startsFold_iff, List.map_append, hk]
    intro starts
    have free : '(' ∉ f.keyword.toList := fun found => by cases f.keyword_letters '(' found
    have same := Text.eq_of_prefix_of_notMem (s := "divide".toList) (by decide) free starts
    cases f <;> exact absurd same (by decide)
  have cut : startsFold ratioKeyword (s ++ rest) = false := by
    cases h with
    | measure _ => rfl
    | column _ hk _ _ _ _ _ _ =>
      rw [List.append_assoc]
      exact word hk
    | rows hk _ _ _ _ =>
      rw [List.append_assoc]
      exact word hk
  rw [ratioArguments, cut, if_neg Bool.false_ne_true]

theorem parse_reference {r : Reference} {s rest : List Char} (h : Spelling r s)
    (apart : rest.head? ≠ some ']') :
    parse (s ++ rest) = .reference [] (s ++ rest) r (parse rest) := by
  obtain ⟨c, t, rfl, plain, -⟩ := h.first
  obtain ⟨dropped, taken⟩ := dropWhile_of_not_isArithmetic plain (t ++ rest)
  have start : c :: t ++ rest = c :: (t ++ rest) := rfl
  rw [parse_eq, start, dropped, taken, ← start, h.ratioArguments_eq_none rest,
    reference?_append h apart]

theorem Translates.reference {r : Reference} {s : List Char} (h : Spelling r s) {name : String}
    {σ σ' : S} (answer : (r.resolve source).run σ = (some name, σ')) :
    Translates source s (measureReference name).toList σ σ' := by
  constructor
  · obtain ⟨c, t, rfl, -, other⟩ := h.first
    exact fun rest _ bracket => other (Option.some.inj bracket)
  · intro rest apart
    rw [parse_reference h apart]
    simp only [evaluate, run_bind_eq answer]
    rfl

def IsDivision (keyword : List Char) : Prop := keyword.map Char.toLower = "divide".toList

theorem IsDivision.letters {keyword : List Char} (h : IsDivision keyword) :
    ∀ c ∈ keyword, c.isAlpha = true :=
  Text.isAlpha_of_map_toLower h (List.all_eq_true.1 rfl)

theorem IsDivision.ne_nil {keyword : List Char} (h : IsDivision keyword) : keyword ≠ [] := by
  rintro rfl
  cases h

theorem ratioArguments_append {keyword s t g₁ g₂ g₃ g₄ : List Char} (hk : IsDivision keyword)
    (hs : Passes s) (ht : Passes t) (tightAbove : Tight s) (tightBelow : Tight t)
    (h₁ : Blank g₁) (h₂ : Blank g₂) (h₃ : Blank g₃) (h₄ : Blank g₄) (rest : List Char) :
    ratioArguments (keyword ++ '(' :: (g₁ ++ s ++ g₂ ++ ',' :: (g₃ ++ t ++ g₄ ++ [')'])) ++ rest) =
      some (s, t, rest) := by
  have above := ((Passes.blank h₁).append hs).append (.blank h₂)
  have below := ((Passes.blank h₃).append ht).append (.blank h₄)
  have whole : keyword ++ '(' :: (g₁ ++ s ++ g₂ ++ ',' :: (g₃ ++ t ++ g₄ ++ [')'])) ++ rest =
      keyword ++ ('(' :: (g₁ ++ s ++ g₂ ++ ',' :: (g₃ ++ t ++ g₄ ++ ')' :: rest))) := by simp
  have length : keyword.length = 6 := by
    rw [← List.length_map (f := Char.toLower), hk]
    rfl
  have starts (tail : List Char) : startsFold ratioKeyword (keyword ++ '(' :: tail) = true := by
    rw [Text.startsFold_iff, List.map_append, hk]
    exact ⟨tail.map Char.toLower, rfl⟩
  rw [whole, ratioArguments, if_pos (starts _), ← length, List.drop_left,
    splitArguments_pair above below]
  change some (Text.trim (g₁ ++ s ++ g₂), Text.trim (g₃ ++ t ++ g₄), rest) = some (s, t, rest)
  rw [Text.trim_of_tight tightAbove h₁ h₂, Text.trim_of_tight tightBelow h₃ h₄]

theorem Translates.ratio {keyword s t o p g₁ g₂ g₃ g₄ : List Char} {σ₁ σ₂ σ₃ : S}
    (hk : IsDivision keyword) (passesAbove : Passes s) (passesBelow : Passes t)
    (tightAbove : Tight s) (tightBelow : Tight t)
    (h₁ : Blank g₁) (h₂ : Blank g₂) (h₃ : Blank g₃) (h₄ : Blank g₄)
    (hs : Translates source s o σ₁ σ₂) (ht : Translates source t p σ₂ σ₃) :
    Translates source (keyword ++ '(' :: (g₁ ++ s ++ g₂ ++ ',' :: (g₃ ++ t ++ g₄ ++ [')'])))
      (parenthesize o ++ [' ', '/', ' '] ++ parenthesize p) σ₁ σ₃ := by
  obtain ⟨c, r, rfl⟩ := List.exists_cons_of_ne_nil hk.ne_nil
  have letter := hk.letters c List.mem_cons_self
  constructor
  · intro rest _ bracket
    rw [Option.some.inj bracket] at letter
    cases letter
  · intro rest _
    have alone {u q : List Char} {τ τ' : S} (h : Translates source u q τ τ') :
        ((parse u).evaluate source).run τ = ((q, []), τ') := by
      have run := h.run [] (by simp)
      rw [List.append_nil, parse_nil] at run
      rw [run]
      exact congrArg (fun known => ((known, []), τ')) (List.append_nil q)
    obtain ⟨dropped, taken⟩ := dropWhile_of_not_isArithmetic (isArithmetic_of_isAlpha letter)
      (r ++ '(' :: (g₁ ++ s ++ g₂ ++ ',' :: (g₃ ++ t ++ g₄ ++ [')'])) ++ rest)
    have found := ratioArguments_append hk passesAbove passesBelow tightAbove tightBelow
      h₁ h₂ h₃ h₄ rest
    rw [List.cons_append, List.cons_append] at found ⊢
    rw [parse_eq, dropped, taken, found]
    simp only [evaluate, if_neg (parse_ne_stop tightAbove.ne_nil), run_bind_eq (alone hs),
      if_neg (parse_ne_stop tightBelow.ne_nil), run_bind_eq (alone ht)]
    rfl

end Evaluate

end SemanticLayer.Formula
