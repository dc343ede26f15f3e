import SemanticLayer.Proofs.Formula.Completeness
import SemanticLayer.Proofs.Formula.Token

set_option autoImplicit false

/-!
The formulas that are understood to their end, as a grammar.

`reads_iff` says that a formula is rendered completely when it is made of arithmetic, references
and divisions of such formulas, and that every part of it is rendered by itself.
-/
namespace SemanticLayer.Formula

open Text (Blank Paired Tight isBlank startsFold)

/-- The texts of a reference, whatever its names are. -/
inductive Refers : Reference → List Char → Prop where
  | measure {inside : List Char} (paired : Paired ']' inside) :
    Refers (.measure (String.ofList (unescaped ']' inside))) ('[' :: (inside ++ [']']))
  | aggregate {f : AggregateFunction} {keyword body : List Char} {call : AggregateCall}
      (named : keyword.map Char.toLower = f.keyword.toList) (closed : ')' ∉ body)
      (called : f.call? body = some call) :
    Refers (.aggregate call) (keyword ++ '(' :: (body ++ [')']))

theorem exists_letter {f : AggregateFunction} {keyword : List Char}
    (named : keyword.map Char.toLower = f.keyword.toList) :
    ∃ c word, keyword = c :: word ∧ c.isAlpha = true := by
  obtain ⟨c, word, rfl⟩ : ∃ c word, keyword = c :: word := by
    refine List.exists_cons_of_ne_nil fun empty => ?_
    rw [empty] at named
    exact f.keyword_ne_nil named.symm
  exact ⟨c, word, rfl, Text.isAlpha_of_map_toLower named f.keyword_letters c List.mem_cons_self⟩

theorem Refers.first {target : Reference} {text : List Char} (h : Refers target text) :
    ∃ c t, text = c :: t ∧ isArithmetic c = false ∧ isBlank c = false ∧ c ≠ ']' := by
  cases h with
  | measure _ => exact ⟨'[', _, rfl, rfl, rfl, by decide⟩
  | aggregate named _ _ =>
    obtain ⟨c, word, rfl, letter⟩ := exists_letter named
    refine ⟨c, _, rfl, isArithmetic_of_isAlpha letter, Text.isBlank_of_isAlpha letter, ?_⟩
    rintro rfl
    cases letter

theorem Refers.last {target : Reference} {text : List Char} (h : Refers target text) :
    ∃ t c, text = t ++ [c] ∧ (c = ']' ∨ c = ')') := by
  cases h with
  | @measure inside _ => exact ⟨'[' :: inside, ']', rfl, Or.inl rfl⟩
  | @aggregate _ keyword body _ _ _ _ => exact ⟨keyword ++ '(' :: body, ')', by simp, Or.inr rfl⟩

theorem bracketName_of_isAlpha {c : Char} (letter : c.isAlpha = true) (s : List Char) :
    bracketName (c :: s) = none := by
  rw [bracketName]
  rintro tail same
  cases same
  cases letter

theorem refers_of_reference? {s rest : List Char} {target : Reference}
    (h : reference? s = some (target, rest)) : ∃ text, Refers target text ∧ s = text ++ rest := by
  unfold reference? at h
  split at h
  · rename_i named
    cases h
    obtain ⟨inside, paired, -, rfl, rfl⟩ := bracketName_eq_some_iff.1 named
    exact ⟨_, .measure paired, by simp⟩
  · obtain ⟨⟨call, after⟩, found, same⟩ := Option.map_eq_some_iff.1 h
    cases same
    obtain ⟨f, keyword, body, named, rfl, closed, called⟩ := aggregateCall?_eq_some_iff.1 found
    exact ⟨_, .aggregate named closed called, by simp⟩

theorem Refers.read {target : Reference} {text rest : List Char} (h : Refers target text)
    (apart : rest.head? ≠ some ']') : reference? (text ++ rest) = some (target, rest) := by
  cases h with
  | @measure inside paired =>
    have named := bracketName_eq_some_iff.2 ⟨inside, paired, apart, rfl, rfl⟩
    have shape : '[' :: (inside ++ [']']) ++ rest = '[' :: (inside ++ ']' :: rest) := by simp
    rw [reference?, shape, named]
  | @aggregate f keyword body call named closed called =>
    have shape : keyword ++ '(' :: (body ++ [')']) ++ rest =
        keyword ++ '(' :: (body ++ ')' :: rest) := by simp
    have found : aggregateCall? (keyword ++ '(' :: (body ++ ')' :: rest)) = some (call, rest) :=
      aggregateCall?_eq_some_iff.2 ⟨f, keyword, body, named, rfl, closed, called⟩
    have noName : bracketName (keyword ++ '(' :: (body ++ ')' :: rest)) = none := by
      obtain ⟨c, word, rfl, letter⟩ := exists_letter named
      exact bracketName_of_isAlpha letter _
    rw [reference?, shape, noName, found]
    rfl

/-- The texts of a division of two arguments. In each of them what is nested is closed again. -/
inductive Divides (above below : List Char) : List Char → Prop where
  | intro {keyword : List Char} {region region' : Text.Region} (named : IsDivision keyword)
      (nested : argumentStyle.scan (0, .outside) above = some (0, region))
      (free : argumentStyle.step region ',' = .outside)
      (nested' : argumentStyle.scan (0, .outside) below = some (0, region'))
      (free' : argumentStyle.step region' ')' = .outside) :
    Divides above below (keyword ++ '(' :: (above ++ ',' :: (below ++ [')'])))

theorem IsDivision.length {keyword : List Char} (h : IsDivision keyword) : keyword.length = 6 := by
  rw [← List.length_map (f := Char.toLower), h]
  rfl

theorem ratioArguments_eq_some_iff {s numerator denominator rest : List Char} :
    ratioArguments s = some (numerator, denominator, rest) ↔
      ∃ above below text, Divides above below text ∧ s = text ++ rest ∧
        numerator = Text.trim above ∧ denominator = Text.trim below := by
  constructor
  · intro h
    unfold ratioArguments at h
    split at h
    · rename_i starts
      split at h
      · rename_i above below after split
        cases h
        obtain ⟨keyword, tail, named, rfl⟩ :=
          @exists_keyword "divide".toList _ '(' rfl (by simp) starts
        have named : IsDivision keyword := named
        rw [← named.length, List.drop_left] at split
        obtain ⟨inside, same, splits⟩ :=
          (Text.splitArguments_eq_some_iff argumentStyle_plain).1 split
        cases same
        cases splits with
        | next nested free others =>
          cases others with
          | last nested' free' =>
            exact ⟨above, below, _, .intro named nested free nested' free', by simp, rfl, rfl⟩
          | next _ _ none => cases none
      · cases h
    · cases h
  · rintro ⟨above, below, text, ⟨named, nested, free, nested', free'⟩, rfl, rfl, rfl⟩
    rename_i keyword region region'
    have splits : argumentStyle.Splits (above ++ ',' :: (below ++ ')' :: rest)) [above, below] rest :=
      .next nested free (.last nested' free')
    have found : Text.splitArguments argumentStyle ('(' :: (above ++ ',' :: (below ++ ')' :: rest))) =
        some ⟨[above, below], rest⟩ :=
      (Text.splitArguments_eq_some_iff argumentStyle_plain).2 ⟨_, rfl, splits⟩
    have shape : keyword ++ '(' :: (above ++ ',' :: (below ++ [')'])) ++ rest =
        keyword ++ '(' :: (above ++ ',' :: (below ++ ')' :: rest)) := by simp
    have starts : startsFold ratioKeyword
        (keyword ++ '(' :: (above ++ ',' :: (below ++ ')' :: rest))) = true := by
      rw [Text.startsFold_iff, List.map_append, named]
      exact ⟨_, rfl⟩
    rw [shape, ratioArguments, if_pos starts, ← named.length, List.drop_left, splitArguments, found]

theorem Divides.first {above below text : List Char} (h : Divides above below text) :
    ∃ c t, text = c :: t ∧ c.isAlpha = true := by
  obtain ⟨named, -⟩ := h
  obtain ⟨c, word, rfl⟩ := List.exists_cons_of_ne_nil named.ne_nil
  exact ⟨c, _, rfl, named.letters c List.mem_cons_self⟩

theorem Divides.last {above below text : List Char} (h : Divides above below text) :
    ∃ t, text = t ++ [')'] := by
  cases h with
  | @intro keyword _ _ _ _ _ _ _ => exact ⟨keyword ++ '(' :: (above ++ ',' :: below), by simp⟩

/-- The formulas in which nothing is left over, and what each of them becomes. `answers` names the
references, of which it is also asked how they are written. -/
inductive Reads (answers : Reference → List Char → String → Prop) :
    List Char → List Char → Prop where
  | nil : Reads answers [] []
  | char {c : Char} {s o : List Char} (arithmetic : isArithmetic c = true)
      (rest : Reads answers s o) : Reads answers (c :: s) (c :: o)
  | reference {target : Reference} {name : String} {text s o : List Char}
      (refers : Refers target text) (answered : answers target text name)
      (rest : Reads answers s o) :
    Reads answers (text ++ s) ((measureReference name).toList ++ o)
  | ratio {above below text upper lower s o : List Char} (divides : Divides above below text)
      (full : Text.trim above ≠ []) (numerator : Reads answers (Text.trim above) upper)
      (full' : Text.trim below ≠ []) (denominator : Reads answers (Text.trim below) lower)
      (rest : Reads answers s o) :
    Reads answers (text ++ s)
      (parenthesize upper ++ [' ', '/', ' '] ++ parenthesize lower ++ o)

namespace Reads

variable {answers answers' : Reference → List Char → String → Prop} {s o : List Char}

theorem mono (h : Reads answers s o)
    (more : ∀ target text name, answers target text name → answers' target text name) :
    Reads answers' s o := by
  induction h with
  | nil => exact .nil
  | char arithmetic _ ih => exact .char arithmetic ih
  | reference refers answered _ ih => exact .reference refers (more _ _ _ answered) ih
  | ratio divides full _ full' _ _ upper lower rest =>
    exact .ratio divides full upper full' lower rest

theorem pieces (h : Reads answers s o) :
    Reads (fun target text name => answers target text name ∧ Refers target text ∧ text <:+: s)
      s o := by
  suffices ∀ whole, s <:+: whole →
      Reads (fun target text name => answers target text name ∧ Refers target text ∧
        text <:+: whole) s o from this s List.infix_rfl
  intro whole part
  induction h with
  | nil => exact .nil
  | @char c s _ arithmetic _ ih =>
    exact .char arithmetic (ih ((List.suffix_cons c s).isInfix.trans part))
  | @reference _ _ text s _ refers answered _ ih =>
    exact .reference refers ⟨answered, refers, (List.prefix_append text s).isInfix.trans part⟩
      (ih ((List.suffix_append text s).isInfix.trans part))
  | @ratio above below text _ _ s _ divides full _ full' _ _ upper lower ih =>
    have inside := (List.prefix_append text s).isInfix.trans part
    have aboveWithin : above <:+: text := by
      obtain @⟨keyword, _, _, -, -, -, -, -⟩ := divides
      exact ⟨keyword ++ ['('], ',' :: (below ++ [')']), by simp⟩
    have belowWithin : below <:+: text := by
      obtain @⟨keyword, _, _, -, -, -, -, -⟩ := divides
      exact ⟨keyword ++ '(' :: (above ++ [',']), [')'], by simp⟩
    exact .ratio divides full (upper ((Text.trim_within above).trans (aboveWithin.trans inside)))
      full' (lower ((Text.trim_within below).trans (belowWithin.trans inside)))
      (ih ((List.suffix_append text s).isInfix.trans part))

theorem arithmetic {run : List Char} (plain : ∀ c ∈ run, isArithmetic c = true)
    (h : Reads answers s o) : Reads answers (run ++ s) (run ++ o) := by
  induction run with
  | nil => exact h
  | cons c run ih =>
    exact .char (plain c List.mem_cons_self) (ih fun d hd => plain d (List.mem_cons_of_mem c hd))

theorem head_ne (h : Reads answers s o) : s.head? ≠ some ']' := by
  cases h with
  | nil => simp
  | char arithmetic _ =>
    rintro ⟨⟩
    cases arithmetic
  | reference refers _ _ =>
    obtain ⟨c, t, rfl, -, -, other⟩ := refers.first
    rintro ⟨⟩
    exact other rfl
  | ratio divides _ _ _ _ _ =>
    obtain ⟨c, t, rfl, letter⟩ := divides.first
    rintro ⟨⟩
    cases letter

end Reads

theorem parse_division {above below text : List Char} (h : Divides above below text)
    (rest : List Char) :
    parse (text ++ rest) = .ratio [] (text ++ rest) (parse (Text.trim above))
      (parse (Text.trim below)) (parse rest) := by
  have found :=
    ratioArguments_eq_some_iff.2 ⟨above, below, text, h, (rfl : text ++ rest = _), rfl, rfl⟩
  obtain ⟨c, t, rfl, letter⟩ := h.first
  obtain ⟨dropped, taken⟩ := dropWhile_of_not_isArithmetic (isArithmetic_of_isAlpha letter)
    (t ++ rest)
  rw [List.cons_append] at found ⊢
  rw [parse_eq, dropped, taken, found]

theorem Refers.noDivision {target : Reference} {text : List Char} (h : Refers target text)
    (rest : List Char) : ratioArguments (text ++ rest) = none := by
  have cut : startsFold ratioKeyword (text ++ rest) = false := by
    cases h with
    | measure _ => rfl
    | @aggregate f keyword body _ named _ _ =>
      apply (startsFold_keyword (f := f) ?_).2
      rw [Text.startsFold_iff, List.map_congr_left f.lower_keyword, List.map_id', List.append_assoc,
        List.map_append, named]
      exact (List.prefix_append_right_inj _).2 ⟨_, rfl⟩
  rw [ratioArguments, cut, if_neg Bool.false_ne_true]

theorem parse_refers {target : Reference} {text rest : List Char} (h : Refers target text)
    (apart : rest.head? ≠ some ']') :
    parse (text ++ rest) = .reference [] (text ++ rest) target (parse rest) := by
  have found := h.read apart
  have ratio := h.noDivision rest
  obtain ⟨c, t, rfl, symbol, -⟩ := h.first
  obtain ⟨dropped, taken⟩ := dropWhile_of_not_isArithmetic symbol (t ++ rest)
  rw [List.cons_append] at found ratio ⊢
  rw [parse_eq, dropped, taken, ratio, found]

theorem Renders.push {answers : Reference → String → Prop} {f : Formula} {o : List Char}
    (h : Renders answers f o) (c : Char) : Renders answers (f.push c) (c :: o) := by
  cases h with
  | stop _ => exact .stop _
  | reference answered rest => exact .reference answered rest
  | ratio full upper full' lower rest => exact .ratio full upper full' lower rest

theorem Reads.renders {answers : Reference → String → Prop} {s o : List Char}
    (h : Reads (fun target _ name => answers target name) s o) : Renders answers (parse s) o := by
  induction h with
  | nil =>
    rw [parse_nil]
    exact .stop []
  | char arithmetic _ ih =>
    rw [parse_cons arithmetic]
    exact ih.push _
  | reference refers answered rest ih =>
    rw [parse_refers refers rest.head_ne]
    exact @Renders.reference _ [] _ _ _ _ _ answered ih
  | ratio divides full _ full' _ _ upper lower rest =>
    rw [parse_division divides]
    exact @Renders.ratio _ [] _ _ _ _ _ _ _ (parse_ne_stop full) upper (parse_ne_stop full') lower
      rest

theorem ne_nil_of_parse {s : List Char} (h : parse s ≠ .stop [] []) : s ≠ [] := by
  rintro rfl
  exact h parse_nil

/-- Whether something holds of every reference of a formula and the text that starts with it. -/
def Each (holds : Reference → List Char → Prop) : Formula → Prop
  | .stop _ _ => True
  | .reference _ here target tail => holds target here ∧ tail.Each holds
  | .ratio _ _ numerator denominator tail =>
    numerator.Each holds ∧ denominator.Each holds ∧ tail.Each holds

instance decidableEach {holds : Reference → List Char → Prop}
    [∀ target here, Decidable (holds target here)] : (f : Formula) → Decidable (f.Each holds)
  | .stop _ _ => inferInstanceAs (Decidable True)
  | .reference _ _ _ tail => @instDecidableAnd _ _ _ (decidableEach tail)
  | .ratio _ _ numerator denominator tail =>
    @instDecidableAnd _ _ (decidableEach numerator)
      (@instDecidableAnd _ _ (decidableEach denominator) (decidableEach tail))

theorem each_trivial (f : Formula) : f.Each fun _ _ => True := by
  induction f with
  | stop => trivial
  | reference _ _ _ _ ih => exact ⟨trivial, ih⟩
  | ratio _ _ _ _ _ upper lower rest => exact ⟨upper, lower, rest⟩

theorem reads_of_renders {answers : Reference → String → Prop}
    {holds : Reference → List Char → Prop} {s o : List Char} (h : Renders answers (parse s) o)
    (each : (parse s).Each holds) :
    Reads (fun target text name => answers target name ∧ ∃ rest, holds target (text ++ rest))
      s o := by
  have run (s : List Char) : ∀ c ∈ arithmeticRun s, isArithmetic c = true := fun c hc =>
    List.all_eq_true.1 List.all_takeWhile c hc
  have whole (s : List Char) : arithmeticRun s ++ s.dropWhile isArithmetic = s :=
    List.takeWhile_append_dropWhile
  fun_induction parse s generalizing o with
  | case1 s numerator denominator rest found upper lower later =>
    obtain ⟨above, below, text, divides, shape, rfl, rfl⟩ := ratioArguments_eq_some_iff.1 found
    obtain ⟨eachAbove, eachBelow, eachRest⟩ := each
    cases h with
    | ratio full renders full' renders' tail =>
      have read := Reads.ratio divides (ne_nil_of_parse full) (upper renders eachAbove)
        (ne_nil_of_parse full') (lower renders' eachBelow) (later tail eachRest)
      have all := read.arithmetic (run s)
      rw [← shape, whole] at all
      simpa only [List.append_assoc] using all
  | case2 s _ target rest found later =>
    obtain ⟨text, refers, shape⟩ := refers_of_reference? found
    obtain ⟨here, eachRest⟩ := each
    rw [shape] at here
    cases h with
    | reference answered tail =>
      have all := (Reads.reference refers ⟨answered, rest, here⟩ (later tail eachRest)).arithmetic
        (run s)
      rw [← shape, whole] at all
      simpa only [List.append_assoc] using all
  | case3 s _ _ =>
    generalize none : s.dropWhile isArithmetic = rest at h
    cases h with
    | stop _ =>
      have same := whole s
      rw [none, List.append_nil] at same
      rw [same]
      have all := Reads.arithmetic (run s) (@Reads.nil fun target text name =>
        answers target name ∧ ∃ rest, holds target (text ++ rest))
      rwa [List.append_nil, same] at all

/-- A formula is rendered completely when it is one of the grammar. -/
theorem reads_iff {answers : Reference → String → Prop} {s o : List Char} :
    Reads (fun target _ name => answers target name) s o ↔ Renders answers (parse s) o := by
  constructor
  · exact Reads.renders
  · intro h
    exact (reads_of_renders h (each_trivial (parse s))).mono fun _ _ _ known => known.1

theorem Refers.tight {target : Reference} {text : List Char} (h : Refers target text) :
    Tight text := by
  obtain ⟨c, t, first, -, visible, -⟩ := h.first
  obtain ⟨r, d, last, mark⟩ := h.last
  refine ⟨⟨c, t, first, visible⟩, r, d, last, ?_⟩
  rcases mark with rfl | rfl <;> rfl

theorem Divides.tight {above below text : List Char} (h : Divides above below text) :
    Tight text := by
  obtain ⟨c, t, first, letter⟩ := h.first
  obtain ⟨r, last⟩ := h.last
  exact ⟨⟨c, t, first, Text.isBlank_of_isAlpha letter⟩, r, ')', last, rfl⟩

theorem tight_parenthesize (s : List Char) : Tight (parenthesize s) := by
  rw [parenthesize]
  split
  · rename_i bare
    apply Text.tight_trim
    intro empty
    rw [empty] at bare
    revert bare
    decide
  · exact ⟨⟨'(', _, rfl, rfl⟩, '(' :: Text.trim s, ')', rfl, rfl⟩

theorem tight_ratio (upper lower : List Char) :
    Tight (parenthesize upper ++ [' ', '/', ' '] ++ parenthesize lower) :=
  (tight_parenthesize upper).append _ (tight_parenthesize lower)

namespace Reads

variable {answers : Reference → List Char → String → Prop} {s o : List Char}

theorem eq_nil_iff (h : Reads answers s o) : s = [] ↔ o = [] := by
  cases h with
  | nil => simp
  | char => simp
  | @reference _ name _ _ _ refers _ _ =>
    simp [refers.tight.ne_nil, (Arithmetic.tight_metric name).ne_nil]
  | @ratio _ _ _ upper lower _ _ divides _ _ _ _ _ =>
    simp [divides.tight.ne_nil]

theorem head_blank (h : Reads answers s o) : s.head?.any isBlank = o.head?.any isBlank := by
  have visible {t : List Char} (tight : Tight t) (u : List Char) :
      (t ++ u).head?.any isBlank = false := by
    obtain ⟨⟨c, r, rfl, seen⟩, -⟩ := tight
    simp [seen]
  cases h with
  | nil => rfl
  | char => rfl
  | reference refers _ _ => rw [visible refers.tight, visible (Arithmetic.tight_metric _)]
  | ratio divides _ _ _ _ _ => rw [visible divides.tight, visible (tight_ratio _ _)]

theorem trimStart (h : Reads answers s o) :
    Reads answers (Text.trimStart s) (Text.trimStart o) := by
  induction h with
  | nil => exact .nil
  | @char c s o arithmetic rest ih =>
    by_cases blank : isBlank c = true
    · rw [Text.trimStart, Text.trimStart, List.dropWhile_cons_of_pos blank,
        List.dropWhile_cons_of_pos blank]
      exact ih
    · rw [Text.trimStart, Text.trimStart, List.dropWhile_cons_of_neg blank,
        List.dropWhile_cons_of_neg blank]
      exact .char arithmetic rest
  | @reference _ name _ _ _ refers answered rest _ =>
    rw [Text.trimStart_append_tight refers.tight,
      Text.trimStart_append_tight (Arithmetic.tight_metric name)]
    exact .reference refers answered rest
  | @ratio _ _ _ upper lower _ _ divides full numerator full' denominator rest _ _ _ =>
    rw [Text.trimStart_append_tight divides.tight,
      Text.trimStart_append_tight (tight_ratio upper lower)]
    exact .ratio divides full numerator full' denominator rest

theorem trimEnd (h : Reads answers s o) : Reads answers (Text.trimEnd s) (Text.trimEnd o) := by
  induction h with
  | nil => exact .nil
  | @char c s o arithmetic rest ih =>
    by_cases empty : Text.trimEnd s = []
    · have none := ih.eq_nil_iff.1 empty
      rw [Text.trimEnd, Text.trimEnd, empty, none]
      by_cases blank : isBlank c = true
      · simpa [blank] using Reads.nil
      · simpa [blank] using Reads.char arithmetic .nil
    · obtain ⟨d, r, kept⟩ := List.exists_cons_of_ne_nil empty
      obtain ⟨d', r', kept'⟩ := List.exists_cons_of_ne_nil fun none => empty (ih.eq_nil_iff.2 none)
      rw [kept, kept'] at ih
      rw [Text.trimEnd, Text.trimEnd, kept, kept']
      exact .char arithmetic ih
  | @reference _ name _ _ _ refers answered _ ih =>
    rw [Text.trimEnd_append_tight refers.tight,
      Text.trimEnd_append_tight (Arithmetic.tight_metric name)]
    exact .reference refers answered ih
  | @ratio _ _ _ upper lower _ _ divides full numerator full' denominator _ _ _ ih =>
    rw [Text.trimEnd_append_tight divides.tight,
      Text.trimEnd_append_tight (tight_ratio upper lower)]
    exact .ratio divides full numerator full' denominator ih

theorem trim (h : Reads answers s o) : Reads answers (Text.trim s) (Text.trim o) :=
  h.trimStart.trimEnd

theorem last_blank (h : Reads answers s o) : s.getLast?.any isBlank = o.getLast?.any isBlank := by
  have piece {t r s o : List Char} (text : Tight t) (result : Tight r) (h : Reads answers s o)
      (ih : s.getLast?.any isBlank = o.getLast?.any isBlank) :
      (t ++ s).getLast?.any isBlank = (r ++ o).getLast?.any isBlank := by
    by_cases empty : s = []
    · rw [empty, h.eq_nil_iff.1 empty, List.append_nil, List.append_nil]
      obtain ⟨-, u, c, rfl, seen⟩ := text
      obtain ⟨-, v, d, rfl, seen'⟩ := result
      simp [seen, seen']
    · rw [List.getLast?_append_of_ne_nil t empty,
        List.getLast?_append_of_ne_nil r fun none => empty (h.eq_nil_iff.2 none), ih]
  induction h with
  | nil => rfl
  | @char c s o _ rest ih =>
    by_cases empty : s = []
    · rw [empty, rest.eq_nil_iff.1 empty]
    · obtain ⟨d, r, rfl⟩ := List.exists_cons_of_ne_nil empty
      obtain ⟨e, t, rfl⟩ := List.exists_cons_of_ne_nil fun none => empty (rest.eq_nil_iff.2 none)
      rwa [List.getLast?_cons_cons, List.getLast?_cons_cons]
  | reference refers _ rest ih => exact piece refers.tight (Arithmetic.tight_metric _) rest ih
  | ratio divides _ _ _ _ rest _ _ ih => exact piece divides.tight (tight_ratio _ _) rest ih

theorem tight (h : Reads answers s o) (tight : Tight s) : Tight o := by
  have first := h.head_blank
  have last := h.last_blank
  have some : o ≠ [] := fun none => tight.ne_nil (h.eq_nil_iff.2 none)
  obtain ⟨⟨c, r, rfl, seen⟩, q, d, stop, seen'⟩ := tight
  rw [stop] at last
  constructor
  · obtain ⟨e, t, rfl⟩ := List.exists_cons_of_ne_nil some
    exact ⟨e, t, rfl, by simpa [seen] using first.symm⟩
  · obtain none | ⟨t, e, rfl⟩ := List.eq_nil_or_concat' o
    · exact absurd none some
    · exact ⟨t, e, rfl, by simpa [seen'] using last.symm⟩

end Reads

end SemanticLayer.Formula
