import SemanticLayer.Proofs.Formula.Spacing

set_option autoImplicit false

/-!
What the reader of arguments makes of a formula that is understood to its end. It goes through every
reference and every division at once, so it can only stop at arithmetic: there the formula falls
apart, `Reads.split`. What the formula becomes is nested as the formula is, `Reads.nested`.
-/
namespace SemanticLayer.Formula

open Text (ArgumentStyle Blank Paired Region Tight isBlank)

theorem scan_paired {close : Char} {s : List Char} (h : Paired close s) (depth : Nat) :
    argumentStyle.scan (depth, .inside close) s = some (depth, .inside close) := by
  have stay {c : Char} (other : c ≠ close) :
      argumentStyle.advance (depth, .inside close) c = some (depth, .inside close) := by
    simp [ArgumentStyle.advance, ArgumentStyle.step, other]
  have leave : argumentStyle.advance (depth, .inside close) close =
      some (depth, .leaving close) := by
    simp [ArgumentStyle.advance, ArgumentStyle.step]
  have back : argumentStyle.advance (depth, .leaving close) close =
      some (depth, .inside close) := by
    simp [ArgumentStyle.advance, ArgumentStyle.step]
  induction h with
  | nil => rfl
  | char other _ ih => rwa [ArgumentStyle.scan_cons, stay other]
  | pair _ ih =>
    rw [ArgumentStyle.scan_cons, leave, Option.bind_some, ArgumentStyle.scan_cons, back]
    exact ih

theorem passes_paired {inside : List Char} (h : Paired ']' inside) :
    Passes ('[' :: (inside ++ [']'])) := by
  intro depth region free
  have entered : argumentStyle.step region '[' = .inside ']' :=
    step_of_free free (by decide) (by decide)
  have first : argumentStyle.advance (depth, region) '[' = some (depth, .inside ']') := by
    simp [ArgumentStyle.advance, entered]
  refine ⟨.leaving ']', Or.inr (Or.inl rfl), ?_⟩
  rw [ArgumentStyle.scan_cons, first, Option.bind_some, ArgumentStyle.scan_append, scan_paired h]
  rfl

theorem passes_of_scan {c : Char} {s : List Char} {last : Region} (plain : isPlain c = true)
    (comma : c ≠ ',') (free : Free last)
    (h : argumentStyle.scan (0, .outside) (c :: s) = some (0, last)) : Passes (c :: s) := by
  intro depth region start
  refine ⟨last, free, ?_⟩
  have deeper := argumentStyle.scan_add h depth
  rw [Nat.zero_add] at deeper
  rw [← deeper, ArgumentStyle.scan_cons, ArgumentStyle.scan_cons,
    advance_plain plain start fun found => absurd found comma,
    advance_plain plain (Or.inl rfl) fun found => absurd found comma]

/-- Whether the reader of arguments is out of every name again at the end of a call. -/
def Closed : Reference → List Char → Prop
  | .measure _, _ => True
  | .aggregate _, here =>
    argumentStyle.scan (0, .outside) (here.takeWhile (· ≠ ')') ++ [')']) = some (0, .outside)

instance : (target : Reference) → (here : List Char) → Decidable (Closed target here)
  | .measure _, _ => inferInstanceAs (Decidable True)
  | .aggregate _, _ => inferInstanceAs (Decidable (_ = _))

theorem Refers.passes {target : Reference} {text rest : List Char} (h : Refers target text)
    (closed : Closed target (text ++ rest)) : Passes text := by
  cases h with
  | measure paired => exact passes_paired paired
  | @aggregate f keyword body call named free called =>
    obtain ⟨c, word, rfl, letter⟩ := exists_letter named
    have letters := Text.isAlpha_of_map_toLower named f.keyword_letters
    have absent : ')' ∉ c :: word ++ '(' :: body := by
      intro among
      rcases List.mem_append.1 among with early | late
      · cases letters ')' early
      · exact free (by simpa using late)
    have shape : c :: word ++ '(' :: (body ++ [')']) ++ rest =
        (c :: word ++ '(' :: body) ++ ')' :: rest := by simp
    rw [Closed, shape, (Text.takeWhile_of_notMem absent rest).1] at closed
    have whole : c :: word ++ '(' :: (body ++ [')']) = (c :: word ++ '(' :: body) ++ [')'] := by simp
    rw [whole]
    refine passes_of_scan (isPlain_of_isAlpha letter) ?_ (Or.inl rfl) closed
    rintro rfl
    cases letter

theorem Divides.passes {above below text : List Char} (h : Divides above below text) :
    Passes text := by
  obtain ⟨named, nested, free, nested', free'⟩ := h
  rename_i keyword region region'
  refine (passes_letters named.letters).append ?_
  have group : argumentStyle.scan (0, .outside) ('(' :: (above ++ ',' :: (below ++ [')']))) =
      some (0, .outside) := by
    have first := argumentStyle.scan_add nested 1
    have second := argumentStyle.scan_add nested' 1
    have comma : argumentStyle.advance (1, region) ',' = some (1, .outside) := by
      simp [ArgumentStyle.advance, free, argumentStyle_plain.comma]
    have close : argumentStyle.advance (1, region') ')' = some (0, .outside) := by
      simp [ArgumentStyle.advance, free', argumentStyle_plain.parenthesis]
    rw [ArgumentStyle.scan_cons, advance_opening (Or.inl rfl), Option.bind_some,
      ArgumentStyle.scan_append, first, Option.bind_some, ArgumentStyle.scan_cons, comma,
      Option.bind_some, ArgumentStyle.scan_append, second, Option.bind_some,
      ArgumentStyle.scan_cons, close]
    rfl
  intro depth region start
  have deeper := argumentStyle.scan_add group depth
  rw [Nat.zero_add] at deeper
  refine ⟨.outside, Or.inl rfl, ?_⟩
  rw [← deeper, ArgumentStyle.scan_cons, ArgumentStyle.scan_cons, advance_opening start,
    advance_opening (Or.inl rfl)]

theorem advance_arithmetic {c : Char} (h : isArithmetic c = true) {region : Region}
    (free : Free region) (depth : Nat) :
    argumentStyle.advance (depth, region) c = argumentStyle.advance (depth, .outside) c ∧
      argumentStyle.step region c = .outside := by
  have other {d : Char} (hd : isArithmetic d = false) : c ≠ d := fun same => by
    rw [same, hd] at h
    cases h
  have none : argumentStyle.regionEnd c = none := by
    cases region : argumentStyle.regionEnd c with
    | none => rfl
    | some close =>
      rcases regionEnd_eq_some region with ⟨rfl, -⟩ | ⟨rfl, -⟩ | ⟨rfl, -⟩
      all_goals cases h
  have entered : argumentStyle.enter c = .outside := by rw [ArgumentStyle.enter, none]
  have step := step_of_free free (other (d := ']') rfl) (other (d := '\'') rfl)
  have step' : argumentStyle.step .outside c = argumentStyle.enter c := rfl
  constructor
  · simp only [ArgumentStyle.advance, step, step']
  · rw [step, entered]

section Reads

variable {answers : Reference → List Char → String → Prop} {s o : List Char}

theorem exists_of_passes {piece tail rest : List Char} {c : Char} {depth : Nat} {region : Region}
    {place : Nat × Region} (passes : Passes piece) (whole : piece ++ tail = s ++ c :: rest)
    (free : Free region) (reached : argumentStyle.scan (depth, region) s = some place)
    (stops : argumentStyle.advance place c = none) :
    ∃ m next, s = piece ++ m ∧ tail = m ++ c :: rest ∧ Free next ∧
      argumentStyle.scan (depth, next) m = some place := by
  obtain ⟨next, ends, through⟩ := passes depth region free
  have behind {m : List Char} (shape : s = piece ++ m) :
      argumentStyle.scan (depth, next) m = some place := by
    rw [shape, ArgumentStyle.scan_append, through] at reached
    exact reached
  rcases List.append_eq_append_iff.1 whole with ⟨m, shape, rest'⟩ | ⟨m, shape, rest'⟩
  · exact ⟨m, next, shape, rest', ends, behind shape⟩
  · cases m with
    | nil =>
      rw [List.append_nil] at shape
      have same : s = piece ++ [] := by rw [shape, List.append_nil]
      exact ⟨[], next, same, by simpa using rest'.symm, ends, behind same⟩
    | cons d m =>
      injection rest' with first _
      subst first
      rw [shape, ArgumentStyle.scan_append, reached, Option.bind_some, ArgumentStyle.scan_cons,
        stops] at through
      cases through

/-- Where the reader of arguments stops, a formula has arithmetic and falls apart. -/
theorem Reads.split {rest : List Char} {c : Char} {depth : Nat} {region : Region}
    {place : Nat × Region} (h : Reads answers (s ++ c :: rest) o)
    (passes : ∀ target text name, answers target text name → Passes text) (free : Free region)
    (reached : argumentStyle.scan (depth, region) s = some place)
    (stops : argumentStyle.advance place c = none) :
    isArithmetic c = true ∧ ∃ o₁ o₂, o = o₁ ++ c :: o₂ ∧ Reads answers s o₁ ∧
      Reads answers rest o₂ := by
  generalize whole : s ++ c :: rest = t at h
  induction h generalizing s depth region with
  | nil => simp at whole
  | @char d t o arithmetic tail ih =>
    cases s with
    | nil =>
      cases whole
      exact ⟨arithmetic, [], o, rfl, .nil, tail⟩
    | cons e s =>
      injection whole with same later
      subst same
      rw [ArgumentStyle.scan_cons] at reached
      obtain ⟨next, step, reached⟩ := Option.bind_eq_some_iff.1 reached
      have outside : next.2 = .outside := by
        rw [advance_region step]
        exact (advance_arithmetic arithmetic free depth).2
      obtain ⟨known, o₁, o₂, rfl, left, right⟩ :=
        ih (Or.inl outside) reached later
      exact ⟨known, e :: o₁, o₂, rfl, .char arithmetic left, right⟩
  | @reference target name text t o refers answered tail ih =>
    obtain ⟨m, next, rfl, later, ends, reached⟩ :=
      exists_of_passes (passes _ _ _ answered) whole.symm free reached stops
    obtain ⟨known, o₁, o₂, rfl, left, right⟩ := ih ends reached later.symm
    exact ⟨known, _, o₂, by rw [List.append_assoc], .reference refers answered left, right⟩
  | @ratio above below text upper lower t o divides full numerator full' denominator tail _ _ ih =>
    obtain ⟨m, next, rfl, later, ends, reached⟩ :=
      exists_of_passes divides.passes whole.symm free reached stops
    obtain ⟨known, o₁, o₂, rfl, left, right⟩ := ih ends reached later.symm
    refine ⟨known, _, o₂, ?_, .ratio divides full numerator full' denominator left, right⟩
    rw [← List.append_assoc]

theorem scan_blanks {b : List Char} (h : Blank b) {place next : Nat × Region}
    (through : argumentStyle.scan place b = some next) : next.1 = place.1 := by
  induction b generalizing place with
  | nil =>
    cases through
    rfl
  | cons c b ih =>
    rw [ArgumentStyle.scan_cons] at through
    obtain ⟨middle, step, through⟩ := Option.bind_eq_some_iff.1 through
    have blank := h c List.mem_cons_self
    have opens : ¬argumentStyle.opens c = true := by
      simpa [argumentStyle] using isBlank_ne blank (d := '(') rfl
    have closes : ¬argumentStyle.closes c = true := by
      simpa [argumentStyle] using isBlank_ne blank (d := ')') rfl
    have same : middle.1 = place.1 := by
      unfold ArgumentStyle.advance at step
      dsimp only at step
      rw [if_neg opens, if_neg closes] at step
      split at step
      · cases step
        rfl
      · split at step
        · cases step
        · cases step
          rfl
    rw [ih (fun d hd => h d (List.mem_cons_of_mem c hd)) through, same]

theorem scan_trim {s : List Char} {region : Region}
    (h : argumentStyle.scan (0, .outside) s = some (0, region)) :
    ∃ last, argumentStyle.scan (0, .outside) (Text.trim s) = some (0, last) := by
  obtain ⟨b, b', before, after, shape⟩ := Text.exists_trim_append s
  have blanks : argumentStyle.scan (0, .outside) b = some (0, .outside) :=
    scan_outside (fun c hc => isPlain_of_isBlank (before c hc)) fun comma =>
      absurd comma (before.notMem rfl)
  rw [shape, ArgumentStyle.scan_append, ArgumentStyle.scan_append, blanks, Option.bind_some] at h
  obtain ⟨⟨depth, last⟩, inner, rest⟩ := Option.bind_eq_some_iff.1 h
  have same := scan_blanks after rest
  cases same
  exact ⟨last, inner⟩

/-- Wherever the reader of arguments goes through one text, it goes through the other likewise. -/
def NestedAs (s o : List Char) : Prop :=
  ∀ (depth depth' : Nat) (region region' last : Region), Free region → Free region' →
    argumentStyle.scan (depth, region) s = some (depth', last) →
      ∃ last', Free last' ∧ argumentStyle.scan (depth, region') o = some (depth', last')

theorem NestedAs.append {p r : List Char} (hp : Passes p) (hr : Passes r) (h : NestedAs s o) :
    NestedAs (p ++ s) (r ++ o) := by
  intro depth depth' region region' last free free' through
  obtain ⟨next, ends, first⟩ := hp depth region free
  obtain ⟨next', ends', first'⟩ := hr depth region' free'
  rw [ArgumentStyle.scan_append, first] at through
  rw [ArgumentStyle.scan_append, first']
  exact h depth depth' next next' last ends ends' through

theorem NestedAs.char {c : Char} (arithmetic : isArithmetic c = true) (h : NestedAs s o) :
    NestedAs (c :: s) (c :: o) := by
  intro depth depth' region region' last free free' through
  have same := (advance_arithmetic arithmetic free depth).1
  have same' := (advance_arithmetic arithmetic free' depth).1
  rw [ArgumentStyle.scan_cons, same] at through
  obtain ⟨next, step, through⟩ := Option.bind_eq_some_iff.1 through
  have outside : Free next.2 := by
    rw [advance_region step]
    exact Or.inl (advance_arithmetic arithmetic (Or.inl rfl) depth).2
  rw [ArgumentStyle.scan_cons, same', step]
  exact h next.1 depth' next.2 next.2 last outside outside through

theorem NestedAs.operand {argument : List Char} {last : Region}
    (nested : argumentStyle.scan (0, .outside) argument = some (0, last))
    (h : NestedAs (Text.trim argument) o) (tight : Tight o) : Passes (parenthesize o) := by
  obtain ⟨last, through⟩ := scan_trim nested
  have whole : Passes o := by
    intro depth region free
    obtain ⟨last', ends, known⟩ := h 0 0 .outside region last (Or.inl rfl) free through
    have deeper := argumentStyle.scan_add known depth
    rw [Nat.zero_add] at deeper
    exact ⟨last', ends, deeper⟩
  rw [parenthesize, Text.trim_tight tight]
  split
  · exact whole
  · exact passes_nested fun depth => whole (depth + 1)

/-- What a formula becomes is nested as the formula is, when the name of a metric ends where it is
written to end. -/
theorem Reads.nested (h : Reads answers s o)
    (known : ∀ target text name, answers target text name → Passes text ∧ ']' ∉ name.toList) :
    NestedAs s o := by
  have slash : Passes [' ', '/', ' '] := passes_plain (by simp [isPlain]) (by simp)
  induction h with
  | nil =>
    intro depth depth' region region' last free free' through
    cases through
    exact ⟨region', free', rfl⟩
  | char arithmetic _ ih => exact ih.char arithmetic
  | reference refers answered _ ih =>
    obtain ⟨passes, named⟩ := known _ _ _ answered
    exact ih.append passes (.metric ⟨named, rfl⟩)
  | ratio divides full numerator full' denominator _ upper lower ih =>
    have passes := divides.passes
    obtain ⟨_, nested, _, nested', _⟩ := divides
    have above := upper.operand nested (numerator.tight (Text.tight_trim full))
    have below := lower.operand nested' (denominator.tight (Text.tight_trim full'))
    exact ih.append passes ((above.append slash).append below)

end Reads

end SemanticLayer.Formula
