import SemanticLayer.Proofs.Formula.Nesting

set_option autoImplicit false

namespace SemanticLayer.Formula

open Text (Tight isBlank)

/-- Texts that are the same up to blanks, and up to parentheses around the first. These belong
together as far as `tame` holds. -/
inductive Encloses (tame : Prop) : List Char → List Char → Prop where
  | same {s t : List Char} (alike : Alike (Text.trim s) (Text.trim t)) : Encloses tame s t
  | group {s t inside : List Char} (shape : Text.trim s = '(' :: (inside ++ [')']))
      (closed : tame → isWrapped (Text.trim s) = true) (rest : Encloses tame inside t) :
    Encloses tame s t

theorem Alike.trim {s t : List Char} (h : Alike s t) : Alike (Text.trim s) (Text.trim t) := by
  rw [Alike, ← Text.trim_squeeze, h, Text.trim_squeeze]

theorem Encloses.of_alike {tame : Prop} {s s' t t' : List Char} (h : Encloses tame s t)
    (left : Alike (Text.trim s') (Text.trim s)) (right : Alike (Text.trim t) (Text.trim t')) :
    Encloses tame s' t' := by
  induction h generalizing s' with
  | same alike => exact .same ((left.trans alike).trans right)
  | @group s t inside shape closed rest ih =>
    rw [shape, Alike, Text.squeeze_visible rfl, Text.squeeze_append_cons rfl] at left
    obtain ⟨u, v, whole, before, after⟩ := Text.exists_of_squeeze (u := []) rfl left
    obtain ⟨inside', w, rfl, middle, last⟩ := Text.exists_of_squeeze rfl after
    rw [Text.squeeze_eq_nil_iff.1 before, Text.squeeze_eq_nil_iff.1 last] at whole
    refine .group whole (fun tidy => ?_) (ih (Alike.trim middle) right)
    apply isWrapped_of_alike _ (closed tidy)
    rw [shape, whole, Alike, Text.squeeze_visible rfl, List.nil_append, Text.squeeze_visible rfl,
      Text.squeeze_append_cons rfl, Text.squeeze_append_cons rfl, middle]

theorem Encloses.mono {tame tame' : Prop} {s t : List Char} (h : Encloses tame s t)
    (tamer : tame' → tame) : Encloses tame' s t := by
  induction h with
  | same alike => exact .same alike
  | group shape closed _ ih => exact .group shape (fun tidy => closed (tamer tidy)) ih

variable {answers : Reference → List Char → String → Prop} {s o : List Char}

theorem Reads.of_char {c : Char} (h : Reads answers (c :: s) o)
    (arithmetic : isArithmetic c = true) :
    ∃ o', o = c :: o' ∧ Reads answers s o' := by
  generalize whole : c :: s = t at h
  cases h with
  | nil => cases whole
  | char _ rest =>
    cases whole
    exact ⟨_, rfl, rest⟩
  | reference refers _ _ =>
    obtain ⟨d, t, rfl, symbol, -⟩ := refers.first
    cases whole
    rw [arithmetic] at symbol
    cases symbol
  | ratio divides _ _ _ _ _ =>
    obtain ⟨d, t, rfl, letter⟩ := divides.first
    cases whole
    rw [isArithmetic_of_isAlpha letter] at arithmetic
    cases arithmetic

theorem Reads.unwrap (h : Reads answers s o)
    (passes : ∀ target text name, answers target text name → Passes text) :
    ∃ o', Reads answers (unwrap s) o' ∧
      Encloses (∀ target text name, answers target text name → ']' ∉ name.toList) o o' := by
  fun_induction Formula.unwrap s generalizing o with
  | case1 s wrapped ih =>
    obtain ⟨inside, items, rfl, splits⟩ := isWrapped_iff.1 wrapped
    obtain ⟨o₁, rfl, inner⟩ := h.of_char rfl
    have stops {item rest : List Char} {mark : Char} {last : Text.Region}
        (shape : inside = item ++ mark :: rest)
        (nested : argumentStyle.scan (0, .outside) item = some (0, last))
        (free : argumentStyle.step last mark = .outside) (ends : mark = ')' ∨ mark = ',') :
        isArithmetic mark = true ∧ ∃ u v, o₁ = u ++ mark :: v ∧ Reads answers item u ∧
          Reads answers rest v := by
      rw [shape] at inner
      refine inner.split passes (Or.inl rfl) nested ?_
      rw [Text.ArgumentStyle.advance_eq_none_iff]
      rcases ends with rfl | rfl
      · exact ⟨free, rfl, rfl, Or.inl rfl⟩
      · exact ⟨free, rfl, rfl, Or.inr rfl⟩
    cases splits with
    | next nested free _ =>
      obtain ⟨comma, -⟩ := stops rfl nested free (Or.inr rfl)
      cases comma
    | @last item _ region nested free =>
      obtain ⟨-, u, v, rfl, read, none⟩ := stops rfl nested free (Or.inl rfl)
      have empty : v = [] := none.eq_nil_iff.1 rfl
      subst empty
      have shape : (('(' :: (item ++ [')'])).drop 1).dropLast = item := by simp
      rw [shape] at ih ⊢
      obtain ⟨o', read', encloses⟩ := ih read.trim
      have trimmed : Text.trim ('(' :: (u ++ [')'])) = '(' :: (u ++ [')']) :=
        Text.trim_tight ⟨⟨'(', _, rfl, rfl⟩, '(' :: u, ')', rfl, rfl⟩
      refine ⟨o', read', .group trimmed (fun tame => ?_) (encloses.of_alike ?_ rfl)⟩
      · have nestedAs := read.nested fun target text name known =>
          ⟨passes target text name known, tame target text name known⟩
        obtain ⟨last, ends, through⟩ :=
          nestedAs 0 0 .outside .outside region (Or.inl rfl) (Or.inl rfl) nested
        have closes : argumentStyle.step last ')' = .outside :=
          step_of_free ends (by decide) (by decide)
        rw [trimmed]
        exact isWrapped_iff.2 ⟨_, [u], rfl, .last through closes⟩
      · rw [Text.trim_trim]
        rfl
  | case2 s _ => exact ⟨o, h, .same rfl⟩

theorem uncommented_of_trim {s : List Char} (h : Uncommented (Text.trim s)) : Uncommented s := by
  have unmarked {c : Char} (blank : isBlank c = true) : c ≠ '/' ∧ c ≠ '-' :=
    ⟨isBlank_ne blank rfl, isBlank_ne blank rfl⟩
  obtain ⟨b, b', before, after, shape⟩ := Text.exists_trim_append s
  have front : Uncommented (b ++ Text.trim s) := by
    rcases List.eq_nil_or_concat' b with rfl | ⟨b, c, rfl⟩
    · exact h
    · rw [List.append_assoc, List.singleton_append,
        uncommented_append_cons (unmarked (before c (by simp)))]
      exact ⟨uncommented_of_blank fun d hd => before d (List.mem_append_left _ hd), h⟩
  rw [shape]
  cases b' with
  | nil => rwa [List.append_nil]
  | cons c b' =>
    rw [uncommented_append_cons (unmarked (after c List.mem_cons_self))]
    exact ⟨front, uncommented_of_blank fun d hd => after d (List.mem_cons_of_mem c hd)⟩

theorem uncommented_of_isAlpha {s : List Char} (letters : ∀ c ∈ s, c.isAlpha = true) :
    Uncommented s := by
  constructor
  · intro found
    cases letters '/' (found.subset List.mem_cons_self)
  · intro found
    cases letters '-' (found.subset List.mem_cons_self)

theorem Divides.uncommented {above below text : List Char} (h : Divides above below text)
    (upper : Uncommented above) (lower : Uncommented below) (rest : List Char)
    (later : Uncommented rest) : Uncommented (text ++ rest) := by
  obtain @⟨keyword, _, _, named, -, -, -, -⟩ := h
  have shape : keyword ++ '(' :: (above ++ ',' :: (below ++ [')'])) ++ rest =
      keyword ++ '(' :: (above ++ ',' :: (below ++ ')' :: rest)) := by simp
  rw [shape, uncommented_append_cons (by decide), uncommented_append_cons (by decide),
    uncommented_append_cons (by decide)]
  exact ⟨uncommented_of_isAlpha named.letters, upper, lower, later⟩

theorem uncommented_of_parenthesize {s : List Char} (tight : Tight s)
    (h : Uncommented (parenthesize s)) : Uncommented s := by
  rw [parenthesize, Text.trim_tight tight] at h
  split at h
  · exact h
  · exact h.within ⟨['('], [')'], rfl⟩

/-- The comments of a formula that is understood to its end are arithmetic, and are written in what
it becomes. -/
theorem Reads.uncommented (h : Reads answers s o)
    (plain : ∀ target text name, answers target text name → Uncommented text)
    (clear : Uncommented o) : Uncommented s := by
  induction h with
  | nil => exact clear
  | @char c s o arithmetic rest ih =>
    refine uncommented_cons ?_ (ih clear.tail)
    rw [← Bool.not_eq_true, startsComment_cons_iff]
    rintro ⟨mark, next⟩
    obtain ⟨t, rfl⟩ := List.head?_eq_some_iff.1 next
    obtain ⟨o', rfl, -⟩ := rest.of_char arithmetic
    exact clear.not_mark mark
  | @reference _ _ text _ _ refers answered _ ih =>
    have known := plain _ _ _ answered
    have later := ih (clear.within (List.suffix_append _ _).isInfix)
    obtain ⟨t, c, rfl, last⟩ := refers.last
    have unmarked : c ≠ '/' ∧ c ≠ '-' := by rcases last with rfl | rfl <;> decide
    rw [uncommented_append_cons unmarked] at known
    rw [List.append_assoc, List.singleton_append, uncommented_append_cons unmarked]
    exact ⟨known.1, later⟩
  | @ratio above below text upper lower s o divides full numerator full' denominator _ ihUpper
      ihLower ih =>
    have above := ihUpper (uncommented_of_parenthesize (numerator.tight (Text.tight_trim full))
      (clear.within ⟨[], [' ', '/', ' '] ++ parenthesize lower ++ o, by simp⟩))
    have below := ihLower (uncommented_of_parenthesize (denominator.tight (Text.tight_trim full'))
      (clear.within ⟨parenthesize upper ++ [' ', '/', ' '], o, rfl⟩))
    exact divides.uncommented (uncommented_of_trim above) (uncommented_of_trim below) s
      (ih (clear.within (List.suffix_append _ _).isInfix))

def Answered (source : MeasureSource Id) (target : Reference) (name : String) : Prop :=
  (target.resolve source).run = some name

theorem evaluate_of_renders {source : MeasureSource Id} {f : Formula} {o : List Char}
    (h : Renders (Answered source) f o) : (f.evaluate source).run = (o, []) := by
  induction h with
  | stop run => rfl
  | @reference run here text target name tail answered _ ih =>
    rw [evaluate, Id.run_bind, answered]
    simp only [Id.run_bind, ih]
    rfl
  | ratio full _ full' _ _ upper lower rest =>
    rw [evaluate, if_neg full, Id.run_bind, upper]
    simp only [if_neg full', Id.run_bind, lower, rest]
    rfl

section Steps

variable {source : MeasureSource Id} {run here o rest : List Char}

theorem evaluate_reference {target : Reference} {tail : Formula}
    (h : ((Formula.reference run here target tail).evaluate source).run = (o, rest)) :
    o = run ∧ rest = here ∨ ∃ name text, Answered source target name ∧
      (tail.evaluate source).run = (text, rest) ∧
        o = run ++ (measureReference name).toList ++ text := by
  cases asked : (target.resolve source).run with
  | none =>
    rw [evaluate, Id.run_bind, asked] at h
    cases h
    exact Or.inl ⟨rfl, rfl⟩
  | some name =>
    rw [evaluate, Id.run_bind, asked] at h
    simp only [Id.run_bind] at h
    rcases later : (tail.evaluate source).run with ⟨text, left⟩
    rw [later] at h
    cases h
    exact Or.inr ⟨name, text, asked, rfl, rfl⟩

theorem evaluate_ratio {numerator denominator tail : Formula}
    (h : ((Formula.ratio run here numerator denominator tail).evaluate source).run = (o, rest)) :
    o = run ∧ rest = here ∨ ∃ above below text,
      numerator ≠ .stop [] [] ∧ (numerator.evaluate source).run = (above, []) ∧
      denominator ≠ .stop [] [] ∧ (denominator.evaluate source).run = (below, []) ∧
      (tail.evaluate source).run = (text, rest) ∧
        o = run ++ parenthesize above ++ [' ', '/', ' '] ++ parenthesize below ++ text := by
  rw [evaluate] at h
  by_cases full : numerator = .stop [] []
  · rw [if_pos full] at h
    cases h
    exact Or.inl ⟨rfl, rfl⟩
  rw [if_neg full, Id.run_bind] at h
  rcases first : (numerator.evaluate source).run with ⟨above, _ | ⟨c, left⟩⟩
  · rw [first] at h
    by_cases full' : denominator = .stop [] []
    · simp only [if_pos full'] at h
      cases h
      exact Or.inl ⟨rfl, rfl⟩
    simp only [if_neg full', Id.run_bind] at h
    rcases second : (denominator.evaluate source).run with ⟨below, _ | ⟨c, left⟩⟩
    · simp only [second, Id.run_bind] at h
      rcases later : (tail.evaluate source).run with ⟨text, left⟩
      rw [later] at h
      cases h
      exact Or.inr ⟨above, below, text, full, rfl, full', rfl, rfl, rfl⟩
    · rw [second] at h
      cases h
      exact Or.inl ⟨rfl, rfl⟩
  · rw [first] at h
    cases h
    exact Or.inl ⟨rfl, rfl⟩

end Steps

theorem renders_of_evaluate {source : MeasureSource Id} {f : Formula} {o : List Char}
    (marked : f.Marked) (h : (f.evaluate source).run = (o, [])) :
    Renders (Answered source) f o := by
  induction f generalizing o with
  | stop run rest =>
    cases h
    exact .stop run
  | reference run here target tail ih =>
    obtain ⟨-, empty⟩ | ⟨name, text, answered, later, rfl⟩ := evaluate_reference h
    · exact absurd empty.symm marked.1
    · exact .reference answered (ih marked.2 later)
  | ratio run here numerator denominator tail upper lower ih =>
    obtain ⟨kept, markedAbove, markedBelow, markedTail⟩ := marked
    obtain ⟨-, empty⟩ | ⟨above, below, text, full, first, full', second, later, rfl⟩ :=
      evaluate_ratio h
    · exact absurd empty.symm kept
    · exact .ratio full (upper markedAbove first) full' (lower markedBelow second)
        (ih markedTail later)

theorem render_eq_complete_iff {source : MeasureSource Id} {text expression : String} :
    (render source text).run = .complete expression ↔
      ∃ o, Renders (Answered source) (ofText text) o ∧ expression = String.ofList (Text.trim o) := by
  constructor
  · intro h
    rw [render, Id.run_bind] at h
    rcases found : ((ofText text).evaluate source).run with ⟨o, rest⟩
    rw [ofText] at found
    rw [found] at h
    cases rest with
    | nil =>
      cases h
      exact ⟨o, renders_of_evaluate (marked_parse _) found, rfl⟩
    | cons c rest => cases h
  · rintro ⟨o, renders, rfl⟩
    have found := evaluate_of_renders renders
    rw [ofText] at found
    rw [render, Id.run_bind, found]
    rfl
/-- Whether no name of a formula has runs of blanks, and every call ends where its names do. -/
def Orderly (f : Formula) : Prop :=
  f.Each fun target here => target.Spaced ∧ Closed target here

instance (f : Formula) : Decidable f.Orderly := inferInstanceAs (Decidable (f.Each _))

/-- What is known of the references of an orderly formula. -/
structure Known (source : MeasureSource Id) (target : Reference) (text : List Char)
    (name : String) : Prop where
  answered : Answered source target name
  spaced : target.Spaced
  passes : Passes text

theorem sane_of_free {region : Text.Region} (free : Free region) : Sane region := by
  rcases free with rfl | rfl | rfl
  · trivial
  · rfl
  · rfl

theorem Passes.squeeze {s : List Char} (h : Passes s) : Passes (Text.squeeze s) := by
  intro depth region free
  obtain ⟨next, ends, through⟩ := h depth region free
  exact ⟨next, ends, (scan_squeeze (sane_of_free free) depth s).trans through⟩

/-- A formula that is rendered completely is rendered completely in its normal form when it has no
comments, and becomes the same up to blanks and parentheses around the whole. Its comments are
otherwise written in the expression, apart from those that look like one in a name. -/
theorem render_normalize {source : MeasureSource Id} {text expression : String}
    (complete : (render source text).run = .complete expression) :
    (Uncommented text.toList → (ofText text).Orderly →
      ∃ expression', (render source (String.ofList (normalize text.toList))).run =
          .complete expression' ∧
        Encloses (∀ target name, Answered source target name → ']' ∉ name.toList)
          expression.toList expression'.toList) ∧
    ((∀ target piece, Refers target piece → piece <:+: text.toList → Uncommented piece) →
      Uncommented expression.toList → Uncommented text.toList) := by
  obtain ⟨o, renders, rfl⟩ := render_eq_complete_iff.1 complete
  constructor
  · intro plain orderly
    have read : Reads (Known source) (Text.trim text.toList) o := by
      refine (reads_of_renders renders orderly).pieces.mono fun target piece name known => ?_
      obtain ⟨⟨answered, rest, spaced, closed⟩, refers, -⟩ := known
      exact ⟨answered, spaced, refers.passes closed⟩
    obtain ⟨o₁, squeezed, alike⟩ := read.squeeze fun target piece name known =>
      ⟨known.spaced, known.answered, known.spaced, known.passes.squeeze⟩
    obtain ⟨o₂, unwrapped, encloses⟩ := squeezed.unwrap fun target piece name known => known.passes
    have normal : normalize text.toList = unwrap (Text.squeeze (Text.trim text.toList)) := by
      rw [normalize, flatten_eq_squeeze, dropComments_of_uncommented plain]
    have last := unwrapped.trim.mono fun target piece name known => known.answered
    refine ⟨String.ofList (Text.trim o₂), ?_, ?_⟩
    · refine render_eq_complete_iff.2 ⟨Text.trim o₂, ?_, ?_⟩
      · rw [ofText, String.toList_ofList, normal]
        exact last.renders
      · rw [Text.trim_trim]
    · rw [String.toList_ofList, String.toList_ofList]
      refine (encloses.of_alike ?_ ?_).mono fun tame target piece name known =>
        tame target name known.answered
      · rw [Text.trim_trim]
        exact alike.trim
      · rw [Text.trim_trim]
        rfl
  · intro plain clear
    have read := (reads_of_renders renders (each_trivial _)).pieces.trim
    rw [Text.trim_trim] at read
    rw [String.toList_ofList] at clear
    refine uncommented_of_trim (read.uncommented (fun target piece name known => ?_) clear)
    obtain ⟨-, refers, part⟩ := known
    exact plain target piece refers (part.trans (Text.trim_within _))

/-- A source with one metric for all measures and one for all calls. -/
def fixedSource : MeasureSource Id where
  aggregate _ := pure (some "amount")
  measure _ := pure (some "net_sales")

def groupedTotal : String := "( ( [Net Sales]  +  SUM( 'My Sales' [Amount] ) ) )"

theorem render_normalize_groupedTotal :
    ∃ expression', (render fixedSource (String.ofList (normalize groupedTotal.toList))).run =
        .complete expression' ∧
      Encloses (∀ target name, Answered fixedSource target name → ']' ∉ name.toList)
        "( ( [Measures].[net_sales]  +  [Measures].[amount] ) )".toList expression'.toList :=
  (render_normalize (by decide +kernel)).1 (by decide +kernel) (by decide +kernel)

/-- A comment of digits and blanks is arithmetic where the formula is read as it is written. -/
example : (render fixedSource "[Total] // 100").run =
      .complete "[Measures].[net_sales] // 100" ∧
    (render fixedSource (String.ofList (normalize "[Total] // 100".toList))).run =
      .complete "[Measures].[net_sales]" := by
  decide +kernel

end SemanticLayer.Formula
