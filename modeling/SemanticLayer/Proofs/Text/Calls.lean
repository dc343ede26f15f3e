import Mathlib.Algebra.Ring.Int.Defs
import SemanticLayer.Formula.Normal
import SemanticLayer.PowerQuery.Literal
import SemanticLayer.Proofs.Text.Arguments
import SemanticLayer.Proofs.Text.Delimited

set_option autoImplicit false

/-!
Calls are cut into their arguments exactly, whatever nests and whatever is skipped.

A text is taken as a list of pieces, which are characters and skipped regions, and its depth is the
number of its opening characters without that of its closing ones. So it can be said what an argument
is and where a call ends without reading the text; `scan_iff` says that reading comes to the same.
-/
namespace SemanticLayer.Text

/-- A part of a text: a character, or a skipped region with both of its ends. -/
inductive Piece where
  | char (c : Char)
  | region (start : Char) (inside : List Char) (close : Char)

namespace ArgumentStyle

/-- The pieces of a text. In a region its closing character stands in pairs, and none follows the
one that closes it. -/
inductive Pieces (style : ArgumentStyle) : List Piece → List Char → Prop where
  | nil : Pieces style [] []
  | char {c : Char} {ps : List Piece} {s : List Char} (outside : style.regionEnd c = none)
      (rest : Pieces style ps s) : Pieces style (.char c :: ps) (c :: s)
  | region {start close : Char} {inside s : List Char} {ps : List Piece}
      (starts : style.regionEnd start = some close) (paired : Paired close inside)
      (apart : s.head? ≠ some close) (rest : Pieces style ps s) :
      Pieces style (.region start inside close :: ps) (start :: (inside ++ close :: s))

/-- What a piece adds to the depth. -/
def turn (style : ArgumentStyle) : Piece → Int
  | .char c => if style.opens c then 1 else if style.closes c then -1 else 0
  | .region _ _ _ => 0

def depth (style : ArgumentStyle) (ps : List Piece) : Int := (ps.map style.turn).sum

/-- Nothing is closed that is not open, and nothing is open at the end. -/
structure Balanced (style : ArgumentStyle) (ps : List Piece) : Prop where
  above : ∀ qs rs, ps = qs ++ rs → 0 ≤ style.depth qs
  level : style.depth ps = 0

/-- A balanced text without a comma at depth zero, in which all regions are closed. -/
def IsArgument (style : ArgumentStyle) (s : List Char) : Prop :=
  ∃ ps, style.Pieces ps s ∧ style.Balanced ps ∧
    ∀ qs rs, ps = qs ++ .char ',' :: rs → style.depth qs ≠ 0

/-- The parenthesis behind a text is at depth zero, and none in the text is. -/
structure ClosesFirst (style : ArgumentStyle) (s : List Char) : Prop where
  level : ∃ ps, style.Pieces ps s ∧ style.depth ps = 0
  deeper : ∀ before rest, s = before ++ ')' :: rest →
    ∀ ps, style.Pieces ps before → 0 < style.depth ps

def Bare (style : ArgumentStyle) (c : Char) : Prop :=
  style.regionEnd c = none ∧ ∀ start, style.regionEnd start ≠ some c

/-- Styles in which commas and closing parentheses have nothing to do with regions. -/
structure Separates (style : ArgumentStyle) : Prop extends style.Plain where
  bareComma : style.Bare ','
  bareParenthesis : style.Bare ')'

variable {style : ArgumentStyle} {ps qs : List Piece} {s t : List Char} {d e : Nat}

@[simp] theorem depth_nil : style.depth [] = 0 := rfl

@[simp] theorem depth_cons (p : Piece) (ps : List Piece) :
    style.depth (p :: ps) = style.turn p + style.depth ps := by
  simp [depth]

@[simp] theorem depth_append (ps qs : List Piece) :
    style.depth (ps ++ qs) = style.depth ps + style.depth qs := by
  simp [depth]

theorem turn_comma (plain : style.Plain) : style.turn (.char ',') = 0 := by
  simp [turn, plain.comma]

theorem turn_parenthesis (plain : style.Plain) : style.turn (.char ')') = -1 := by
  simp [turn, plain.parenthesis]

theorem Balanced.append (hp : style.Balanced ps) (hq : style.Balanced qs) :
    style.Balanced (ps ++ qs) where
  above us vs whole := by
    rcases List.append_eq_append_iff.1 whole with ⟨m, rfl, same⟩ | ⟨m, same, rfl⟩
    · rw [depth_append, hp.level, Int.zero_add]
      exact hq.above m vs same
    · exact hp.above us m same
  level := by rw [depth_append, hp.level, hq.level, Int.zero_add]

/-- From one depth to another one: nothing is closed that is not open, and no comma stands at depth
zero. -/
structure Leads (style : ArgumentStyle) (d : Nat) (ps : List Piece) (e : Nat) : Prop where
  above : ∀ qs rs, ps = qs ++ rs → 0 ≤ d + style.depth qs
  level : d + style.depth ps = e
  comma : ∀ qs rs, ps = qs ++ .char ',' :: rs → d + style.depth qs ≠ 0

theorem leads_nil : style.Leads d [] e ↔ d = e := by
  constructor
  · intro h
    have level := h.level
    simp only [depth_nil] at level
    omega
  · rintro rfl
    refine ⟨fun qs rs whole => ?_, by simp, fun qs rs whole => ?_⟩
    · obtain ⟨rfl, -⟩ := List.nil_eq_append_iff.1 whole
      simp
    · simp at whole

theorem leads_cons {p : Piece} : style.Leads d (p :: ps) e ↔
    (p = .char ',' → d ≠ 0) ∧ ∃ m : Nat, (m : Int) = d + style.turn p ∧ style.Leads m ps e := by
  constructor
  · intro h
    have first := h.above [p] ps rfl
    simp only [depth_cons, depth_nil] at first
    refine ⟨?_, (d + style.turn p).toNat, by omega, ?_⟩
    · rintro rfl zero
      exact h.comma [] ps rfl (by simp [zero])
    · have level := h.level
      simp only [depth_cons] at level
      refine ⟨fun qs rs whole => ?_, by omega, fun qs rs whole => ?_⟩
      · have above := h.above (p :: qs) rs (by rw [whole]; rfl)
        simp only [depth_cons] at above
        omega
      · have comma := h.comma (p :: qs) rs (by rw [whole]; rfl)
        simp only [depth_cons] at comma
        omega
  · rintro ⟨apart, m, step, h⟩
    have level := h.level
    refine ⟨fun qs rs whole => ?_, by simp only [depth_cons]; omega, fun qs rs whole => ?_⟩
    · rcases List.cons_eq_append_iff.1 whole with ⟨rfl, -⟩ | ⟨qs', rfl, same⟩
      · simp
      · have above := h.above qs' rs same
        simp only [depth_cons]
        omega
    · rcases List.cons_eq_append_iff.1 whole with ⟨rfl, same⟩ | ⟨qs', rfl, same⟩
      · injection same with first
        have := apart first.symm
        simpa using this
      · have comma := h.comma qs' rs same
        simp only [depth_cons]
        omega

theorem leads_zero : style.Leads 0 ps 0 ↔
    style.Balanced ps ∧ ∀ qs rs, ps = qs ++ .char ',' :: rs → style.depth qs ≠ 0 := by
  constructor
  · rintro ⟨above, level, comma⟩
    simp only [Int.ofNat_zero, Int.zero_add] at above level comma
    exact ⟨⟨above, level⟩, comma⟩
  · rintro ⟨⟨above, level⟩, comma⟩
    refine ⟨?_, ?_, ?_⟩
    all_goals simpa using by assumption

/-- Between regions, where the next character is not taken for a part of the last one. -/
def Settled (style : ArgumentStyle) (region : Region) (s : List Char) : Prop :=
  region = .outside ∨ ∃ start close, style.regionEnd start = some close ∧
    region = .leaving close ∧ s.head? ≠ some close

theorem Settled.step {region : Region} {c : Char} (h : style.Settled region (c :: s)) :
    style.step region c = style.enter c := by
  rcases h with rfl | ⟨_, close, _, rfl, other⟩
  · rfl
  · exact if_neg fun same => other (congrArg some same)

theorem Settled.bare {region : Region} {c : Char} (h : style.Settled region [])
    (bare : style.Bare c) : style.step region c = .outside := by
  have settled : style.Settled region [c] := by
    refine h.imp_right ?_
    rintro ⟨start, close, ends, rfl, -⟩
    refine ⟨start, close, ends, rfl, fun same => bare.2 start ?_⟩
    rw [ends, ← Option.some.inj same]
  rw [settled.step, enter, bare.1]

theorem scan_inside_eq (style : ArgumentStyle) (close : Char) (s : List Char) (d : Nat) :
    style.scan (d, .inside close) s =
      match splitClose close s with
      | some (_, rest) => style.scan (d, .leaving close) rest
      | none => some (d, .inside close) := by
  have leave : style.advance (d, .inside close) close = some (d, .leaving close) := by
    simp [advance, step]
  have back : style.advance (d, .leaving close) close = some (d, .inside close) := by
    simp [advance, step]
  have stay {c : Char} (other : c ≠ close) :
      style.advance (d, .inside close) c = some (d, .inside close) := by
    simp [advance, step, other]
  fun_induction splitClose close s with
  | case1 => rfl
  | case2 => rw [scan_cons, leave]; rfl
  | case3 c other => rw [scan_cons, stay other]; rfl
  | case4 r ih =>
    rw [scan_cons, leave, Option.bind_some, scan_cons, back, Option.bind_some, ih]
    cases splitClose close r <;> rfl
  | case5 d r other => rw [scan_cons, leave]; rfl
  | case6 c d r other ih =>
    rw [scan_cons, stay other, Option.bind_some, ih]
    cases splitClose close (d :: r) <;> rfl

theorem advance_char (plain : style.Plain) {region region' : Region} {c : Char}
    (outside : style.step region c = .outside) {m : Nat} :
    style.advance (d, region) c = some (m, region') ↔
      region' = .outside ∧ (c = ',' → d ≠ 0) ∧ (m : Int) = d + style.turn (.char c) := by
  have comma := plain.comma
  simp only [advance, outside, turn, ne_eq, not_true_eq_false, if_false]
  split
  · rename_i opens
    have other : c ≠ ',' := fun same => by simp [same, comma.1] at opens
    grind
  rename_i opens
  split
  · rename_i closes
    have other : c ≠ ',' := fun same => by simp [same, comma.2] at closes
    cases d <;> grind
  · grind

theorem advance_start {region : Region} {start close : Char}
    (starts : style.regionEnd start = some close)
    (entered : style.step region start = style.enter start) :
    style.advance (d, region) start = some (d, .inside close) := by
  simp [advance, entered, enter, starts]

theorem Pieces.scan_iff (plain : style.Plain) (h : style.Pieces ps s) {region : Region}
    (settled : style.Settled region s) : ∃ last, style.Settled last [] ∧ ∀ d e region',
      style.scan (d, region) s = some (e, region') ↔ region' = last ∧ style.Leads d ps e := by
  induction h generalizing region with
  | nil =>
    refine ⟨region, settled, fun d e region' => ?_⟩
    rw [leads_nil]
    constructor
    · rintro ⟨⟩
      exact ⟨rfl, rfl⟩
    · rintro ⟨rfl, rfl⟩
      rfl
  | @char c ps s outside _ ih =>
    have entered : style.step region c = .outside := by rw [settled.step, enter, outside]
    obtain ⟨last, ends, reads⟩ := ih (Or.inl rfl)
    refine ⟨last, ends, fun d e region' => ?_⟩
    rw [scan_cons, Option.bind_eq_some_iff, leads_cons]
    constructor
    · rintro ⟨⟨m, middle⟩, step, through⟩
      obtain ⟨rfl, comma, depth⟩ := (advance_char plain entered).1 step
      obtain ⟨same, rest⟩ := (reads m e region').1 through
      exact ⟨same, fun isComma => comma (Piece.char.inj isComma), m, depth, rest⟩
    · rintro ⟨same, comma, m, depth, rest⟩
      refine ⟨(m, .outside), ?_, (reads m e region').2 ⟨same, rest⟩⟩
      exact (advance_char plain entered).2 ⟨rfl, fun isComma => comma (congrArg _ isComma), depth⟩
  | @region start close inside s ps starts paired apart _ ih =>
    obtain ⟨last, ends, reads⟩ := ih (Or.inr ⟨start, close, starts, rfl, apart⟩)
    refine ⟨last, ends, fun d e region' => ?_⟩
    have through : style.scan (d, region) (start :: (inside ++ close :: s)) =
        style.scan (d, .leaving close) s := by
      rw [scan_cons, advance_start starts settled.step, Option.bind_some, scan_inside_eq,
        paired.splitClose apart]
    rw [through, reads, leads_cons]
    refine and_congr_right fun _ => ⟨fun rest => ⟨nofun, d, by simp [turn], rest⟩, ?_⟩
    rintro ⟨-, m, depth, rest⟩
    obtain rfl : m = d := Int.ofNat_inj.1 (by simpa [turn] using depth)
    exact rest

theorem exists_pieces {region last : Region} (settled : style.Settled region s)
    (h : style.scan (d, region) s = some (e, last)) (out : ∀ close, last ≠ .inside close) :
    ∃ ps, style.Pieces ps s := by
  -- On the length: behind a region the text goes on after all of it.
  induction size : s.length using Nat.strongRecOn generalizing s d region with
  | _ size ih =>
    subst size
    cases s with
    | nil => exact ⟨[], .nil⟩
    | cons c s =>
      rw [scan_cons] at h
      obtain ⟨next, step, through⟩ := Option.bind_eq_some_iff.1 h
      cases starts : style.regionEnd c with
      | some close =>
        rw [advance_start starts settled.step] at step
        cases step
        rw [scan_inside_eq] at through
        cases split : splitClose close s with
        | none =>
          rw [split] at through
          cases through
          exact absurd rfl (out close)
        | some found =>
          obtain ⟨inside, rest⟩ := found
          rw [split] at through
          obtain ⟨paired, apart, rfl⟩ := splitClose_eq_some_iff.1 split
          have shorter : rest.length < (c :: (inside ++ close :: rest)).length := by
            simp only [List.length_cons, List.length_append]
            omega
          obtain ⟨ps, pieces⟩ :=
            ih _ shorter (Or.inr ⟨c, close, starts, rfl, apart⟩) through rfl
          exact ⟨_, .region starts paired apart pieces⟩
      | none =>
        have entered : style.step region c = .outside := by rw [settled.step, enter, starts]
        have outside : next.2 = .outside := by
          simp only [advance, entered] at step
          grind
        obtain ⟨ps, pieces⟩ := ih s.length (Nat.lt_succ_self _) (Or.inl outside) through rfl
        exact ⟨_, .char starts pieces⟩

theorem isArgument_iff (plain : style.Plain) {c : Char} (bare : style.Bare c) :
    style.IsArgument s ↔
      ∃ last, style.scan (0, .outside) s = some (0, last) ∧ style.step last c = .outside := by
  have start : style.Settled .outside s := Or.inl rfl
  constructor
  · rintro ⟨ps, pieces, argument⟩
    obtain ⟨last, ends, reads⟩ := pieces.scan_iff plain start
    exact ⟨last, (reads 0 0 last).2 ⟨rfl, leads_zero.2 argument⟩, ends.bare bare⟩
  · rintro ⟨last, through, free⟩
    have out : ∀ close, last ≠ .inside close := by
      rintro close rfl
      simp only [step] at free
      split at free <;> cases free
    obtain ⟨ps, pieces⟩ := exists_pieces start through out
    obtain ⟨_, -, reads⟩ := pieces.scan_iff plain start
    exact ⟨ps, pieces, leads_zero.1 ((reads 0 0 last).1 through).2⟩

theorem splits_iff (separates : style.Separates) {items : List (List Char)} {after : List Char} :
    style.Splits s items after ↔ items ≠ [] ∧ (∀ item ∈ items, style.IsArgument item) ∧
      s = [','].intercalate items ++ ')' :: after := by
  have plain := separates.toPlain
  constructor
  · intro h
    induction h with
    | @last item after region nested free =>
      refine ⟨List.cons_ne_nil _ _, List.forall_mem_singleton.2 ?_, by simp⟩
      exact (isArgument_iff plain separates.bareParenthesis).2 ⟨region, nested, free⟩
    | @next item tail after items region nested free _ ih =>
      obtain ⟨some, arguments, rfl⟩ := ih
      have first := (isArgument_iff plain separates.bareComma).2 ⟨region, nested, free⟩
      refine ⟨List.cons_ne_nil _ _, List.forall_mem_cons.2 ⟨first, arguments⟩, ?_⟩
      rw [List.intercalate_cons_of_ne_nil some]
      simp
  · rintro ⟨some, arguments, rfl⟩
    induction items with
    | nil => exact absurd rfl some
    | cons item items ih =>
      obtain ⟨first, later⟩ := List.forall_mem_cons.1 arguments
      by_cases alone : items = []
      · subst alone
        obtain ⟨region, nested, free⟩ := (isArgument_iff plain separates.bareParenthesis).1 first
        simpa using Splits.last nested free
      · obtain ⟨region, nested, free⟩ := (isArgument_iff plain separates.bareComma).1 first
        rw [List.intercalate_cons_of_ne_nil alone]
        simpa using Splits.next nested free (ih alone later)

/-- A bare character behind a text is not taken for the end of a region. -/
theorem Bare.head?_append {c start close : Char} (bare : style.Bare c)
    (starts : style.regionEnd start = some close) (apart : s.head? ≠ some close) (t : List Char) :
    (s ++ c :: t).head? ≠ some close := by
  cases s with
  | nil => exact fun same => bare.2 start (starts.trans same.symm)
  | cons d s => exact apart

theorem Pieces.append {c : Char} (hp : style.Pieces ps s) (hq : style.Pieces qs (c :: t))
    (bare : style.Bare c) : style.Pieces (ps ++ qs) (s ++ c :: t) := by
  induction hp with
  | nil => exact hq
  | char outside _ ih => exact .char outside ih
  | @region start close inside s ps starts paired apart _ ih =>
    have next := bare.head?_append starts apart t
    rw [List.cons_append, List.cons_append, List.append_assoc]
    exact .region starts paired next ih

theorem Pieces.of_outside {c : Char} (h : style.Pieces ps (c :: s))
    (outside : style.regionEnd c = none) : ∃ qs, ps = .char c :: qs ∧ style.Pieces qs s := by
  cases h with
  | char _ rest => exact ⟨_, rfl, rest⟩
  | region starts =>
    rw [outside] at starts
    cases starts

theorem Pieces.of_start {start close : Char} (h : style.Pieces ps (start :: s))
    (starts : style.regionEnd start = some close) : ∃ inside rest qs,
      splitClose close s = some (inside, rest) ∧ ps = .region start inside close :: qs ∧
        style.Pieces qs rest := by
  cases h with
  | char outside =>
    rw [starts] at outside
    cases outside
  | region starts' paired apart rest =>
    obtain rfl := Option.some.inj (starts.symm.trans starts')
    exact ⟨_, _, _, paired.splitClose apart, rfl, rest⟩

/-- The pieces of a text go on behind those of a part of it that ends before a bare character. -/
theorem Pieces.exists_append {c : Char} (whole : style.Pieces qs (s ++ c :: t))
    (part : style.Pieces ps s) (bare : style.Bare c) : ∃ rs, qs = ps ++ .char c :: rs := by
  induction part generalizing qs with
  | nil =>
    obtain ⟨rs, rfl, -⟩ := whole.of_outside bare.1
    exact ⟨rs, rfl⟩
  | char outside _ ih =>
    obtain ⟨qs', rfl, pieces⟩ := whole.of_outside outside
    obtain ⟨rs, rfl⟩ := ih pieces
    exact ⟨rs, rfl⟩
  | @region start close inside s ps starts paired apart _ ih =>
    have next := bare.head?_append starts apart t
    have shape : start :: (inside ++ close :: s) ++ c :: t =
        start :: (inside ++ close :: (s ++ c :: t)) := by simp
    obtain ⟨inside', rest, qs', split, rfl, pieces⟩ := (shape ▸ whole).of_start starts
    rw [paired.splitClose next] at split
    cases split
    obtain ⟨rs, rfl⟩ := ih pieces
    exact ⟨rs, rfl⟩

theorem balanced_comma (plain : style.Plain) : style.Balanced [.char ','] where
  above us vs whole := by
    rcases List.singleton_eq_append_iff.1 whole with ⟨rfl, -⟩ | ⟨rfl, -⟩
    · exact Int.le_refl 0
    · simp [turn_comma plain]
  level := by simp [turn_comma plain]

theorem balanced_intercalate (separates : style.Separates) {items : List (List Char)}
    (h : ∀ item ∈ items, style.IsArgument item) :
    ∃ ps, style.Pieces ps ([','].intercalate items) ∧ style.Balanced ps := by
  have comma := separates.bareComma
  induction items with
  | nil => exact ⟨[], .nil, fun us vs whole => by simp [List.nil_eq_append_iff.1 whole], rfl⟩
  | cons item items ih =>
    obtain ⟨⟨ps, pieces, balanced, -⟩, later⟩ := List.forall_mem_cons.1 h
    by_cases alone : items = []
    · subst alone
      exact ⟨ps, by simpa using pieces, balanced⟩
    · obtain ⟨qs, rest, balanced'⟩ := ih later
      refine ⟨ps ++ ([.char ','] ++ qs), ?_,
        balanced.append ((balanced_comma separates.toPlain).append balanced')⟩
      rw [List.intercalate_cons_of_ne_nil alone, List.append_assoc]
      exact pieces.append (.char comma.1 rest) comma

theorem closesFirst_intercalate (separates : style.Separates) {items : List (List Char)}
    (h : ∀ item ∈ items, style.IsArgument item) :
    style.ClosesFirst ([','].intercalate items) := by
  obtain ⟨qs, whole, balanced⟩ := balanced_intercalate separates h
  refine ⟨⟨qs, whole, balanced.level⟩, fun before rest same ps part => ?_⟩
  obtain ⟨rs, rfl⟩ := (same ▸ whole).exists_append part separates.bareParenthesis
  -- Behind the parenthesis the depth is not below zero, so it is above zero before.
  have behind := balanced.above (ps ++ [.char ')']) rs (by simp)
  simp only [depth_append, depth_cons, depth_nil, turn_parenthesis separates.toPlain] at behind
  omega

/-- A call in a text is cut into the arguments that it is written with, up to the first parenthesis
that closes it. -/
structure Cuts (style : ArgumentStyle) (split : List Char → Option Arguments) (text : List Char)
    (start : Nat) (found : Arguments) : Prop where
  arguments : split (text.drop start) = some found ↔
    found.items ≠ [] ∧ (∀ item ∈ found.items, style.IsArgument item) ∧
      text.drop (start + 1) = [','].intercalate found.items ++ ')' :: found.after
  close : split (text.drop start) = some found →
    style.ClosesFirst ([','].intercalate found.items)

theorem cuts_splitArguments (separates : style.Separates) {text : List Char} {start : Nat}
    (opening : text[start]? = some '(') (found : Arguments) :
    style.Cuts (splitArguments style) text start found := by
  have shape : text.drop start = '(' :: text.drop (start + 1) := by
    obtain ⟨inside, same⟩ := List.getElem?_eq_some_iff.1 opening
    rw [List.drop_eq_getElem_cons inside, same]
  have arguments : splitArguments style (text.drop start) = some found ↔
      found.items ≠ [] ∧ (∀ item ∈ found.items, style.IsArgument item) ∧
        text.drop (start + 1) = [','].intercalate found.items ++ ')' :: found.after := by
    rw [splitArguments_eq_some_iff separates.toPlain, shape, ← splits_iff separates]
    constructor
    · rintro ⟨inside, same, splits⟩
      cases same
      exact splits
    · exact fun splits => ⟨_, rfl, splits⟩
  exact ⟨arguments, fun h => closesFirst_intercalate separates (arguments.1 h).2.1⟩

end ArgumentStyle

theorem separates_formula : Formula.argumentStyle.Separates := by
  have ends {start close : Char} (h : Formula.argumentStyle.regionEnd start = some close) :
      close = ']' ∨ close = '\'' ∨ close = '"' := by
    simp only [Formula.argumentStyle] at h
    split at h <;> cases h <;> simp
  refine ⟨⟨⟨rfl, rfl⟩, rfl, rfl⟩, ⟨rfl, fun start h => ?_⟩, ⟨rfl, fun start h => ?_⟩⟩
  all_goals exact absurd (ends h) (by decide)

theorem separates_powerQuery : PowerQuery.argumentStyle.Separates := by
  have ends {start close : Char} (h : PowerQuery.argumentStyle.regionEnd start = some close) :
      close = '"' := by
    simp only [PowerQuery.argumentStyle] at h
    split at h <;> cases h
    rfl
  refine ⟨⟨⟨rfl, rfl⟩, rfl, rfl⟩, ⟨rfl, fun start h => ?_⟩, ⟨rfl, fun start h => ?_⟩⟩
  all_goals exact absurd (ends h) (by decide)

/-- Wherever a parenthesis opens, calls of formulas and of queries are cut into just the arguments
that they are written with. -/
theorem splitArguments_exact {text : List Char} {start : Nat} (opening : text[start]? = some '(')
    (found : Arguments) :
    Formula.argumentStyle.Cuts Formula.splitArguments text start found ∧
      PowerQuery.argumentStyle.Cuts PowerQuery.splitArguments text start found :=
  ⟨ArgumentStyle.cuts_splitArguments separates_formula opening found,
    ArgumentStyle.cuts_splitArguments separates_powerQuery opening found⟩

/-- The comma in a quoted name cuts a call of a query, but none of a formula. -/
theorem splitArguments_exact_quoted :
    let text := "F('a,b', \"x)\"\"y\") + 1".toList
    let found : Arguments := ⟨["'a,b'".toList, " \"x)\"\"y\"".toList], " + 1".toList⟩
    text[1]? = some '(' ∧ Formula.splitArguments (text.drop 1) = some found ∧
      (∀ item ∈ found.items, Formula.argumentStyle.IsArgument item) ∧
      Formula.argumentStyle.ClosesFirst ([','].intercalate found.items) ∧
      ¬∀ item ∈ found.items, PowerQuery.argumentStyle.IsArgument item := by
  intro text found
  have opening : text[1]? = some '(' := by decide
  have split : Formula.splitArguments (text.drop 1) = some found := by decide
  have other : PowerQuery.splitArguments (text.drop 1) ≠ some found := by decide
  obtain ⟨formula, query⟩ := splitArguments_exact opening found
  obtain ⟨some, arguments, written⟩ := formula.arguments.1 split
  exact ⟨opening, split, arguments, formula.close split,
    fun all => other (query.arguments.2 ⟨some, all, written⟩)⟩

end SemanticLayer.Text
