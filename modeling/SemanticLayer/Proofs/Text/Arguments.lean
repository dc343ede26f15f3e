import Mathlib.Data.Option.Basic
import SemanticLayer.Text.Arguments

set_option autoImplicit false

/-!
What a piece of text does to a reader of arguments: it changes the nesting depth and the region, as
long as it neither ends the call nor cuts an argument. `splitArguments_eq_some_iff` says what the
arguments of a call are made of: in each one, nesting is closed again.
-/
namespace SemanticLayer.Text

def Arguments.pushAll (s : List Char) (found : Arguments) : Arguments :=
  s.foldr Arguments.push found

theorem Arguments.pushAll_eq (s item : List Char) (items : List (List Char))
    (after : List Char) :
    Arguments.pushAll s ⟨item :: items, after⟩ = ⟨(s ++ item) :: items, after⟩ := by
  induction s with
  | nil => rfl
  | cons c s ih =>
    change Arguments.push c (Arguments.pushAll s _) = _
    rw [ih]
    rfl

namespace ArgumentStyle

/-- The depth and the region after a character, unless it ends the call or cuts an argument. -/
def advance (style : ArgumentStyle) (place : Nat × Region) (c : Char) : Option (Nat × Region) :=
  let region := style.step place.2 c
  if region ≠ .outside then some (place.1, region)
  else if style.opens c then some (place.1 + 1, region)
  else if style.closes c then
    match place.1 with
    | 0 => none
    | depth + 1 => some (depth, region)
  else if c = ',' ∧ place.1 = 0 then none
  else some (place.1, region)

def scan (style : ArgumentStyle) (place : Nat × Region) (s : List Char) : Option (Nat × Region) :=
  s.foldlM style.advance place

theorem scan_cons (style : ArgumentStyle) (place : Nat × Region) (c : Char) (s : List Char) :
    style.scan place (c :: s) = (style.advance place c).bind fun next => style.scan next s := by
  simp only [scan, List.foldlM_cons, Option.bind_eq_bind]

theorem scan_append (style : ArgumentStyle) (place : Nat × Region) (s t : List Char) :
    style.scan place (s ++ t) = (style.scan place s).bind fun next => style.scan next t := by
  simp only [scan, List.foldlM_append, Option.bind_eq_bind]

/-- What a character does that neither ends the call nor cuts an argument. -/
inductive Advances (style : ArgumentStyle) (depth : Nat) (region : Region) (c : Char) :
    Nat × Region → Prop
  | inside (inside : style.step region c ≠ .outside) :
      Advances style depth region c (depth, style.step region c)
  | opening (outside : style.step region c = .outside) (opening : style.opens c = true) :
      Advances style depth region c (depth + 1, style.step region c)
  | closing {less : Nat} (outside : style.step region c = .outside)
      (opening : style.opens c = false) (closing : style.closes c = true)
      (deep : depth = less + 1) : Advances style depth region c (less, style.step region c)
  | other (outside : style.step region c = .outside) (opening : style.opens c = false)
      (closing : style.closes c = false) (comma : ¬(c = ',' ∧ depth = 0)) :
      Advances style depth region c (depth, style.step region c)

theorem advances_of_advance {style : ArgumentStyle} {depth : Nat} {region : Region} {c : Char}
    {next : Nat × Region} (h : style.advance (depth, region) c = some next) :
    Advances style depth region c next := by
  simp only [advance] at h
  split at h
  · rename_i inside
    cases h
    exact .inside inside
  rename_i inside
  rw [ne_eq, not_not] at inside
  split at h
  · rename_i opening
    cases h
    exact .opening inside opening
  rename_i opening
  rw [Bool.not_eq_true] at opening
  split at h
  · rename_i closing
    cases depth with
    | zero => cases h
    | succ depth =>
      cases h
      exact .closing inside opening closing rfl
  rename_i closing
  rw [Bool.not_eq_true] at closing
  split at h
  · cases h
  · rename_i comma
    cases h
    exact .other inside opening closing comma

theorem read_cons (style : ArgumentStyle) {place next : Nat × Region} {c : Char}
    (h : style.advance place c = some next) (rest : List Char) :
    style.read place.1 place.2 (c :: rest) =
      (style.read next.1 next.2 rest).map (Arguments.push c) := by
  cases advances_of_advance h with
  | inside inside => simp only [ArgumentStyle.read, if_pos inside]
  | opening outside opening => simp [ArgumentStyle.read, outside, opening]
  | closing outside opening closing deep =>
    simp [ArgumentStyle.read, outside, opening, closing, deep]
  | other outside opening closing comma =>
    simp [ArgumentStyle.read, outside, opening, closing, comma]

/-- A piece of text that is scanned becomes a part of the first argument. -/
theorem read_append (style : ArgumentStyle) {place next : Nat × Region} {s : List Char}
    (h : style.scan place s = some next) (rest : List Char) :
    style.read place.1 place.2 (s ++ rest) =
      (style.read next.1 next.2 rest).map (Arguments.pushAll s) := by
  induction s generalizing place with
  | nil =>
    cases h
    exact (congrFun Option.map_id _).symm
  | cons c s ih =>
    rw [scan_cons] at h
    obtain ⟨first, hc, hs⟩ := Option.bind_eq_some_iff.1 h
    rw [List.cons_append, style.read_cons hc, ih hs, Option.map_map]
    rfl

theorem advance_eq_none_iff (style : ArgumentStyle) {depth : Nat} {region : Region} {c : Char} :
    style.advance (depth, region) c = none ↔
      style.step region c = .outside ∧ style.opens c = false ∧ depth = 0 ∧
        (style.closes c = true ∨ c = ',') := by
  simp only [advance]
  split
  · rename_i inside
    simp [inside]
  rename_i inside
  rw [ne_eq, not_not] at inside
  split
  · rename_i opening
    simp [opening]
  rename_i opening
  rw [Bool.not_eq_true] at opening
  split
  · rename_i closing
    cases depth <;> simp [inside, opening, closing]
  · rename_i closing
    split
    · rename_i comma
      exact iff_of_true rfl ⟨inside, opening, comma.2, Or.inr comma.1⟩
    · rename_i comma
      refine iff_of_false (Option.some_ne_none _) ?_
      rintro ⟨-, -, zero, found⟩
      exact comma ⟨found.resolve_left closing, zero⟩

theorem advance_add (style : ArgumentStyle) {depth : Nat} {region : Region} {c : Char}
    {next : Nat × Region} (h : style.advance (depth, region) c = some next) (more : Nat) :
    style.advance (depth + more, region) c = some (next.1 + more, next.2) := by
  cases advances_of_advance h with
  | inside inside => simp [advance, inside]
  | opening outside opening => simp [advance, outside, opening, Nat.add_right_comm]
  | closing outside opening closing deep =>
    simp [advance, outside, opening, closing, deep, Nat.add_right_comm]
  | other outside opening closing comma =>
    simpa [advance, outside, opening, closing] using
      fun found zero => absurd (And.intro found zero) comma

theorem scan_add (style : ArgumentStyle) {place next : Nat × Region} {s : List Char}
    (h : style.scan place s = some next) (more : Nat) :
    style.scan (place.1 + more, place.2) s = some (next.1 + more, next.2) := by
  induction s generalizing place with
  | nil =>
    cases h
    rfl
  | cons c s ih =>
    rw [scan_cons] at h ⊢
    obtain ⟨first, step, rest⟩ := Option.bind_eq_some_iff.1 h
    rw [style.advance_add step, Option.bind_some]
    exact ih rest

/-- Styles for which a comma only separates and a parenthesis only closes. -/
structure Plain (style : ArgumentStyle) : Prop where
  comma : style.opens ',' = false ∧ style.closes ',' = false
  parenthesis : style.opens ')' = false ∧ style.closes ')' = true

/-- The arguments behind the opening parenthesis of a call, and the text after the call. The
character that ends an argument stands outside of skipped regions. -/
inductive Splits (style : ArgumentStyle) : List Char → List (List Char) → List Char → Prop where
  | last {item after : List Char} {region : Region}
      (nested : style.scan (0, .outside) item = some (0, region))
      (free : style.step region ')' = .outside) : Splits style (item ++ ')' :: after) [item] after
  | next {item tail after : List Char} {items : List (List Char)} {region : Region}
      (nested : style.scan (0, .outside) item = some (0, region))
      (free : style.step region ',' = .outside) (rest : Splits style tail items after) :
      Splits style (item ++ ',' :: tail) (item :: items) after

/-- The first argument goes on until the reader cannot advance at depth zero. -/
theorem read_eq_some {style : ArgumentStyle} {depth : Nat} {region : Region} {s : List Char}
    {found : Arguments} (h : style.read depth region s = some found) :
    ∃ item items last, found.items = item :: items ∧
      style.scan (depth, region) item = some (0, last) ∧
      (items = [] ∧ s = item ++ ')' :: found.after ∧ style.step last ')' = .outside ∨
        ∃ tail, s = item ++ ',' :: tail ∧ style.step last ',' = .outside ∧
          style.read 0 .outside tail = some ⟨items, found.after⟩) := by
  induction s generalizing depth region found with
  | nil => cases h
  | cons c s ih =>
    cases step : style.advance (depth, region) c with
    | some next =>
      rw [style.read_cons step] at h
      obtain ⟨inner, read, rfl⟩ := Option.map_eq_some_iff.1 h
      obtain ⟨item, items, last, shape, scanned, ends⟩ := ih read
      refine ⟨c :: item, items, last, ?_, ?_, ?_⟩
      · simp [Arguments.push, shape]
      · rw [scan_cons, step]
        exact scanned
      · have after : (inner.push c).after = inner.after := by simp [Arguments.push, shape]
        rw [after]
        rcases ends with ⟨none, same, free⟩ | ⟨tail, same, free, rest⟩
        · exact Or.inl ⟨none, by rw [same]; rfl, free⟩
        · exact Or.inr ⟨tail, by rw [same]; rfl, free, rest⟩
    | none =>
      obtain ⟨outside, opens, rfl, closing⟩ := style.advance_eq_none_iff.1 step
      rw [ArgumentStyle.read] at h
      simp only [outside, opens, ne_eq, not_true_eq_false, Bool.false_eq_true, if_false] at h
      by_cases closes : style.closes c = true
      · rw [if_pos closes] at h
        split at h
        · rename_i parenthesis
          cases h
          subst parenthesis
          exact ⟨[], [], region, rfl, rfl, Or.inl ⟨rfl, rfl, outside⟩⟩
        · cases h
      · have comma : c = ',' := closing.resolve_left closes
        rw [if_neg closes, if_pos ⟨comma, trivial⟩] at h
        obtain ⟨inner, read, rfl⟩ := Option.map_eq_some_iff.1 h
        subst comma
        exact ⟨[], inner.items, region, rfl, rfl, Or.inr ⟨s, rfl, outside, read⟩⟩

theorem splits_of_read {style : ArgumentStyle} {s : List Char} {found : Arguments}
    (h : style.read 0 .outside s = some found) : style.Splits s found.items found.after := by
  obtain ⟨items, after⟩ := found
  induction items generalizing s with
  | nil =>
    obtain ⟨item, items, last, shape, -⟩ := read_eq_some h
    cases shape
  | cons item items ih =>
    obtain ⟨item', items', last, shape, scanned, ends⟩ := read_eq_some h
    cases shape
    rcases ends with ⟨rfl, rfl, free⟩ | ⟨tail, rfl, free, rest⟩
    · exact .last scanned free
    · exact .next scanned free (ih rest)

theorem Splits.exists_append {style : ArgumentStyle} {s after : List Char}
    {items : List (List Char)} (h : style.Splits s items after) :
    ∃ before, s = before ++ ')' :: after := by
  induction h with
  | @last item after region _ _ => exact ⟨item, rfl⟩
  | @next item tail after items region _ _ _ ih =>
    obtain ⟨before, rfl⟩ := ih
    exact ⟨item ++ ',' :: before, by simp⟩

theorem Splits.read {style : ArgumentStyle} (plain : style.Plain) {s after : List Char}
    {items : List (List Char)} (h : style.Splits s items after) :
    style.read 0 .outside s = some ⟨items, after⟩ := by
  induction h with
  | @last item after region nested free =>
    have closed : style.read 0 region (')' :: after) = some ⟨[[]], after⟩ := by
      simp [ArgumentStyle.read, free, plain.parenthesis]
    rw [style.read_append nested, closed, Option.map_some, Arguments.pushAll_eq, List.append_nil]
  | @next item tail after items region nested free _ ih =>
    have cut : style.read 0 region (',' :: tail) = some ⟨[] :: items, after⟩ := by
      simp [ArgumentStyle.read, free, plain.comma, ih]
    rw [style.read_append nested, cut, Option.map_some, Arguments.pushAll_eq, List.append_nil]

end ArgumentStyle

theorem splitArguments_eq_some_iff {style : ArgumentStyle} (plain : style.Plain) {s : List Char}
    {found : Arguments} :
    splitArguments style s = some found ↔
      ∃ inside, s = '(' :: inside ∧ style.Splits inside found.items found.after := by
  constructor
  · intro h
    unfold splitArguments at h
    split at h
    · exact ⟨_, rfl, ArgumentStyle.splits_of_read h⟩
    · cases h
  · rintro ⟨inside, rfl, splits⟩
    exact splits.read plain

end SemanticLayer.Text
