import SemanticLayer.Proofs.Formula.Grammar

set_option autoImplicit false

namespace SemanticLayer.Formula

open Text (Blank Paired Region Tight isBlank squeeze)

theorem unescaped_squeeze {close : Char} (visible : isBlank close = false) (s : List Char) :
    unescaped close (squeeze s) = squeeze (unescaped close s) :=
  Text.replaceAll_squeeze visible s

theorem betweenQuotes?_eq_some_iff {s inner : List Char} :
    betweenQuotes? s = some inner ↔ s = '\'' :: (inner ++ ['\'']) := by
  constructor
  · intro h
    unfold betweenQuotes? at h
    split at h
    · split at h
      · rename_i last
        cases h
        obtain ⟨inner, rfl⟩ := List.getLast?_eq_some_iff.1 last
        simp
      · cases h
    · cases h
  · rintro rfl
    simp [betweenQuotes?]

theorem unquoteTable_squeeze (s : List Char) :
    unquoteTable (squeeze s) = squeeze (unquoteTable s) := by
  rw [unquoteTable, unquoteTable, Text.trim_squeeze]
  cases found : betweenQuotes? (Text.trim s) with
  | some inner =>
    rw [betweenQuotes?_eq_some_iff] at found
    have quoted : betweenQuotes? (squeeze (Text.trim s)) = some (squeeze inner) := by
      rw [betweenQuotes?_eq_some_iff, found, Text.squeeze_visible rfl,
        Text.squeeze_append_cons rfl, Text.squeeze_nil]
    rw [quoted]
    exact Text.replaceAll_squeeze rfl inner
  | none =>
    have quoted : betweenQuotes? (squeeze (Text.trim s)) = none := by
      rw [Option.eq_none_iff_forall_ne_some] at found ⊢
      intro inner same
      rw [betweenQuotes?_eq_some_iff] at same
      obtain ⟨u, v, shape, left, right⟩ :=
        Text.exists_of_squeeze (c := '\'') (u := '\'' :: inner) rfl same
      obtain ⟨u', v', shape', left', -⟩ := Text.exists_of_squeeze (c := '\'') (u := []) rfl left
      apply found v'
      rw [betweenQuotes?_eq_some_iff, shape, shape', Text.squeeze_eq_nil_iff.1 left',
        Text.squeeze_eq_nil_iff.1 right]
      rfl
    rw [quoted]

theorem columnRef_squeeze {s table column : List Char} (h : columnRef s = some (table, column)) :
    columnRef (squeeze s) = some (squeeze table, squeeze column) := by
  obtain ⟨named, nonempty, free, found⟩ := columnRef_eq_some_iff.1 h
  obtain ⟨inside, paired, -, shape, rfl⟩ := bracketName_eq_some_iff.1 found
  have whole : Text.trim s =
      (Text.trim s).takeWhile (· ≠ '[') ++ '[' :: (inside ++ [']']) := by
    rw [← shape, List.takeWhile_append_dropWhile]
  have absent : '[' ∉ (Text.trim s).takeWhile (· ≠ '[') := by
    intro among
    have other := List.all_eq_true.1 List.all_takeWhile _ among
    simp at other
  generalize (Text.trim s).takeWhile (· ≠ '[') = before at whole absent named
  have single : squeeze (Text.trim s) = squeeze before ++ '[' :: (squeeze inside ++ [']']) := by
    rw [whole, Text.squeeze_append_cons rfl, Text.squeeze_append_cons rfl, Text.squeeze_nil]
  have still : '[' ∉ squeeze before := by rwa [Text.mem_squeeze rfl]
  obtain ⟨taken, dropped⟩ := Text.takeWhile_of_notMem still (squeeze inside ++ [']'])
  refine columnRef_eq_some_iff.2 ⟨?_, ?_, ?_, ?_⟩
  · rw [Text.trim_squeeze, single, taken, unquoteTable_squeeze, named]
  · rwa [ne_eq, Text.squeeze_eq_nil_iff]
  · intro c among
    by_cases blank : isBlank c = true
    · rw [← Bool.not_eq_true]
      intro nesting
      simp only [isNesting, Bool.or_eq_true, decide_eq_true_eq] at nesting
      rcases nesting with ((rfl | rfl) | rfl) | rfl
      all_goals cases blank
    · exact free c ((Text.mem_squeeze (by simpa using blank) table).1 among)
  · rw [Text.trim_squeeze, single, dropped]
    refine bracketName_eq_some_iff.2 ⟨squeeze inside, paired.squeeze rfl, by simp, rfl, ?_⟩
    exact (unescaped_squeeze rfl inside).symm

def Reference.Spaced : Reference → Prop
  | .measure name => squeeze name.toList = name.toList
  | .aggregate call => squeeze call.table.toList = call.table.toList ∧
    ∀ column ∈ call.column, squeeze column.toList = column.toList

instance : (target : Reference) → Decidable target.Spaced
  | .measure _ => inferInstanceAs (Decidable (_ = _))
  | .aggregate _ => inferInstanceAs (Decidable (_ ∧ _))

theorem call?_squeeze {f : AggregateFunction} {body : List Char} {call : AggregateCall}
    (h : f.call? body = some call) (spaced : (Reference.aggregate call).Spaced) :
    f.call? (squeeze body) = some call := by
  obtain ⟨nested, rest⟩ := call?_eq_some_iff.1 h
  rw [← Text.mem_squeeze (c := '(') rfl] at nested
  refine call?_eq_some_iff.2 ⟨nested, ?_⟩
  rcases rest with ⟨rows, opening, closing, named, rfl⟩ |
    ⟨other, opening, closing, table, column, found, rfl⟩
  · have same : unquoteTable (squeeze body) = unquoteTable body := by
      rw [unquoteTable_squeeze]
      simpa using spaced.1
    rw [← Text.mem_squeeze (c := '[') rfl] at opening
    rw [← Text.mem_squeeze (c := ']') rfl] at closing
    exact Or.inl ⟨rows, opening, closing, by rwa [same], by rw [same]⟩
  · have table' : squeeze table = table := by simpa using spaced.1
    have column' : squeeze column = column := by simpa using spaced.2
    have read := columnRef_squeeze found
    rw [table', column'] at read
    rw [← Text.count_squeeze (c := '[') rfl] at opening
    rw [← Text.count_squeeze (c := ']') rfl] at closing
    exact Or.inr ⟨other, opening, closing, table, column, read, rfl⟩

theorem Refers.squeeze {target : Reference} {text : List Char} (h : Refers target text)
    (spaced : target.Spaced) : Refers target (squeeze text) := by
  cases h with
  | @measure inside paired =>
    have same : unescaped ']' (Text.squeeze inside) = unescaped ']' inside := by
      rw [unescaped_squeeze rfl]
      simpa [Reference.Spaced] using spaced
    rw [Text.squeeze_visible rfl, Text.squeeze_append_cons rfl, Text.squeeze_nil, ← same]
    exact .measure (paired.squeeze rfl)
  | @aggregate f keyword body call named closed called =>
    have letters := Text.isAlpha_of_map_toLower named f.keyword_letters
    have word : Text.squeeze keyword = keyword :=
      Text.squeeze_of_visible fun c hc => Text.isBlank_of_isAlpha (letters c hc)
    rw [Text.squeeze_append_cons rfl, Text.squeeze_append_cons rfl, Text.squeeze_nil, word]
    refine .aggregate named ?_ (call?_squeeze called spaced)
    rwa [Text.mem_squeeze rfl]

/-- Places that the reader of arguments comes to: no region ends with a blank. -/
def Sane : Region → Prop
  | .outside => True
  | .inside close | .leaving close => isBlank close = false

theorem sane_enter (c : Char) : Sane (argumentStyle.enter c) := by
  unfold Text.ArgumentStyle.enter
  split
  · rename_i region
    exact (regionEnd_visible region).2.1
  · trivial

theorem sane_step {region : Region} (h : Sane region) (c : Char) :
    Sane (argumentStyle.step region c) := by
  unfold Text.ArgumentStyle.step
  split
  · exact sane_enter c
  · split
    · exact h
    · exact h
  · split
    · exact h
    · exact sane_enter c

theorem advance_region {style : Text.ArgumentStyle} {place next : Nat × Region} {c : Char}
    (h : style.advance place c = some next) : next.2 = style.step place.2 c := by
  cases Text.ArgumentStyle.advances_of_advance h <;> rfl

def settle : Region → Region
  | .inside close => .inside close
  | _ => .outside

theorem advance_blank {c : Char} (blank : isBlank c = true) {region : Region} (sane : Sane region)
    (depth : Nat) : argumentStyle.advance (depth, region) c = some (depth, settle region) := by
  have other {d : Char} (visible : isBlank d = false) : c ≠ d := isBlank_ne blank visible
  have outside : argumentStyle.advance (depth, .outside) c = some (depth, .outside) :=
    advance_plain (isPlain_of_isBlank blank) (Or.inl rfl) fun comma => absurd comma (other rfl)
  cases region with
  | outside => exact outside
  | inside close =>
    simp [Text.ArgumentStyle.advance, Text.ArgumentStyle.step, other sane, settle]
  | leaving close =>
    have step : argumentStyle.step (.leaving close) c = argumentStyle.step .outside c :=
      if_neg (other sane)
    change _ = some (depth, Region.outside)
    rw [← outside]
    simp only [Text.ArgumentStyle.advance, step]

theorem scan_blank {c : Char} (blank : isBlank c = true) {region : Region} (sane : Sane region)
    (depth : Nat) (s : List Char) :
    argumentStyle.scan (depth, region) (c :: s) = argumentStyle.scan (depth, settle region) s := by
  rw [Text.ArgumentStyle.scan_cons, advance_blank blank sane]
  rfl

theorem sane_settle {region : Region} (sane : Sane region) : Sane (settle region) := by
  cases region with
  | outside => trivial
  | inside _ => exact sane
  | leaving _ => trivial

theorem settle_settle (region : Region) : settle (settle region) = settle region := by
  cases region <;> rfl

theorem scan_squeeze {region : Region} (sane : Sane region) (depth : Nat) (s : List Char) :
    argumentStyle.scan (depth, region) (squeeze s) = argumentStyle.scan (depth, region) s := by
  fun_induction squeeze s generalizing depth region with
  | case1 => rfl
  | case2 c s blank more ih =>
    obtain ⟨d, t, rfl, next⟩ : ∃ d t, s = d :: t ∧ isBlank d = true := by
      cases s with
      | nil => simp at more
      | cons d t => exact ⟨d, t, rfl, by simpa using more⟩
    rw [ih sane, scan_blank blank sane, scan_blank next sane, scan_blank next (sane_settle sane),
      settle_settle]
  | case3 c s blank _ ih =>
    rw [scan_blank blank sane, scan_blank rfl sane, ih (sane_settle sane)]
  | case4 c s _ ih =>
    rw [Text.ArgumentStyle.scan_cons, Text.ArgumentStyle.scan_cons]
    cases step : argumentStyle.advance (depth, region) c with
    | none => rfl
    | some next =>
      have stays : Sane next.2 := by
        rw [advance_region step]
        exact sane_step sane c
      exact ih stays next.1

theorem Divides.squeeze {above below text : List Char} (h : Divides above below text) :
    Divides (Text.squeeze above) (Text.squeeze below) (Text.squeeze text) := by
  obtain ⟨named, nested, free, nested', free'⟩ := h
  have word := Text.squeeze_of_visible fun c hc => Text.isBlank_of_isAlpha (named.letters c hc)
  have outside : Sane .outside := trivial
  rw [← scan_squeeze outside] at nested nested'
  rw [Text.squeeze_append_cons rfl, Text.squeeze_append_cons rfl, Text.squeeze_append_cons rfl,
    Text.squeeze_nil, word]
  exact .intro named nested free nested' free'

/-- Texts that are the same up to their blanks. -/
def Alike (s t : List Char) : Prop := squeeze s = squeeze t

theorem visible_of_isNumber {s : List Char} (h : isNumber s = true) :
    ∀ c ∈ s, isBlank c = false := by
  have numeral := numeral_of_isNumber h
  intro c hc
  have known : c ∈ unsigned s ∨ c = '+' ∨ c = '-' := by
    unfold unsigned
    split
    · exact (List.mem_cons.1 hc).symm.imp_right Or.inl
    · exact (List.mem_cons.1 hc).symm.imp_right Or.inr
    · exact Or.inl hc
  rcases known with digit | rfl | rfl
  · exact Arithmetic.isBlank_of_isNumeralChar (numeral c digit)
  · rfl
  · rfl

theorem isNumber_of_alike {s t : List Char} (h : Alike s t) (number : isNumber s = true) :
    isNumber t = true := by
  have visible := visible_of_isNumber number
  have same : squeeze t = s := by rw [← h, Text.squeeze_of_visible visible]
  rwa [Text.eq_of_squeeze same visible]

theorem visible_referenceStart : ∀ c ∈ referenceStart, isBlank c = false := by
  have all : referenceStart.all (fun c => !isBlank c) = true := rfl
  intro c hc
  simpa using List.all_eq_true.1 all c hc

theorem isMeasureReference_of_alike {s t : List Char} (h : Alike s t)
    (single : isMeasureReference s = true) : isMeasureReference t = true := by
  have squeezed (u : List Char) : isMeasureReference (squeeze u) = isMeasureReference u := by
    have start : referenceStart.isPrefixOf (squeeze u) = referenceStart.isPrefixOf u := by
      rw [Bool.eq_iff_iff, List.isPrefixOf_iff_prefix, List.isPrefixOf_iff_prefix]
      exact Text.prefix_squeeze visible_referenceStart u
    have count : Text.countOf [']', '.', '['] 0 (squeeze u) = Text.countOf [']', '.', '['] 0 u :=
      Text.countOf_squeeze (by simp [isBlank]) u
    simp only [isMeasureReference, start, count, Text.getLast?_squeeze (c := ']') rfl]
  rw [← squeezed, ← h, squeezed]
  exact single

theorem isWrapped_iff {s : List Char} :
    isWrapped s = true ↔
      ∃ inside items, s = '(' :: inside ∧ argumentStyle.Splits inside items [] := by
  have known (found : Text.Arguments) : splitArguments s = some found ↔
      ∃ inside, s = '(' :: inside ∧ argumentStyle.Splits inside found.items found.after :=
    Text.splitArguments_eq_some_iff argumentStyle_plain
  unfold isWrapped
  constructor
  · intro h
    split at h
    · rename_i found split
      obtain ⟨inside, shape, splits⟩ := (known found).1 split
      rw [List.isEmpty_iff.1 h] at splits
      exact ⟨inside, found.items, shape, splits⟩
    · cases h
  · rintro ⟨inside, items, shape, splits⟩
    rw [(known ⟨items, []⟩).2 ⟨inside, shape, splits⟩]
    rfl

theorem splits_of_alike {s t after : List Char} {items : List (List Char)} (h : Alike s t)
    (splits : argumentStyle.Splits s items after) :
    ∃ items' after', argumentStyle.Splits t items' after' ∧ Alike after after' := by
  have nested {item item' : List Char} {region : Region} (same : squeeze item' = squeeze item)
      (h : argumentStyle.scan (0, .outside) item = some (0, region)) :
      argumentStyle.scan (0, .outside) item' = some (0, region) := by
    have sane : Sane .outside := trivial
    rwa [← scan_squeeze sane, same, scan_squeeze sane]
  induction splits generalizing t with
  | @last item after region inner free =>
    rw [Alike, Text.squeeze_append_cons rfl] at h
    obtain ⟨item', after', rfl, left, right⟩ := Text.exists_of_squeeze (c := ')') rfl h.symm
    exact ⟨[item'], after', .last (nested left inner) free, right.symm⟩
  | @next item tail after items region inner free _ ih =>
    rw [Alike, Text.squeeze_append_cons rfl] at h
    obtain ⟨item', tail', rfl, left, right⟩ := Text.exists_of_squeeze (c := ',') rfl h.symm
    obtain ⟨items', after', rest, same⟩ := ih right.symm
    exact ⟨item' :: items', after', .next (nested left inner) free rest, same⟩

theorem isWrapped_of_alike {s t : List Char} (h : Alike s t) (wrapped : isWrapped s = true) :
    isWrapped t = true := by
  obtain ⟨inside, items, rfl, splits⟩ := isWrapped_iff.1 wrapped
  rw [Alike, Text.squeeze_visible rfl] at h
  obtain ⟨u, v, rfl, left, right⟩ := Text.exists_of_squeeze (c := '(') (u := []) rfl h.symm
  obtain ⟨items', after, rest, same⟩ := splits_of_alike right.symm splits
  rw [Text.squeeze_eq_nil_iff.1 left]
  have none : after = [] := Text.squeeze_eq_nil_iff.1 (same.symm.trans Text.squeeze_nil)
  exact isWrapped_iff.2 ⟨v, items', rfl, none ▸ rest⟩

theorem parenthesize_alike {s t : List Char} (h : Alike s t) :
    Alike (parenthesize s) (parenthesize t) := by
  have trimmed : Alike (Text.trim s) (Text.trim t) := by
    rw [Alike, ← Text.trim_squeeze, h, Text.trim_squeeze]
  have bare {u v : List Char} (h : Alike u v)
      (known : (isMeasureReference u || isNumber u || isWrapped u) = true) :
      (isMeasureReference v || isNumber v || isWrapped v) = true := by
    rw [Bool.or_eq_true, Bool.or_eq_true] at known ⊢
    exact known.imp (Or.imp (isMeasureReference_of_alike h) (isNumber_of_alike h))
      (isWrapped_of_alike h)
  have same : (isMeasureReference (Text.trim s) || isNumber (Text.trim s) ||
      isWrapped (Text.trim s)) = (isMeasureReference (Text.trim t) || isNumber (Text.trim t) ||
      isWrapped (Text.trim t)) :=
    Bool.eq_iff_iff.2 ⟨bare trimmed, bare trimmed.symm⟩
  rw [parenthesize, parenthesize, same]
  split
  · exact trimmed
  · rw [Alike, List.cons_append, List.cons_append, Text.squeeze_visible rfl,
      Text.squeeze_visible rfl, Text.squeeze_append_cons rfl, Text.squeeze_append_cons rfl, trimmed]

/-- A formula becomes the same with single spaces, blanks aside. What is known of a reference must
be known of it with single spaces too. -/
theorem Reads.squeeze {answers : Reference → List Char → String → Prop} {s o : List Char}
    (h : Reads answers s o)
    (spaced : ∀ target text name, answers target text name →
      target.Spaced ∧ answers target (Text.squeeze text) name) :
    ∃ o', Reads answers (Text.squeeze s) o' ∧ Alike o o' := by
  induction h with
  | nil => exact ⟨[], .nil, rfl⟩
  | @char c s o arithmetic rest ih =>
    obtain ⟨o', read, alike⟩ := ih
    by_cases blank : isBlank c = true
    · by_cases more : s.head?.any isBlank = true
      · refine ⟨o', ?_, ?_⟩
        · rwa [Text.squeeze, if_pos blank, if_pos more]
        · rw [rest.head_blank] at more
          rwa [Alike, Text.squeeze, if_pos blank, if_pos more]
      · refine ⟨' ' :: o', ?_, ?_⟩
        · rw [Text.squeeze, if_pos blank, if_neg more]
          exact .char rfl read
        · have last : ¬o.head?.any isBlank = true := by rwa [← rest.head_blank]
          have last' : ¬o'.head?.any isBlank = true := by
            rwa [← read.head_blank, Text.head_blank_squeeze]
          have space : isBlank ' ' = true := rfl
          rw [Alike, Text.squeeze, Text.squeeze, if_pos blank, if_neg last, if_pos space,
            if_neg last', alike]
    · have visible : isBlank c = false := by simpa using blank
      refine ⟨c :: o', ?_, ?_⟩
      · rw [Text.squeeze_visible visible]
        exact .char arithmetic read
      · rw [Alike, Text.squeeze_visible visible, Text.squeeze_visible visible, alike]
  | @reference target name text s o refers answered _ ih =>
    obtain ⟨o', read, alike⟩ := ih
    obtain ⟨single, still⟩ := spaced _ _ _ answered
    refine ⟨(measureReference name).toList ++ o', ?_, ?_⟩
    · rw [Text.squeeze_tight_append refers.tight]
      exact .reference (refers.squeeze single) still read
    · rw [Alike, Text.squeeze_tight_append (Arithmetic.tight_metric name),
        Text.squeeze_tight_append (Arithmetic.tight_metric name), alike]
  | @ratio above below text upper lower s o divides full _ full' _ _ ihUpper ihLower ih =>
    obtain ⟨upper', readUpper, alikeUpper⟩ := ihUpper
    obtain ⟨lower', readLower, alikeLower⟩ := ihLower
    obtain ⟨o', read, alike⟩ := ih
    rw [← Text.trim_squeeze] at readUpper readLower
    refine ⟨parenthesize upper' ++ [' ', '/', ' '] ++ parenthesize lower' ++ o', ?_, ?_⟩
    · rw [Text.squeeze_tight_append divides.tight]
      refine .ratio divides.squeeze ?_ readUpper ?_ readLower read
      · rwa [Text.trim_squeeze, ne_eq, Text.squeeze_eq_nil_iff]
      · rwa [Text.trim_squeeze, ne_eq, Text.squeeze_eq_nil_iff]
    · have parts (u v p : List Char) :
          Text.squeeze (parenthesize u ++ [' ', '/', ' '] ++ parenthesize v ++ p) =
            Text.squeeze (parenthesize u) ++ (Text.squeeze [' ', '/', ' '] ++
              Text.squeeze (parenthesize v) ++ Text.squeeze p) := by
        rw [List.append_assoc, List.append_assoc, Text.squeeze_tight_append (tight_parenthesize u),
          ← List.append_assoc, Text.squeeze_append_tight (tight_parenthesize v)]
      rw [Alike, parts, parts, parenthesize_alike alikeUpper, parenthesize_alike alikeLower, alike]

end SemanticLayer.Formula
