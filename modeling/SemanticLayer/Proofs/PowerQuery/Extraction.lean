import SemanticLayer.PowerQuery.Source
import SemanticLayer.Proofs.PowerQuery.Literal
import SemanticLayer.Proofs.Text.Arguments
import SemanticLayer.Proofs.Text.Blank

set_option autoImplicit false

/-!
The SQL that an expression holds.

It is always the text of the first literal at the place where a query is looked for, and
`extract_query` says when this is the whole query: nothing may stand behind the literal. What does
stand there, such as an operator and a parameter, is dropped without a word.
-/
namespace SemanticLayer.PowerQuery

open Text (Blank isBlank)

theorem argumentStyle_plain : argumentStyle.Plain := ⟨⟨rfl, rfl⟩, rfl, rfl⟩

/-- The arguments of the first call of a function: its name, the next opening parenthesis, and what
is nested in it. -/
def Calls (name s : List Char) (arguments : List (List Char)) : Prop :=
  ∃ before between inside after, s = before ++ (name ++ (between ++ '(' :: inside)) ∧
    ¬name <:+: before ∧ '(' ∉ between ∧ argumentStyle.Splits inside arguments after

theorem callArguments_eq_some_iff {name : String} {c : Char} {piece s : List Char}
    {arguments : List (List Char)} (named : name.toList = c :: piece) (once : c ∉ piece) :
    callArguments name s = some arguments ↔ Calls name.toList s arguments := by
  unfold callArguments
  simp only [Option.bind_eq_bind, Option.bind_eq_some_iff]
  constructor
  · rintro ⟨⟨before, after⟩, found, ⟨items, rest⟩, split, same⟩
    cases same
    rw [named, Text.splitFirst_eq_some_iff once] at found
    obtain ⟨shape, first⟩ := found
    obtain ⟨inside, opened, splits⟩ := (Text.splitArguments_eq_some_iff argumentStyle_plain).1 split
    refine ⟨before, after.takeWhile (· ≠ '('), inside, rest, ?_, ?_, ?_, splits⟩
    · rw [← opened, List.takeWhile_append_dropWhile, named]
      exact shape
    · rwa [named]
    · intro among
      have other := List.all_eq_true.1 List.all_takeWhile _ among
      simp at other
  · rintro ⟨before, between, inside, rest, rfl, first, free, splits⟩
    refine ⟨(before, between ++ '(' :: inside), ?_, ⟨arguments, rest⟩, ?_, rfl⟩
    · rw [named, Text.splitFirst_eq_some_iff once]
      rw [named] at first
      exact ⟨rfl, first⟩
    · rw [(Text.takeWhile_of_notMem free inside).2]
      exact (Text.splitArguments_eq_some_iff argumentStyle_plain).2 ⟨inside, rfl, splits⟩

/-- The place of the query of a native query: the second argument, trimmed. -/
def NativeArgument (s argument : List Char) : Prop :=
  ∃ arguments query, Calls "Value.NativeQuery".toList s arguments ∧
    arguments[1]? = some query ∧ argument = Text.trim query

/-- A word, an equals sign and blanks around it, before a value. -/
def Introduces (word s value : List Char) : Prop :=
  ∃ b b', Blank b ∧ Blank b' ∧ s = word ++ (b ++ '=' :: (b' ++ value)) ∧
    ∀ c ∈ value.head?, isBlank c = false

theorem afterOption?_eq_some_iff {word s value : List Char} :
    afterOption? word s = some value ↔ Introduces word s value := by
  unfold afterOption?
  constructor
  · intro found
    split at found
    · rename_i start
      obtain ⟨rest, rfl⟩ := List.isPrefixOf_iff_prefix.1 start
      rw [List.drop_left] at found
      split at found
      · rename_i r marked
        cases found
        obtain ⟨b, blank, shape, -⟩ := Text.trimStart_eq_iff.1 marked
        obtain ⟨b', blank', shape', visible⟩ := Text.trimStart_eq_iff.1 (rfl : Text.trimStart r = _)
        exact ⟨b, b', blank, blank', by rw [shape, ← shape'], visible⟩
      · cases found
    · cases found
  · rintro ⟨b, b', blank, blank', rfl, visible⟩
    have start : word.isPrefixOf (word ++ (b ++ '=' :: (b' ++ value))) = true :=
      List.isPrefixOf_iff_prefix.2 (List.prefix_append _ _)
    have marked : Text.trimStart (b ++ '=' :: (b' ++ value)) = '=' :: (b' ++ value) := by
      apply Text.trimStart_eq_iff.2
      exact ⟨b, blank, rfl, by simp; decide⟩
    have valued : Text.trimStart (b' ++ value) = value :=
      Text.trimStart_eq_iff.2 ⟨b', blank', rfl, visible⟩
    rw [if_pos start, List.drop_left, marked]
    exact congrArg some valued

theorem firstMatch_eq_some_iff {α : Type} {read : List Char → Option α} {s : List Char} {a : α} :
    firstMatch read s = some a ↔
      ∃ before place, s = before ++ place ∧ read place = some a ∧
        ∀ t, t <:+ before → t ≠ [] → read (t ++ place) = none := by
  have alone (place t : List Char) (suffix : t <:+ []) (nonempty : t ≠ []) :
      read (t ++ place) = none := absurd (List.suffix_nil.1 suffix) nonempty
  constructor
  · intro found
    induction s with
    | nil => exact ⟨[], [], rfl, found, alone []⟩
    | cons c s ih =>
      rw [firstMatch] at found
      cases here : read (c :: s) with
      | some b =>
        rw [here] at found
        cases found
        exact ⟨[], c :: s, rfl, here, alone (c :: s)⟩
      | none =>
        rw [here] at found
        obtain ⟨before, place, rfl, answer, first⟩ := ih found
        refine ⟨c :: before, place, rfl, answer, ?_⟩
        intro t suffix nonempty
        rcases List.suffix_cons_iff.1 suffix with rfl | inner
        · exact here
        · exact first t inner nonempty
  · rintro ⟨before, place, rfl, answer, first⟩
    induction before with
    | nil => cases place <;> simp [firstMatch, answer]
    | cons c before ih =>
      have here : read (c :: (before ++ place)) = none :=
        first _ List.suffix_rfl (List.cons_ne_nil c before)
      rw [List.cons_append, firstMatch, here]
      exact ih fun t suffix => first t (suffix.trans (List.suffix_cons c before))

/-- The value behind the first place where a word introduces one. -/
def FirstValue (word s value : List Char) : Prop :=
  ∃ before place, s = before ++ place ∧ Introduces word place value ∧
    ∀ t, t <:+ before → t ≠ [] → ∀ other, ¬Introduces word (t ++ place) other

theorem firstMatch_afterOption?_eq_some_iff {word s value : List Char} :
    firstMatch (afterOption? word) s = some value ↔ FirstValue word s value := by
  simp only [firstMatch_eq_some_iff, FirstValue, afterOption?_eq_some_iff,
    Option.eq_none_iff_forall_ne_some, ne_eq]

/-- The place of the query of a database: the text behind the word `Query` and an equals sign in
the third argument. -/
def OptionText (s value : List Char) : Prop :=
  ∃ arguments options, Calls "Sql.Database".toList s arguments ∧
    arguments[2]? = some options ∧ FirstValue "Query".toList options value

/-- A field of a record ends: a comma or the bracket of the record follows, outside of literals and
of everything that is nested in the field. -/
def EndsField (field after : List Char) : Prop :=
  ∃ region mark rest, argumentStyle.scan (0, .outside) field = some (0, region) ∧
    argumentStyle.step region mark = .outside ∧ (mark = ',' ∨ mark = ']') ∧ after = mark :: rest

/-- A text that starts with a literal, what the literal denotes, and the text behind it. -/
def StartsWithLiteral (s text rest : List Char) : Prop :=
  ∃ literal, IsLiteral literal text ∧ rest.head? ≠ some '"' ∧ s = literal ++ rest

theorem StartsWithLiteral.unique {s text rest text' rest' : List Char}
    (h : StartsWithLiteral s text rest) (h' : StartsWithLiteral s text' rest') :
    text = text' ∧ rest = rest' := by
  have first := stringLiteral_eq_some_iff.2 h
  rw [stringLiteral_eq_some_iff.2 h'] at first
  cases first
  exact ⟨rfl, rfl⟩

theorem IsLiteral.starts {s text : List Char} (h : IsLiteral s text) :
    StartsWithLiteral s text [] :=
  ⟨s, h, by simp, (List.append_nil s).symm⟩

theorem isLiteral_iff {s text rest : List Char} (h : StartsWithLiteral s text rest) :
    IsLiteral s text ↔ rest = [] := by
  constructor
  · intro whole
    exact (h.unique whole.starts).2
  · rintro rfl
    obtain ⟨literal, whole, -, rfl⟩ := h
    rwa [List.append_nil]

theorem IsLiteral.trimEnd_append {literal text b : List Char} (h : IsLiteral literal text)
    (blank : Blank b) : Text.trimEnd (literal ++ b) = literal := by
  obtain ⟨raw, -, -, rfl⟩ := h
  rw [Text.trimEnd_append blank, ← List.cons_append, Text.trimEnd_concat (by decide)]

theorem isLiteral_trimEnd_iff {field after text rest : List Char}
    (h : StartsWithLiteral (field ++ after) text rest) (ends : after.head? ≠ some '"') :
    IsLiteral (Text.trimEnd field) text ↔ ∃ b, Blank b ∧ rest = b ++ after := by
  constructor
  · intro whole
    obtain ⟨b, blank, shape⟩ := Text.exists_trimEnd_append field
    have apart : (b ++ after).head? ≠ some '"' := by
      cases b with
      | nil => exact ends
      | cons c b =>
        intro quote
        have first := blank c List.mem_cons_self
        rw [Option.some.inj quote] at first
        revert first
        decide
    have same : field ++ after = Text.trimEnd field ++ (b ++ after) := by
      rw [← List.append_assoc, ← shape]
    exact ⟨b, blank, (h.unique ⟨_, whole, apart, same⟩).2⟩
  · rintro ⟨b, blank, rfl⟩
    obtain ⟨literal, whole, -, same⟩ := h
    rw [← List.append_assoc] at same
    rw [List.append_cancel_right same, whole.trimEnd_append blank]
    exact whole

theorem nativeQuery_eq_some_iff {s : List Char} {sql : String} :
    nativeQuery s = some sql ↔
      ∃ argument rest, NativeArgument s argument ∧ StartsWithLiteral argument sql.toList rest := by
  unfold nativeQuery
  have calls {arguments : List (List Char)} :
      callArguments "Value.NativeQuery" s = some arguments ↔
        Calls "Value.NativeQuery".toList s arguments :=
    callArguments_eq_some_iff (c := 'V') rfl (by decide)
  simp only [Option.bind_eq_bind, Option.bind_eq_some_iff, Option.pure_def, Option.some.injEq]
  constructor
  · rintro ⟨arguments, called, query, second, ⟨text, rest⟩, read, rfl⟩
    refine ⟨_, rest, ⟨arguments, query, calls.1 called, second, rfl⟩, ?_⟩
    rw [String.toList_ofList]
    exact stringLiteral_eq_some_iff.1 read
  · rintro ⟨argument, rest, ⟨arguments, query, called, second, rfl⟩, starts⟩
    exact ⟨arguments, calls.2 called, query, second, (sql.toList, rest),
      stringLiteral_eq_some_iff.2 starts, String.ofList_toList⟩

theorem databaseQuery_eq_some_iff {s : List Char} {sql : String} :
    databaseQuery s = some sql ↔
      ∃ value rest, OptionText s value ∧ StartsWithLiteral value sql.toList rest := by
  unfold databaseQuery
  have calls {arguments : List (List Char)} :
      callArguments "Sql.Database" s = some arguments ↔
        Calls "Sql.Database".toList s arguments :=
    callArguments_eq_some_iff (c := 'S') rfl (by decide)
  simp only [Option.bind_eq_bind, Option.bind_eq_some_iff, Option.pure_def, Option.some.injEq]
  constructor
  · rintro ⟨arguments, called, options, third, value, found, ⟨text, rest⟩, read, rfl⟩
    refine ⟨value, rest, ⟨arguments, options, calls.1 called, third,
      firstMatch_afterOption?_eq_some_iff.1 found⟩, ?_⟩
    rw [String.toList_ofList]
    exact stringLiteral_eq_some_iff.1 read
  · rintro ⟨value, rest, ⟨arguments, options, called, third, found⟩, starts⟩
    exact ⟨arguments, calls.2 called, options, third, value, firstMatch_afterOption?_eq_some_iff.2 found,
      (sql.toList, rest), stringLiteral_eq_some_iff.2 starts, String.ofList_toList⟩

theorem navigationStep_ne_query (s : List Char) (sql : String) :
    navigationStep s ≠ some (.query sql) := by
  intro found
  unfold navigationStep at found
  simp only [Option.bind_eq_bind, Option.bind_eq_some_iff] at found
  obtain ⟨record, -, found⟩ := found
  split at found
  · simp [Option.bind_eq_some_iff] at found
  · simp [Option.bind_eq_some_iff] at found

theorem extract_eq_query_iff {expression sql : String} :
    extract expression = some (.query sql) ↔
      nativeQuery expression.toList = some sql ∨
        nativeQuery expression.toList = none ∧ databaseQuery expression.toList = some sql := by
  have navigated : firstMatch navigationStep expression.toList ≠ some (.query sql) := by
    intro found
    obtain ⟨-, place, -, answer, -⟩ := firstMatch_eq_some_iff.1 found
    exact navigationStep_ne_query place sql answer
  cases native : nativeQuery expression.toList with
  | some text => simp [extract, native]
  | none =>
    cases database : databaseQuery expression.toList with
    | some text => simp [extract, native, database]
    | none => simpa [extract, native, database] using navigated

/-- The SQL of an expression is the literal that stands first at the place of its query. There it
is the whole query only if nothing stands behind it: in an argument nothing at all, in an option
nothing but blanks up to the end of the field. -/
theorem extract_query (expression sql : String) :
    (extract expression = some (.query sql) ↔
      (∃ argument rest, NativeArgument expression.toList argument ∧
        StartsWithLiteral argument sql.toList rest) ∨
      (¬∃ argument text rest, NativeArgument expression.toList argument ∧
        StartsWithLiteral argument text rest) ∧
      ∃ value rest, OptionText expression.toList value ∧
        StartsWithLiteral value sql.toList rest) ∧
    (∀ argument rest, NativeArgument expression.toList argument →
      StartsWithLiteral argument sql.toList rest →
        (IsLiteral argument sql.toList ↔ rest = [])) ∧
    ∀ field after rest, OptionText expression.toList (field ++ after) → EndsField field after →
      StartsWithLiteral (field ++ after) sql.toList rest →
        (IsLiteral (Text.trimEnd field) sql.toList ↔ ∃ b, Blank b ∧ rest = b ++ after) := by
  have noNative : nativeQuery expression.toList = none ↔
      ¬∃ argument text rest, NativeArgument expression.toList argument ∧
        StartsWithLiteral argument text rest := by
    rw [Option.eq_none_iff_forall_ne_some]
    constructor
    · rintro none ⟨argument, text, rest, taken, starts⟩
      refine none (String.ofList text) (nativeQuery_eq_some_iff.2 ⟨argument, rest, taken, ?_⟩)
      rwa [String.toList_ofList]
    · intro none sql found
      obtain ⟨argument, rest, taken, starts⟩ := nativeQuery_eq_some_iff.1 found
      exact none ⟨argument, sql.toList, rest, taken, starts⟩
  refine ⟨?_, ?_, ?_⟩
  · rw [extract_eq_query_iff, noNative, nativeQuery_eq_some_iff, databaseQuery_eq_some_iff]
  · intro argument rest _ starts
    exact isLiteral_iff starts
  · intro field after rest _ ends starts
    apply isLiteral_trimEnd_iff starts
    obtain ⟨_, mark, _, -, -, rfl | rfl, rfl⟩ := ends
    all_goals simp

/-- A query that is put together with a parameter. -/
def parameterCall : String := "Value.NativeQuery(Source, \"SELECT a FROM t WHERE b = \" & Name)"

/-- What is left of it is text that can be sent to a database. -/
theorem extract_query_parameter :
    extract parameterCall = some (.query "SELECT a FROM t WHERE b = ") ∧
      ∃ argument rest, NativeArgument parameterCall.toList argument ∧
        StartsWithLiteral argument "SELECT a FROM t WHERE b = ".toList rest ∧
        rest = " & Name".toList ∧ ¬IsLiteral argument "SELECT a FROM t WHERE b = ".toList := by
  have called : Calls "Value.NativeQuery".toList parameterCall.toList
      ["Source".toList, " \"SELECT a FROM t WHERE b = \" & Name".toList] := by
    apply (callArguments_eq_some_iff (c := 'V') rfl _).1
    · decide +kernel
    · decide
  have taken : NativeArgument parameterCall.toList
      "\"SELECT a FROM t WHERE b = \" & Name".toList :=
    ⟨_, _, called, rfl, by decide +kernel⟩
  have starts : StartsWithLiteral "\"SELECT a FROM t WHERE b = \" & Name".toList
      "SELECT a FROM t WHERE b = ".toList " & Name".toList := by
    apply stringLiteral_eq_some_iff.1
    decide +kernel
  obtain ⟨found, whole, -⟩ := extract_query parameterCall "SELECT a FROM t WHERE b = "
  refine ⟨found.2 (Or.inl ⟨_, _, taken, starts⟩), _, _, taken, starts, rfl, ?_⟩
  intro literal
  cases (whole _ _ taken starts).1 literal

end SemanticLayer.PowerQuery
