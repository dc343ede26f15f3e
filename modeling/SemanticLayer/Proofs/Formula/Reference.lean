import SemanticLayer.Proofs.Formula.Scanning
import SemanticLayer.Proofs.Text.Delimited
import SemanticLayer.Proofs.Text.LowerCase

set_option autoImplicit false

namespace SemanticLayer.Formula

open Text (ArgumentStyle Blank Region Tight isBlank startsFold)

def IsName (name : List Char) : Prop := ∀ c ∈ name, isPlain c = true

/-- A table as it stands, or between quotes. -/
inductive TableSpelling (table : List Char) : List Char → Prop where
  | bare (h : Tight table) : TableSpelling table table
  | quoted (h : table ≠ []) : TableSpelling table ('\'' :: (table ++ ['\'']))

/-- The texts of a reference. Keywords are written in any case and right before a parenthesis. -/
inductive Spelling : Reference → List Char → Prop where
  | measure {name : List Char} (h : IsName name) :
    Spelling (.measure (String.ofList name)) ('[' :: (name ++ [']']))
  | column {f : AggregateFunction} {keyword table spelt column g₁ g₂ g₃ : List Char}
    (hf : f ≠ .countRows) (hk : keyword.map Char.toLower = f.keyword.toList)
    (ht : IsName table) (hs : TableSpelling table spelt) (hc : IsName column)
    (h₁ : Blank g₁) (h₂ : Blank g₂) (h₃ : Blank g₃) :
    Spelling (.aggregate ⟨f, String.ofList table, some (String.ofList column)⟩)
      (keyword ++ '(' :: (g₁ ++ spelt ++ g₂ ++ '[' :: (column ++ [']']) ++ g₃ ++ [')']))
  | rows {keyword table spelt g₁ g₂ : List Char}
    (hk : keyword.map Char.toLower = AggregateFunction.countRows.keyword.toList)
    (ht : IsName table) (hs : TableSpelling table spelt) (h₁ : Blank g₁) (h₂ : Blank g₂) :
    Spelling (.aggregate ⟨.countRows, String.ofList table, none⟩)
      (keyword ++ '(' :: (g₁ ++ spelt ++ g₂ ++ [')']))

theorem AggregateFunction.keyword_letters (f : AggregateFunction) :
    ∀ c ∈ f.keyword.toList, c.isAlpha = true := by
  have all : f.keyword.toList.all Char.isAlpha = true := by cases f <;> rfl
  exact List.all_eq_true.1 all

theorem AggregateFunction.keyword_ne_nil (f : AggregateFunction) : f.keyword.toList ≠ [] := by
  cases f <;> decide

theorem isPlain_of_isAlpha {c : Char} (h : c.isAlpha = true) : isPlain c = true := by
  have free {d : Char} (hd : d.isAlpha = false) : c ≠ d := fun eq => by
    rw [eq, hd] at h
    cases h
  simp only [isPlain, ne_eq, Bool.and_eq_true, decide_eq_true_eq]
  exact ⟨⟨⟨⟨⟨free rfl, free rfl⟩, free rfl⟩, free rfl⟩, free rfl⟩, free rfl⟩

theorem passes_letters {s : List Char} (letters : ∀ c ∈ s, c.isAlpha = true) : Passes s := by
  refine passes_plain (fun c hc => isPlain_of_isAlpha (letters c hc)) fun found => ?_
  cases letters ',' found

theorem IsName.notMem {name : List Char} (h : IsName name) {c : Char}
    (special : isPlain c = false) : c ∉ name := fun found => by
  have plain := h c found
  rw [special] at plain
  cases plain

theorem scan_spelt {table spelt : List Char} (ht : IsName table)
    (hs : TableSpelling table spelt) (depth : Nat) :
    ∃ next, Free next ∧
      argumentStyle.scan (depth + 1, .outside) spelt = some (depth + 1, next) := by
  cases hs with
  | bare _ => exact scan_plain ht (Or.inl rfl) fun _ => Nat.succ_ne_zero depth
  | quoted _ => exact ⟨_, Or.inr (Or.inr rfl), scan_region rfl (ht.notMem rfl) _⟩

theorem passes_call {table spelt gap tail : List Char} (ht : IsName table)
    (hs : TableSpelling table spelt) (hg : Blank gap) (tailPasses : Passes tail) :
    Passes ('(' :: (gap ++ spelt ++ tail ++ [')'])) := by
  intro depth region free
  have blanks : argumentStyle.scan (depth + 1, .outside) gap = some (depth + 1, .outside) :=
    scan_outside (fun c hc => isPlain_of_isBlank (hg c hc)) fun _ => Nat.succ_ne_zero depth
  obtain ⟨middle, stays, named⟩ := scan_spelt ht hs depth
  obtain ⟨next, ends, rest⟩ := tailPasses (depth + 1) middle stays
  refine ⟨.outside, Or.inl rfl, ?_⟩
  rw [ArgumentStyle.scan_cons, advance_opening free, Option.bind_some, List.append_assoc,
    List.append_assoc, ArgumentStyle.scan_append, blanks, Option.bind_some,
    ArgumentStyle.scan_append, named, Option.bind_some, ArgumentStyle.scan_append, rest,
    Option.bind_some, ArgumentStyle.scan_cons, advance_closing ends]
  rfl

theorem passes_brackets {name : List Char} (h : IsName name) : Passes ('[' :: (name ++ [']'])) :=
  fun depth _ free => ⟨_, Or.inr (Or.inl rfl),
    scan_region (step_of_free free (by decide) (by decide)) (h.notMem rfl) depth⟩

theorem Spelling.passes {r : Reference} {s : List Char} (h : Spelling r s) : Passes s := by
  cases h with
  | measure h => exact passes_brackets h
  | @column f keyword table spelt column g₁ g₂ g₃ _ hk ht hs hc h₁ h₂ h₃ =>
    have letters := Text.isAlpha_of_map_toLower hk f.keyword_letters
    have tail := ((Passes.blank h₂).append (passes_brackets hc)).append (.blank h₃)
    have := (passes_letters letters).append (passes_call ht hs h₁ tail)
    simpa only [List.append_assoc, List.cons_append] using this
  | @rows keyword table spelt g₁ g₂ hk ht hs h₁ h₂ =>
    have letters := Text.isAlpha_of_map_toLower hk (AggregateFunction.keyword_letters _)
    exact (passes_letters letters).append (passes_call ht hs h₁ (.blank h₂))

theorem Spelling.tight {r : Reference} {s : List Char} (h : Spelling r s) : Tight s := by
  have closed : Tight [')'] := Tight.singleton rfl
  have word {f : AggregateFunction} {keyword : List Char}
      (hk : keyword.map Char.toLower = f.keyword.toList) : Tight keyword := by
    refine Text.tight_of_isAlpha (fun empty => ?_)
      (Text.isAlpha_of_map_toLower hk f.keyword_letters)
    rw [empty] at hk
    exact f.keyword_ne_nil hk.symm
  cases h with
  | @measure name _ =>
    exact Tight.append (s := ['[']) (t := [']']) (Tight.singleton rfl) name (Tight.singleton rfl)
  | @column f keyword table spelt column g₁ g₂ g₃ _ hk _ _ _ _ _ _ =>
    have := (word hk).append ('(' :: (g₁ ++ spelt ++ g₂ ++ '[' :: (column ++ [']']) ++ g₃)) closed
    simpa only [List.append_assoc, List.cons_append] using this
  | @rows keyword table spelt g₁ g₂ hk _ _ _ _ =>
    have := (word hk).append ('(' :: (g₁ ++ spelt ++ g₂)) closed
    simpa only [List.append_assoc, List.cons_append] using this

theorem TableSpelling.tight {table spelt : List Char} (h : TableSpelling table spelt) :
    Tight spelt := by
  cases h with
  | bare h => exact h
  | quoted _ =>
    exact Tight.append (s := ['\'']) (t := ['\'']) (Tight.singleton rfl) table
      (Tight.singleton rfl)

theorem TableSpelling.ne_nil {table spelt : List Char} (h : TableSpelling table spelt) :
    table ≠ [] := by
  cases h with
  | bare h => exact h.ne_nil
  | quoted h => exact h

theorem TableSpelling.notMem {table spelt : List Char} (h : TableSpelling table spelt)
    (ht : IsName table) {c : Char} (special : isPlain c = false) (quote : c ≠ '\'') :
    c ∉ spelt := by
  cases h with
  | bare _ => exact ht.notMem special
  | quoted _ => simpa [quote] using ht.notMem special

theorem unquoteTable_spelt {table spelt before after : List Char} (ht : IsName table)
    (h : TableSpelling table spelt) (hb : Blank before) (ha : Blank after) :
    unquoteTable (before ++ spelt ++ after) = table := by
  rw [unquoteTable, Text.trim_of_tight h.tight hb ha]
  cases h with
  | bare tight =>
    obtain ⟨⟨c, r, eq, -⟩, -⟩ := tight
    have quote : c ≠ '\'' := fun quote => by
      refine ht.notMem (c := '\'') rfl ?_
      rw [eq, quote]
      exact List.mem_cons_self
    have missing : betweenQuotes? table = none := by
      rw [eq]
      simp [betweenQuotes?, quote]
    rw [missing]
  | quoted _ =>
    have found : betweenQuotes? ('\'' :: (table ++ ['\''])) = some table := by
      simp [betweenQuotes?]
    rw [found]
    exact Text.replaceAll_of_notMem (ht.notMem rfl) _

def unescaped (close : Char) (inside : List Char) : List Char :=
  Text.replaceAll [close, close] [close] inside

theorem bracketName_eq_some_iff {s name rest : List Char} :
    bracketName s = some (name, rest) ↔
      ∃ inside, Text.Paired ']' inside ∧ rest.head? ≠ some ']' ∧
        s = '[' :: (inside ++ ']' :: rest) ∧ name = unescaped ']' inside := by
  constructor
  · intro h
    unfold bracketName at h
    split at h
    · obtain ⟨⟨inside, after⟩, closed, same⟩ := Option.map_eq_some_iff.1 h
      cases same
      obtain ⟨paired, apart, rfl⟩ := Text.splitClose_eq_some_iff.1 closed
      exact ⟨inside, paired, apart, rfl, rfl⟩
    · cases h
  · rintro ⟨inside, paired, apart, rfl, rfl⟩
    rw [bracketName, paired.splitClose apart]
    rfl

theorem bracketName_append {name rest : List Char} (h : IsName name)
    (apart : rest.head? ≠ some ']') :
    bracketName ('[' :: (name ++ ']' :: rest)) = some (name, rest) := by
  rw [bracketName, Text.splitClose_of_notMem (h.notMem rfl) apart]
  exact congrArg (fun known => some (known, rest)) (Text.replaceAll_of_notMem (h.notMem rfl) _)

/-- The characters that no table may have. -/
def isNesting (c : Char) : Bool := c = '[' || c = ']' || c = '(' || c = ')'

/-- The table stands before the first bracket, the column fills the brackets up to the end. -/
theorem columnRef_eq_some_iff {s table column : List Char} :
    columnRef s = some (table, column) ↔
      table = unquoteTable ((Text.trim s).takeWhile (· ≠ '[')) ∧ table ≠ [] ∧
        (∀ c ∈ table, isNesting c = false) ∧
        bracketName ((Text.trim s).dropWhile (· ≠ '[')) = some (column, []) := by
  have proper : ((table.isEmpty || table.any isNesting) = false) ↔
      table ≠ [] ∧ ∀ c ∈ table, isNesting c = false := by
    rw [Bool.or_eq_false_iff, List.isEmpty_eq_false_iff, List.any_eq_false]
    simp only [Bool.not_eq_true]
  constructor
  · intro h
    unfold columnRef at h
    dsimp only at h
    split at h
    · rename_i name found
      split at h
      · cases h
      · rename_i fits
        cases h
        obtain ⟨nonempty, free⟩ := proper.1 (Bool.not_eq_true _ ▸ fits)
        exact ⟨rfl, nonempty, free, found⟩
    · cases h
  · rintro ⟨rfl, nonempty, free, found⟩
    have fits := proper.2 ⟨nonempty, free⟩
    unfold columnRef
    simp only [found]
    exact if_neg (Bool.not_eq_true _ ▸ fits)

theorem columnRef_spelt {table spelt column g₁ g₂ g₃ : List Char} (ht : IsName table)
    (hs : TableSpelling table spelt) (hc : IsName column) (h₁ : Blank g₁) (h₂ : Blank g₂)
    (h₃ : Blank g₃) :
    columnRef (g₁ ++ spelt ++ g₂ ++ '[' :: (column ++ [']']) ++ g₃) = some (table, column) := by
  have tight : Tight (spelt ++ (g₂ ++ '[' :: column) ++ [']']) :=
    hs.tight.append _ (Tight.singleton rfl)
  have whole : g₁ ++ spelt ++ g₂ ++ '[' :: (column ++ [']']) ++ g₃ =
      g₁ ++ (spelt ++ (g₂ ++ '[' :: column) ++ [']']) ++ g₃ := by simp
  have parts : spelt ++ (g₂ ++ '[' :: column) ++ [']'] =
      (spelt ++ g₂) ++ '[' :: (column ++ [']']) := by simp
  have free : '[' ∉ spelt ++ g₂ := by
    intro found
    rcases List.mem_append.1 found with inner | blank
    · exact hs.notMem ht rfl (by decide) inner
    · exact h₂.notMem rfl blank
  obtain ⟨taken, dropped⟩ :=
    Text.takeWhile_of_notMem free (column ++ [']'])
  have inner : unquoteTable (spelt ++ g₂) = table :=
    unquoteTable_spelt ht hs Blank.nil h₂
  have proper : table.any (fun c => c = '[' || c = ']' || c = '(' || c = ')') = false := by
    refine List.any_eq_false.2 fun c hc => ?_
    have plain := ht c hc
    simp only [isPlain, ne_eq, Bool.and_eq_true, decide_eq_true_eq] at plain
    simp only [Bool.or_eq_true, decide_eq_true_eq]
    tauto
  rw [whole, columnRef, Text.trim_of_tight tight h₁ h₃, parts, taken, dropped, inner,
    bracketName_append hc (by simp)]
  have nonempty : table.isEmpty = false := List.isEmpty_eq_false_iff.2 hs.ne_nil
  simp [proper, nonempty]

theorem find_keyword {f : AggregateFunction} {keyword : List Char}
    (hk : keyword.map Char.toLower = f.keyword.toList) (rest : List Char) :
    AggregateFunction.all.find? (fun g => startsFold (g.keyword.toList ++ ['('])
      (keyword ++ '(' :: rest)) = some f := by
  have lower (g : AggregateFunction) : g.keyword.toList.map Char.toLower = g.keyword.toList := by
    cases g <;> rfl
  have free (g : AggregateFunction) : '(' ∉ g.keyword.toList := fun found => by
    cases g.keyword_letters '(' found
  -- With the parenthesis behind them no keyword starts another one, so the order of the functions
  -- is of no account.
  have starts (g : AggregateFunction) :
      startsFold (g.keyword.toList ++ ['(']) (keyword ++ '(' :: rest) = true ↔ g = f := by
    rw [Text.startsFold_iff, List.map_append, List.map_append, lower, hk]
    constructor
    · intro h
      have same := Text.eq_of_prefix_of_notMem (free g) (free f) h
      by_contra other
      exact AggregateFunction.keyword_ne_of_ne g f other (String.toList_inj.1 same)
    · rintro rfl
      exact (List.prefix_append_right_inj _).2 ⟨_, rfl⟩
  have chosen (g : AggregateFunction) :
      startsFold (g.keyword.toList ++ ['(']) (keyword ++ '(' :: rest) = decide (g = f) := by
    rw [Bool.eq_iff_iff, starts, decide_eq_true_eq]
  simp only [chosen]
  cases f <;> rfl

theorem drop_keyword {f : AggregateFunction} {keyword : List Char}
    (hk : keyword.map Char.toLower = f.keyword.toList) (rest : List Char) :
    (keyword ++ '(' :: rest).drop (f.keyword.length + 1) = rest := by
  have length : f.keyword.length + 1 = (keyword ++ ['(']).length := by
    rw [← String.length_toList, ← hk, List.length_map, List.length_append]
    rfl
  rw [length, List.append_cons keyword '(' rest, List.drop_left]

theorem aggregateCall?_keyword {f : AggregateFunction} {keyword body : List Char}
    (hk : keyword.map Char.toLower = f.keyword.toList) (closed : ')' ∉ body) (rest : List Char) :
    aggregateCall? (keyword ++ '(' :: (body ++ ')' :: rest)) =
      (f.call? body).map fun call => (call, rest) := by
  rw [aggregateCall?, find_keyword hk]
  simp only [Option.bind_eq_bind, Option.bind_some, drop_keyword hk,
    Text.splitFirst_of_notMem closed]
  cases f.call? body <;> rfl

theorem eq_of_toLower {c d : Char} (h : c.toLower = d) (symbol : d.isAlpha = false) : c = d := by
  have lower : d.toLower = d := by rw [← h, Text.toLower_toLower]
  rcases Text.eq_or_isAlpha_of_toLower (h.trans lower.symm) with same | ⟨-, letter⟩
  · exact same
  · rw [symbol] at letter
    cases letter

theorem exists_keyword {word s : List Char} {symbol : Char} (plain : symbol.isAlpha = false)
    (lower : ∀ c ∈ word ++ [symbol], c.toLower = c)
    (h : startsFold (word ++ [symbol]) s = true) :
    ∃ keyword rest, keyword.map Char.toLower = word ∧ s = keyword ++ symbol :: rest := by
  rw [Text.startsFold_iff, List.map_congr_left lower, List.map_id'] at h
  obtain ⟨tail, same⟩ := h
  rw [List.append_assoc] at same
  obtain ⟨keyword, more, rfl, first, later⟩ := List.map_eq_append_iff.1 same.symm
  obtain ⟨c, rest, rfl, symbol', -⟩ := List.map_eq_cons_iff.1 later
  exact ⟨keyword, rest, first, by rw [eq_of_toLower symbol' plain]⟩

theorem AggregateFunction.lower_keyword (f : AggregateFunction) :
    ∀ c ∈ f.keyword.toList ++ ['('], c.toLower = c := by
  have all : (f.keyword.toList ++ ['(']).all (fun c => c.toLower == c) = true := by cases f <;> rfl
  simpa using List.all_eq_true.1 all

theorem aggregateCall?_eq_some_iff {s rest : List Char} {call : AggregateCall} :
    aggregateCall? s = some (call, rest) ↔
      ∃ (f : AggregateFunction) (keyword body : List Char),
        keyword.map Char.toLower = f.keyword.toList ∧ s = keyword ++ '(' :: (body ++ ')' :: rest) ∧
          ')' ∉ body ∧ f.call? body = some call := by
  constructor
  · intro h
    simp only [aggregateCall?, Option.bind_eq_bind, Option.bind_eq_some_iff] at h
    obtain ⟨f, found, ⟨body, after⟩, split, _, called, same⟩ := h
    cases same
    have starts : startsFold (f.keyword.toList ++ ['(']) s = true :=
      List.find?_some (p := fun f : AggregateFunction => startsFold (f.keyword.toList ++ ['(']) s)
        found
    obtain ⟨keyword, tail, lower, rfl⟩ := exists_keyword rfl f.lower_keyword starts
    rw [drop_keyword lower, Text.splitFirst_eq_some_iff List.not_mem_nil] at split
    obtain ⟨rfl, first⟩ := split
    refine ⟨f, keyword, body, lower, rfl, ?_, called⟩
    intro closed
    obtain ⟨b, b', shape⟩ := List.append_of_mem closed
    exact first ⟨b, b', by simp [shape]⟩
  · rintro ⟨f, keyword, body, lower, rfl, closed, called⟩
    rw [aggregateCall?_keyword lower closed, called]
    rfl

theorem count_of_split {c : Char} {s t : List Char} (hs : c ∉ s) (ht : c ∉ t) :
    (s ++ c :: t).count c = 1 := by
  rw [List.count_append, List.count_cons_self, List.count_eq_zero_of_not_mem hs,
    List.count_eq_zero_of_not_mem ht]

theorem call?_eq_some_iff {f : AggregateFunction} {body : List Char} {call : AggregateCall} :
    f.call? body = some call ↔ '(' ∉ body ∧
      ((f = .countRows ∧ '[' ∉ body ∧ ']' ∉ body ∧ unquoteTable body ≠ [] ∧
          call = ⟨f, String.ofList (unquoteTable body), none⟩) ∨
        (f ≠ .countRows ∧ body.count '[' = 1 ∧ body.count ']' = 1 ∧
          ∃ table column, columnRef body = some (table, column) ∧
            call = ⟨f, String.ofList table, some (String.ofList column)⟩)) := by
  constructor
  · intro h
    unfold AggregateFunction.call? at h
    split at h
    · cases h
    rename_i nested
    refine ⟨by simpa using nested, ?_⟩
    split at h
    · rename_i rows
      dsimp only at h
      split at h
      · cases h
      · rename_i proper
        cases h
        simp only [List.contains_eq_mem, Bool.or_eq_true, decide_eq_true_eq, List.isEmpty_iff,
          not_or] at proper
        exact Or.inl ⟨rows, proper.1.1, proper.1.2, proper.2, rfl⟩
    · rename_i other
      split at h
      · rename_i single
        rw [Bool.and_eq_true, decide_eq_true_eq, decide_eq_true_eq] at single
        obtain ⟨⟨table, column⟩, found, same⟩ := Option.map_eq_some_iff.1 h
        exact Or.inr ⟨other, single.1, single.2, table, column, found, same.symm⟩
      · cases h
  · rintro ⟨nested, ⟨rfl, opening, closing, named, rfl⟩ |
      ⟨rows, opening, closing, table, column, found, rfl⟩⟩
    · simp [AggregateFunction.call?, nested, opening, closing, named]
    · simp [AggregateFunction.call?, nested, rows, opening, closing, found]

theorem call?_column {f : AggregateFunction} {table spelt column g₁ g₂ g₃ : List Char}
    (hf : f ≠ .countRows) (ht : IsName table) (hs : TableSpelling table spelt)
    (hc : IsName column) (h₁ : Blank g₁) (h₂ : Blank g₂) (h₃ : Blank g₃) :
    f.call? (g₁ ++ spelt ++ g₂ ++ '[' :: (column ++ [']']) ++ g₃) =
      some ⟨f, String.ofList table, some (String.ofList column)⟩ := by
  have opening : (g₁ ++ spelt ++ g₂ ++ '[' :: (column ++ [']']) ++ g₃).contains '(' = false := by
    have h₁' := h₁.notMem (c := '(') rfl
    have h₂' := h₂.notMem (c := '(') rfl
    have h₃' := h₃.notMem (c := '(') rfl
    have hs' := hs.notMem ht (c := '(') rfl (by decide)
    have hc' := hc.notMem (c := '(') rfl
    simp [h₁', h₂', h₃', hs', hc']
  have bracket : (g₁ ++ spelt ++ g₂ ++ '[' :: (column ++ [']']) ++ g₃).count '[' = 1 := by
    rw [List.append_assoc, List.cons_append]
    refine count_of_split ?_ ?_
    · simp [h₁.notMem (c := '[') rfl, h₂.notMem (c := '[') rfl,
        hs.notMem ht (c := '[') rfl (by decide)]
    · simp [hc.notMem (c := '[') rfl, h₃.notMem (c := '[') rfl]
  have close : (g₁ ++ spelt ++ g₂ ++ '[' :: (column ++ [']']) ++ g₃).count ']' = 1 := by
    have parts : g₁ ++ spelt ++ g₂ ++ '[' :: (column ++ [']']) ++ g₃ =
        (g₁ ++ spelt ++ g₂ ++ '[' :: column) ++ ']' :: g₃ := by simp
    rw [parts]
    refine count_of_split ?_ (h₃.notMem rfl)
    simp [h₁.notMem (c := ']') rfl, h₂.notMem (c := ']') rfl,
      hs.notMem ht (c := ']') rfl (by decide), hc.notMem (c := ']') rfl]
  rw [AggregateFunction.call?, opening, if_neg Bool.false_ne_true, if_neg hf, bracket, close,
    columnRef_spelt ht hs hc h₁ h₂ h₃]
  rfl

theorem call?_rows {table spelt g₁ g₂ : List Char} (ht : IsName table)
    (hs : TableSpelling table spelt) (h₁ : Blank g₁) (h₂ : Blank g₂) :
    AggregateFunction.countRows.call? (g₁ ++ spelt ++ g₂) =
      some ⟨.countRows, String.ofList table, none⟩ := by
  have free {c : Char} (visible : isBlank c = false) (special : isPlain c = false)
      (quote : c ≠ '\'') : (g₁ ++ spelt ++ g₂).contains c = false := by
    simp [h₁.notMem visible, h₂.notMem visible, hs.notMem ht special quote]
  have nonempty : table.isEmpty = false := List.isEmpty_eq_false_iff.2 hs.ne_nil
  rw [AggregateFunction.call?, free (c := '(') rfl rfl (by decide), if_neg Bool.false_ne_true,
    if_pos rfl]
  simp only [unquoteTable_spelt ht hs h₁ h₂, nonempty, free (c := '[') rfl rfl (by decide),
    free (c := ']') rfl rfl (by decide), Bool.or_self, Bool.false_eq_true, if_false]

/-- The reader finds what was written, unless a bracket right behind changes a name. -/
theorem reference?_append {r : Reference} {s rest : List Char} (h : Spelling r s)
    (apart : rest.head? ≠ some ']') : reference? (s ++ rest) = some (r, rest) := by
  -- A keyword starts with a letter, so a call is never taken for a name in brackets.
  have word {f : AggregateFunction} {keyword tail : List Char}
      (hk : keyword.map Char.toLower = f.keyword.toList) :
      bracketName (keyword ++ tail) = none := by
    obtain ⟨c, t, eq⟩ : ∃ c t, keyword = c :: t := by
      refine List.exists_cons_of_ne_nil fun empty => ?_
      rw [empty] at hk
      exact f.keyword_ne_nil hk.symm
    have letter := Text.isAlpha_of_map_toLower hk f.keyword_letters c (eq ▸ List.mem_cons_self)
    have other : c ≠ '[' := fun bracket => by
      rw [bracket] at letter
      cases letter
    simp [eq, bracketName, other]
  cases h with
  | @measure name h =>
    have found : bracketName ('[' :: (name ++ [']']) ++ rest) = some (name, rest) := by
      simpa using bracketName_append h apart
    rw [reference?, found]
  | @column f keyword table spelt column g₁ g₂ g₃ hf hk ht hs hc h₁ h₂ h₃ =>
    have closed : ')' ∉ g₁ ++ spelt ++ g₂ ++ '[' :: (column ++ [']']) ++ g₃ := by
      simp [h₁.notMem (c := ')') rfl, h₂.notMem (c := ')') rfl, h₃.notMem (c := ')') rfl,
        hs.notMem ht (c := ')') rfl (by decide), hc.notMem (c := ')') rfl]
    have call := aggregateCall?_keyword hk closed rest
    rw [call?_column hf ht hs hc h₁ h₂ h₃] at call
    rw [List.append_assoc, List.cons_append, List.append_assoc, reference?, word hk]
    simp only [List.singleton_append, call, Option.map_some]
  | @rows keyword table spelt g₁ g₂ hk ht hs h₁ h₂ =>
    have closed : ')' ∉ g₁ ++ spelt ++ g₂ := by
      simp [h₁.notMem (c := ')') rfl, h₂.notMem (c := ')') rfl,
        hs.notMem ht (c := ')') rfl (by decide)]
    have call := aggregateCall?_keyword hk closed rest
    rw [call?_rows ht hs h₁ h₂] at call
    rw [List.append_assoc, List.cons_append, List.append_assoc, reference?, word hk]
    simp only [List.singleton_append, call, Option.map_some]

end SemanticLayer.Formula
