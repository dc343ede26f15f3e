import SemanticLayer.Proofs.Conversion.Closed
import SemanticLayer.Proofs.Conversion.RowCount
import SemanticLayer.Proofs.Conversion.WrittenNames

set_option autoImplicit false

namespace SemanticLayer.Formula

open Text (doubled isBlank squeeze Tight)

theorem unescaped_doubled (close : Char) (name : List Char) :
    unescaped close (doubled close name) = name :=
  Text.replaceAll_doubled close name

theorem uncommented_doubled {close : Char} (plain : close ≠ '/' ∧ close ≠ '-') {s : List Char}
    (h : Uncommented s) : Uncommented (doubled close s) := by
  induction s with
  | nil => exact h
  | cons c s ih =>
    have rest := ih h.tail
    by_cases same : c = close
    · rw [same, Text.doubled_cons_self]
      have here (t : List Char) : startsComment (close :: t) = false := by
        rw [← Bool.not_eq_true, startsComment_cons_iff]
        exact fun ⟨mark, _⟩ => mark.elim plain.1 plain.2
      exact uncommented_cons (here _) (uncommented_cons (here _) rest)
    · rw [Text.doubled_cons_of_ne same]
      exact uncommented_cons
        (startsComment_of_head h.not_starts (by simp [Text.head?_doubled])) rest

theorem Clean.enclosed {start close : Char} (region : argumentStyle.regionEnd start = some close)
    {name : List Char} (h : Clean name) : Clean (start :: (doubled close name ++ [close])) := by
  obtain ⟨first, last, -, slash, dash, -⟩ := regionEnd_visible region
  have plain : start ≠ '/' ∧ start ≠ '-' := by
    rcases regionEnd_eq_some region with ⟨rfl, -⟩ | ⟨rfl, -⟩ | ⟨rfl, -⟩
    all_goals decide
  constructor
  · rw [Text.squeeze_visible first, Text.squeeze_append_cons last, Text.squeeze_doubled last, h.1,
      Text.squeeze_nil]
  · have empty : Uncommented [] := Uncommented.within h.2 (List.nil_infix)
    have inside := uncommented_append_cons ⟨slash, dash⟩ |>.2
      ⟨uncommented_doubled ⟨slash, dash⟩ h.2, empty⟩
    exact (uncommented_append_cons (s := []) plain).2 ⟨empty, inside⟩

theorem Clean.append {start close : Char} (region : argumentStyle.regionEnd start = some close)
    {inside t : List Char} (h : Clean (start :: (inside ++ [close]))) (ht : Clean t) :
    Clean (start :: (inside ++ [close]) ++ t) := by
  obtain ⟨-, -, -, slash, dash, -⟩ := regionEnd_visible region
  constructor
  · rw [Text.squeeze_tight_append (tight_name region inside), h.1, ht.1]
  · have before : Uncommented (start :: inside) := h.2.within ⟨[], [close], by simp⟩
    have whole := (uncommented_append_cons ⟨slash, dash⟩).2 ⟨before, ht.2⟩
    simpa using whole

theorem normalize_of_clean {c : Char} {s : List Char} (h : Clean (c :: s)) (tight : Tight (c :: s))
    (plain : c ≠ '(') : normalize (c :: s) = c :: s := by
  have alone : ¬isWrapped (c :: s) = true := by
    intro wrapped
    obtain ⟨inside, shape, -⟩ := exists_of_isWrapped wrapped
    exact plain (List.cons.inj shape).1
  exact IsNormal.normalize_eq
    ⟨⟨h.2, Text.squeeze_eq_self_iff.1 h.1, tight.trimmed⟩, Bool.eq_false_iff.2 alone⟩

theorem bracketName_doubled (name : List Char) :
    bracketName (bracketed (doubled ']' name)) = some (name, []) := by
  have paired := Text.paired_doubled ']' name
  refine bracketName_eq_some_iff.2 ⟨doubled ']' name, paired, by simp, rfl, ?_⟩
  exact (unescaped_doubled ']' name).symm

theorem tight_columnReference (table name : List Char) :
    Tight (singleQuoted table ++ bracketed name) := by
  have table' : Tight (singleQuoted table) := tight_name rfl table
  have name' : Tight (bracketed name) := tight_name rfl name
  have whole := table'.append [] name'
  rwa [List.append_nil] at whole

theorem bracketName_quoted (inside rest : List Char) :
    bracketName (singleQuoted inside ++ rest) = none := rfl

theorem columnRef_doubled {table name : List Char} (full : table ≠ [])
    (free : ∀ c ∈ table, isNesting c = false) :
    columnRef (singleQuoted (doubled '\'' table) ++ bracketed (doubled ']' name)) =
      some (table, name) := by
  have start : Tight (singleQuoted (doubled '\'' table)) := tight_name rfl _
  have apart : '[' ∉ singleQuoted (doubled '\'' table) := by
    have inner : '[' ∉ table := fun found => by cases free '[' found
    simpa [singleQuoted, Text.mem_doubled] using inner
  obtain ⟨taken, dropped⟩ := Text.takeWhile_of_notMem apart (doubled ']' name ++ [']'])
  have between : betweenQuotes? (singleQuoted (doubled '\'' table)) =
      some (doubled '\'' table) := by
    simp [singleQuoted, betweenQuotes?]
  have named : unquoteTable (singleQuoted (doubled '\'' table)) = table := by
    rw [unquoteTable, Text.trim_tight start, between]
    exact unescaped_doubled '\'' table
  refine columnRef_eq_some_iff.2 ?_
  rw [Text.trim_tight (tight_columnReference _ _), bracketed, taken, dropped, named]
  exact ⟨rfl, full, free, bracketName_doubled name⟩

end SemanticLayer.Formula

namespace SemanticLayer.Conversion

open Formula
open Tabular (Column Database Table)
open Text (doubled)

/-- The formulas that name a column of a table and nothing else. The normal form has to leave the
names alone, and a table whose name has brackets or parentheses is not named by a formula. -/
inductive CopyText (t : Table) (c : Column) : List Char → Prop where
  | alone (clean : Clean c.name.toList) :
    CopyText t c (bracketed (doubled ']' c.name.toList))
  | qualified (clean : Clean c.name.toList) (named : t.name ≠ "") (clean' : Clean t.name.toList)
      (free : ∀ x ∈ t.name.toList, isNesting x = false) :
    CopyText t c
      (singleQuoted (doubled '\'' t.name.toList) ++ bracketed (doubled ']' c.name.toList))

/-- Columns differ by more than the case of the letters A to Z. -/
def ColumnsDistinct (t : Table) : Prop := (t.columns.map fun c => Text.lowerAscii c.name).Nodup

instance (t : Table) : Decidable (ColumnsDistinct t) := List.nodupDecidable _

theorem ColumnsDistinct.column?_self {t : Table} (distinct : ColumnsDistinct t) {c : Column}
    (hc : c ∈ t.columns) : t.column? c.name = some c := by
  cases found : t.column? c.name with
  | none => exact absurd (Text.equalFold_refl c.name) (List.find?_eq_none.1 found c hc)
  | some other =>
    have same : Text.equalFold other.name c.name = true :=
      List.find?_some (p := fun d : Column => Text.equalFold d.name c.name) found
    rw [List.inj_on_of_nodup_map distinct (Tabular.Table.mem_of_column? found) hc
      ((Text.equalFold_iff _ _).1 same)]

theorem copiedColumn?_of_copyText {t : Table} (distinct : ColumnsDistinct t) {c : Column}
    (hc : c ∈ t.columns) {formula : String} (h : CopyText t c formula.toList) :
    copiedColumn? t formula = some c := by
  rw [copiedColumn?]
  generalize formula.toList = text at h
  cases h with
  | alone clean =>
    have normal : normalize (bracketed (doubled ']' c.name.toList)) = _ :=
      normalize_of_clean (clean.enclosed rfl) (tight_name rfl _) (by decide)
    rw [normal, ← bracketed, bracketName_doubled]
    simp only [String.ofList_toList]
    exact distinct.column?_self hc
  | qualified clean named clean' free =>
    have whole : Clean (singleQuoted (doubled '\'' t.name.toList) ++
        bracketed (doubled ']' c.name.toList)) :=
      (clean'.enclosed rfl).append rfl (clean.enclosed rfl)
    have normal : normalize (singleQuoted (doubled '\'' t.name.toList) ++
        bracketed (doubled ']' c.name.toList)) = singleQuoted (doubled '\'' t.name.toList) ++
          bracketed (doubled ']' c.name.toList) :=
      normalize_of_clean whole (tight_columnReference _ _) (by decide)
    have full : t.name.toList ≠ [] := fun empty => named (String.toList_inj.1 empty)
    rw [normal, bracketName_quoted, columnRef_doubled full free]
    simp only [Option.bind_some, String.ofList_toList, Text.equalFold_refl, if_true]
    exact distinct.column?_self hc

/-- A dataset has each calculated column that copies another one as the physical column. -/
def TranslatesCopies (t : Table) (dataset : Dataset) : Prop :=
  ∀ c ∈ t.columns, c.kind ≠ .calculated → ∀ d ∈ t.columns, d.kind = .calculated →
    CopyText t c (columnFormula d).toList →
      (∃ column ∈ dataset.columns, column.name = d.name) ∧
        ∀ column ∈ dataset.columns, column.name = d.name →
          column.sql = some (Sql.quote c.physicalName)

theorem columnSql_of_copyText {t : Table} (distinct : ColumnsDistinct t) {c d : Column}
    (hc : c ∈ t.columns) (stored : c.kind ≠ .calculated) (calculated : d.kind = .calculated)
    (copies : CopyText t c (columnFormula d).toList) :
    columnSql t d = some (Sql.quote c.physicalName) := by
  have physical : selfReference? t (columnFormula d) = some c.physicalName := by
    rw [selfReference?, copiedColumn?_of_copyText distinct hc copies]
    simp [stored]
  rw [columnSql, if_pos calculated, physical]

theorem ColumnsDistinct.translatesCopies {t : Table} (distinct : ColumnsDistinct t)
    (settings : Settings) (connectionId uniqueName : String) :
    TranslatesCopies t (tableDataset settings connectionId uniqueName t) := by
  intro c hc stored d hd calculated copies
  constructor
  · have data : d ∈ dataColumns t := List.mem_filter.2 ⟨hd, by rw [calculated]; rfl⟩
    exact ⟨_, List.mem_append_left _ (List.mem_map_of_mem data), rfl⟩
  · intro column among same
    rcases List.mem_append.1 among with own | ones
    · obtain ⟨d', hd', rfl⟩ := List.mem_map.1 own
      obtain rfl : d' = d := List.inj_on_of_nodup_map distinct (List.mem_of_mem_filter hd') hd
        (congrArg Text.lowerAscii same)
      exact columnSql_of_copyText distinct hc stored calculated copies
    · rw [List.mem_singleton.1 ones] at same
      exact absurd (List.mem_map.2 ⟨d, hd, same.symm⟩) (rowCountColumn_notMem settings t)

def AddsTables (source : Source) (s s' : State) : Prop :=
  ∀ dataset ∈ s'.output.datasets, dataset ∈ s.output.datasets ∨ ∃ t ∈ source.model.tables,
    ∃ connectionId uniqueName, dataset = tableDataset source.settings connectionId uniqueName t

instance (source : Source) : Frame (AddsTables source) where
  trans _ _ _ h h' dataset found := (h' dataset found).elim (h dataset) Or.inr
  same _ _ _ output _ _ found := Or.inl (output ▸ found)
  name _ _ _ found := Or.inl found

theorem AddsTables.admits {source : Source} {change : Output → Except ConversionError Output}
    (h : Admits (Spares (·.datasets)) change) : Admits (AddsTables source) change := by
  intro s output made dataset found
  have same : output.datasets = s.output.datasets := h s output made
  exact Or.inl (same ▸ found)

theorem AddsTables.run (source : Source) (database : Database) (connection : String) :
    Keeps (AddsTables source) (Conversion.run source database connection) := by
  rw [run_eq]
  have own (t : Table) (ht : t ∈ source.model.tables) (connectionId uniqueName : String) :
      Admits (AddsTables source)
        (·.addDataset (tableDataset source.settings connectionId uniqueName t)) := by
    intro s o added dataset found
    obtain ⟨rfl, -⟩ := Output.addDataset_ok added
    refine (List.mem_append.1 found).imp_right fun new => ?_
    exact ⟨t, ht, connectionId, uniqueName, List.mem_singleton.1 new⟩
  exact .bind (.prepare (fun _ => .admits (.addConnection rfl))
      (fun _ _ => .admits (.addMetric rfl)) (fun _ => .admits (.addMetricCalc rfl)) source own
      database connection) fun _ =>
    .bind (Light.keeps .reportUnreferencedHelpers) fun _ => .bind (.reclassify source) fun _ =>
      .finish (fun _ _ => .admits (.addMetric rfl)) (fun _ => .admits (.addPerspective rfl))
        (fun _ _ _ found => Or.inl found) (fun _ => .admits (.addJoin rfl))
        (fun owner r => .admits (.addNestedJoin rfl owner r))
        (fun d plain => .admits (.addDimension rfl d plain)) source _ _

/-- Copies are translated in the dataset of any table, and all datasets of a conversion are such. -/
theorem datasets_translateCopies [Sql.Parser] :
    (∀ t, ColumnsDistinct t → ∀ settings connectionId uniqueName,
      TranslatesCopies t (tableDataset settings connectionId uniqueName t)) ∧
    ∀ settings database connection c, convertWith settings database connection = .ok c →
      ∀ dataset ∈ c.datasets, ∃ t ∈ database.model.tables, dataset.label = t.name ∧
        (ColumnsDistinct t → TranslatesCopies t dataset) := by
  refine ⟨fun t distinct => distinct.translatesCopies, fun settings database connection c h => ?_⟩
  obtain ⟨catalog, m, s, ran, rfl⟩ := convertWith_ok h
  intro dataset found
  have from' : AddsTables ⟨database.model, settings⟩ (.initial settings) s :=
    AddsTables.run _ database connection _ _ _ ran
  rcases from' dataset found with none | ⟨t, ht, connectionId, uniqueName, rfl⟩
  · cases none
  · exact ⟨t, ht, rfl, fun distinct => distinct.translatesCopies settings connectionId uniqueName⟩

/-- A column with a character that ends names, in a table whose name has a quote. -/
def part : Column := { Column.data "a]b" "int64" with sourceColumn := some "a\"b" }

def barePart : Column := .calculated "Bare" "int64" ⟨"[a]]b]"⟩

def qualifiedPart : Column := .calculated "Qualified" "int64" ⟨"'Joe''s'[a]]b]"⟩

def joes : Table where
  name := "Joe's"
  columns := [part, barePart, qualifiedPart]
  measures := [{ name := "Rows", expression := ⟨"COUNTROWS('Joe''s')"⟩ }]

def joesShop : Database where
  name := "Shop"
  model := { tables := [joes] }

theorem copyText_barePart : CopyText joes part (columnFormula barePart).toList := by
  have written : (columnFormula barePart).toList = bracketed (doubled ']' part.name.toList) := by
    decide +kernel
  exact written ▸ .alone (by decide +kernel)

theorem copyText_qualifiedPart : CopyText joes part (columnFormula qualifiedPart).toList := by
  have written : (columnFormula qualifiedPart).toList =
      singleQuoted (doubled '\'' joes.name.toList) ++ bracketed (doubled ']' part.name.toList) := by
    decide +kernel
  have free : joes.name.toList.all (fun x => isNesting x == false) = true := by decide +kernel
  exact written ▸ .qualified (by decide +kernel) (by decide) (by decide +kernel)
    fun x hx => eq_of_beq (List.all_eq_true.1 free x hx)

attribute [local instance] Sql.Parser.lenient

theorem datasets_translateCopies_joes :
    (∀ settings connectionId uniqueName, ∀ copy ∈ [barePart, qualifiedPart],
      ∀ column ∈ (tableDataset settings connectionId uniqueName joes).columns,
        column.name = copy.name → column.sql = some (Sql.quote "a\"b")) ∧
    ∃ c, convertWith {} joesShop "warehouse" = .ok c ∧ c.datasets ≠ [] ∧
      ∀ dataset ∈ c.datasets, TranslatesCopies joes dataset := by
  have distinct : ColumnsDistinct joes := by decide +kernel
  have copies : ∀ copy ∈ [barePart, qualifiedPart], copy ∈ joes.columns ∧
      copy.kind = .calculated ∧ CopyText joes part (columnFormula copy).toList := by
    refine List.forall_mem_cons.2 ⟨⟨?_, ?_, copyText_barePart⟩,
      List.forall_mem_singleton.2 ⟨?_, ?_, copyText_qualifiedPart⟩⟩
    all_goals decide +kernel
  obtain ⟨c, h, some'⟩ : ∃ c, convertWith {} joesShop "warehouse" = .ok c ∧ c.datasets ≠ [] :=
    exists_convertWith (by decide +kernel)
  refine ⟨fun settings connectionId uniqueName copy known => ?_, c, h, some',
    fun dataset found => ?_⟩
  · obtain ⟨inside, calculated, written⟩ := copies copy known
    exact (datasets_translateCopies.1 joes distinct settings connectionId uniqueName part
      (by decide +kernel) (by decide +kernel) copy inside calculated written).2
  · obtain ⟨t, ht, -, translated⟩ := datasets_translateCopies.2 _ _ _ _ h dataset found
    obtain rfl := List.mem_singleton.1 ht
    exact translated distinct

/-- A table whose name has parentheses. -/
def euSales : Table where
  name := "Sales (EU)"
  columns := [.data "Amount" "decimal", .calculated "Copy" "decimal" ⟨"'Sales (EU)'[Amount]"⟩]

/-- Not every formula that names a column is translated. -/
theorem not_all_copies_translated : ¬∀ (t : Table) (c d : Column),
    Text.trim t.name.toList ≠ [] → Text.trim t.name.toList = t.name.toList → ColumnsDistinct t →
    c ∈ t.columns → c.kind ≠ .calculated → d ∈ t.columns → d.kind = .calculated →
    ((columnFormula d).toList = bracketed (doubled ']' c.name.toList) ∨
      (columnFormula d).toList = singleQuoted (doubled '\'' t.name.toList) ++
        bracketed (doubled ']' c.name.toList)) →
    ∀ column ∈ (tableDataset {} "warehouse" t.name t).columns, column.name = d.name →
      column.sql = some (Sql.quote c.physicalName) := by
  intro all
  have copy := all euSales (.data "Amount" "decimal")
    (.calculated "Copy" "decimal" ⟨"'Sales (EU)'[Amount]"⟩) (by decide +kernel) (by decide +kernel)
    (by decide +kernel) (by decide +kernel) (by decide +kernel) (by decide +kernel)
    (by decide +kernel) (Or.inr (by decide +kernel))
    ⟨"Copy", .decimal, some "NULL /* 'Sales (EU)'[Amount] */"⟩ (by decide +kernel) rfl
  exact absurd copy (by decide +kernel)

end SemanticLayer.Conversion
