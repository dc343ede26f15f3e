import SemanticLayer.Conversion.Datasets
import SemanticLayer.Proofs.Formula.Fixpoint
import SemanticLayer.Proofs.Formula.Reference

set_option autoImplicit false

namespace SemanticLayer.Formula

open Text (Blank Tight isBlank)

def bracketed (inside : List Char) : List Char := '[' :: (inside ++ [']'])

/-- A table as it is written between quotes. -/
def singleQuoted (inside : List Char) : List Char := '\'' :: (inside ++ ['\''])

theorem trim_blank_cons {b : List Char} (hb : Blank b) {c : Char} (visible : isBlank c = false)
    (s : List Char) : Text.trim (b ++ c :: s) = c :: Text.trimEnd s := by
  rw [Text.trim, Text.trimStart_append hb, ← Text.trim, Text.trim_cons_visible visible]

theorem columnRef_bracket {b : List Char} (hb : Blank b) (s : List Char) :
    columnRef (b ++ '[' :: s) = none := by
  rw [Option.eq_none_iff_forall_ne_some]
  rintro ⟨table, column⟩ found
  obtain ⟨named, nonempty, -⟩ := columnRef_eq_some_iff.1 found
  rw [trim_blank_cons hb rfl] at named
  exact nonempty (named.trans rfl)

theorem columnRef_group {b : List Char} (hb : Blank b) (s : List Char) :
    columnRef (b ++ '(' :: s) = none := by
  rw [Option.eq_none_iff_forall_ne_some]
  rintro ⟨table, column⟩ found
  obtain ⟨named, -, free, -⟩ := columnRef_eq_some_iff.1 found
  rw [trim_blank_cons hb rfl, List.takeWhile_cons_of_pos rfl] at named
  have first (t : List Char) : unquoteTable ('(' :: t) = '(' :: Text.trimEnd t := by
    simp [unquoteTable, Text.trim_cons_visible (c := '(') rfl, betweenQuotes?]
  rw [first] at named
  have nesting := free '(' (named ▸ List.mem_cons_self)
  cases nesting

theorem columnRef_quoted {t c b b' b'' table column : List Char} (free : '[' ∉ t) (hb : Blank b)
    (hb' : Blank b') (hb'' : Blank b'')
    (h : columnRef (b ++ (singleQuoted t ++ b' ++ bracketed c) ++ b'') = some (table, column)) :
    table = unescaped '\'' t ∧ column = unescaped ']' c := by
  have start : Tight (singleQuoted t) := ⟨⟨'\'', _, rfl, rfl⟩, '\'' :: t, '\'', rfl, rfl⟩
  have stop : Tight (bracketed c) := ⟨⟨'[', _, rfl, rfl⟩, '[' :: c, ']', rfl, rfl⟩
  have apart : '[' ∉ singleQuoted t ++ b' := by
    have gap := hb'.notMem (c := '[') rfl
    simpa [singleQuoted, gap] using free
  obtain ⟨taken, dropped⟩ := Text.takeWhile_of_notMem apart (c ++ [']'])
  obtain ⟨named, -, -, found⟩ := columnRef_eq_some_iff.1 h
  rw [Text.trim_of_tight (start.append b' stop) hb hb''] at named found
  have quoted : Text.trim (singleQuoted t ++ b') = singleQuoted t := by
    simpa using Text.trim_of_tight start Blank.nil hb'
  have between : betweenQuotes? (singleQuoted t) = some t := by
    simp [singleQuoted, betweenQuotes?]
  constructor
  · rw [named, bracketed, taken, unquoteTable, quoted, between]
    rfl
  · rw [bracketed, dropped] at found
    obtain ⟨inside, -, -, shape, rfl⟩ := bracketName_eq_some_iff.1 found
    rw [(List.append_inj' (List.cons.inj shape).2 rfl).1]

namespace Tokens

variable {ts : List Token} {s : List Char}

theorem blank_of_nil (h : Tokens [] s) (clear : Uncommented s) : Blank s := by
  generalize none : ([] : List Token) = ts at h
  induction h with
  | nil => exact Blank.nil
  | @blank c s ts space _ ih =>
    intro d hd
    rcases List.mem_cons.1 hd with rfl | later
    · exact space
    · exact ih clear.tail none d later
  | comment mark _ _ => exact absurd mark clear.not_mark
  | name => cases none
  | mark => cases none

theorem of_cons {t : Token} (h : Tokens (t :: ts) s) (clear : Uncommented s) :
    ∃ b piece rest, Blank b ∧ s = b ++ (piece ++ rest) ∧ Tokens ts rest ∧ Uncommented rest ∧
      (t = .name piece ∨ ∃ c, t = .mark c ∧ piece = [c]) := by
  generalize whole : t :: ts = all at h
  induction h with
  | nil => cases whole
  | @blank c s all space _ ih =>
    obtain ⟨b, piece, rest, hb, rfl, tokens, later, first⟩ := ih clear.tail whole
    refine ⟨c :: b, piece, rest, ?_, rfl, tokens, later, first⟩
    intro d hd
    rcases List.mem_cons.1 hd with rfl | inner
    · exact space
    · exact hb d inner
  | comment mark _ _ => exact absurd mark clear.not_mark
  | @name start close inside s ts region inner apart rest _ =>
    cases whole
    refine ⟨[], start :: (inside ++ [close]), s, Blank.nil, by simp, rest, ?_, Or.inl rfl⟩
    apply clear.within
    exact ⟨start :: (inside ++ [close]), [], by simp⟩
  | @mark c s ts _ _ _ rest _ =>
    cases whole
    exact ⟨[], [c], s, Blank.nil, rfl, rest, clear.tail, Or.inr ⟨c, rfl, rfl⟩⟩

theorem of_name {n : List Char} (h : Tokens (.name n :: ts) s) (clear : Uncommented s) :
    ∃ b rest, Blank b ∧ s = b ++ (n ++ rest) ∧ Tokens ts rest ∧ Uncommented rest := by
  obtain ⟨b, piece, rest, hb, shape, tokens, later, same | ⟨c, other, -⟩⟩ := h.of_cons clear
  · cases same
    exact ⟨b, rest, hb, shape, tokens, later⟩
  · cases other

theorem of_marks {p : List Char} (h : Tokens ts (p ++ s)) (clear : Uncommented (p ++ s))
    (plain : ∀ c ∈ p, isBlank c = false ∧ argumentStyle.regionEnd c = none) :
    ∃ ts', ts = p.map .mark ++ ts' ∧ Tokens ts' s := by
  induction p generalizing ts with
  | nil => exact ⟨ts, rfl, h⟩
  | cons c p ih =>
    obtain ⟨visible, region⟩ := plain c List.mem_cons_self
    obtain ⟨rest, rfl, tokens⟩ := h.of_mark clear visible region
    obtain ⟨ts', rfl, inner⟩ := ih tokens clear.tail fun d hd => plain d (List.mem_cons_of_mem c hd)
    exact ⟨ts', rfl, inner⟩

end Tokens

/-- How many parentheses are around a text is up to its first token that is none. -/
theorem enclose_inj {k k' : Nat} {ts ts' : List Token} (h : enclose k ts = enclose k' ts')
    (first : ts.head? ≠ some (.mark '(')) (first' : ts'.head? ≠ some (.mark '(')) : ts = ts' := by
  have alone (us : List Token) : enclose 0 us = us := by simp [enclose]
  induction k generalizing k' with
  | zero =>
    cases k' with
    | zero => rwa [alone, alone] at h
    | succ k' =>
      rw [alone, enclose_succ] at h
      rw [h] at first
      exact absurd rfl first
  | succ k ih =>
    cases k' with
    | zero =>
      rw [alone, enclose_succ] at h
      rw [← h] at first'
      exact absurd rfl first'
    | succ k' =>
      rw [enclose_succ, enclose_succ] at h
      exact ih (List.append_cancel_right (List.cons.inj h).2)

theorem marks_append_inj {c : Char} {word word' : List Char} {ts ts' : List Token}
    (free : c ∉ word) (free' : c ∉ word')
    (h : word.map .mark ++ .mark c :: ts = word'.map .mark ++ .mark c :: ts') :
    word = word' ∧ ts = ts' := by
  induction word generalizing word' with
  | nil =>
    cases word' with
    | nil =>
      cases h
      exact ⟨rfl, rfl⟩
    | cons d word' =>
      cases h
      exact absurd List.mem_cons_self free'
  | cons e word ih =>
    cases word' with
    | nil =>
      cases h
      exact absurd List.mem_cons_self free
    | cons d word' =>
      injection h with head rest
      injection head with same
      obtain ⟨rfl, rfl⟩ := ih (fun found => free (List.mem_cons_of_mem e found))
        (fun found => free' (List.mem_cons_of_mem d found)) rest
      exact ⟨by rw [same], rfl⟩

def aggregationTokens (keyword t c : List Char) : List Token :=
  keyword.map .mark ++ [.mark '(', .name (singleQuoted t), .name (bracketed c), .mark ')']

theorem isAlpha_plain {c : Char} (h : c.isAlpha = true) :
    isBlank c = false ∧ argumentStyle.regionEnd c = none := by
  refine ⟨Text.isBlank_of_isAlpha h, ?_⟩
  cases region : argumentStyle.regionEnd c with
  | none => rfl
  | some close =>
    rcases regionEnd_eq_some region with ⟨rfl, -⟩ | ⟨rfl, -⟩ | ⟨rfl, -⟩
    all_goals cases h

theorem call?_quoted {f : AggregateFunction} {call : AggregateCall} {t c b b' b'' : List Char}
    (hb : Blank b) (hb' : Blank b') (hb'' : Blank b'')
    (h : f.call? (b ++ (singleQuoted t ++ b' ++ bracketed c) ++ b'') = some call) :
    call = ⟨f, String.ofList (unescaped '\'' t), some (String.ofList (unescaped ']' c))⟩ := by
  obtain ⟨-, ⟨-, noBracket, -⟩ | ⟨-, single, -, table, column, found, rfl⟩⟩ :=
    call?_eq_some_iff.1 h
  · exact absurd (by simp [bracketed]) noBracket
  · have free : '[' ∉ t := by
      intro inner
      have more := List.count_pos_iff.2 inner
      simp only [singleQuoted, bracketed, List.count_append, List.count_cons_self,
        List.count_cons] at single
      omega
    obtain ⟨rfl, rfl⟩ := columnRef_quoted free hb hb' hb'' found
    rfl

theorem singleAggregate_eq {text keyword t c : List Char} {inner : List Token} {k k' : Nat}
    {f : AggregateFunction} {call : AggregateCall} (h : Tokens inner (normalize text))
    (shape : enclose k' inner = enclose k (aggregationTokens keyword t c))
    (named : keyword.map Char.toLower = f.keyword.toList)
    (found : singleAggregate text = some call) :
    call = ⟨f, String.ofList (unescaped '\'' t), some (String.ofList (unescaped ']' c))⟩ := by
  have alone : aggregateCall? (normalize text) = some (call, []) := by
    unfold singleAggregate at found
    split at found
    · rename_i whole
      cases found
      exact whole
    · cases found
  obtain ⟨g, keyword', body, named', read, closed, called⟩ := aggregateCall?_eq_some_iff.1 alone
  have clear := (isNormal_normalize text).uncommented
  rw [read] at h clear
  have letters {f : AggregateFunction} {word : List Char}
      (named : word.map Char.toLower = f.keyword.toList) : ∀ c ∈ word, c.isAlpha = true :=
    Text.isAlpha_of_map_toLower named f.keyword_letters
  have free {f : AggregateFunction} {word : List Char}
      (named : word.map Char.toLower = f.keyword.toList) : '(' ∉ word := fun found => by
    cases letters named '(' found
  have first {f : AggregateFunction} {word : List Char} {rest : List Token}
      (named : word.map Char.toLower = f.keyword.toList) :
      (word.map Token.mark ++ rest).head? ≠ some (.mark '(') := by
    obtain ⟨d, word, rfl⟩ : ∃ d r, word = d :: r := by
      refine List.exists_cons_of_ne_nil fun empty => ?_
      rw [empty] at named
      exact f.keyword_ne_nil named.symm
    intro same
    cases same
    exact free named List.mem_cons_self
  obtain ⟨rest, rfl, behind⟩ := h.of_marks clear fun d hd => isAlpha_plain (letters named' d hd)
  have clearBehind : Uncommented ('(' :: (body ++ [')'])) := clear.within ⟨keyword', [], by simp⟩
  obtain ⟨middle, rfl, inside⟩ := behind.of_mark clearBehind rfl rfl
  have same := enclose_inj shape (first named') (first named)
  obtain ⟨rfl, rfl⟩ := marks_append_inj (free named') (free named) same
  have sameFunction : g = f := by
    by_contra other
    exact AggregateFunction.keyword_ne_of_ne g f other
      (String.toList_inj.1 (named'.symm.trans named))
  obtain ⟨names, split, tokens⟩ := inside.of_concat clearBehind.tail
  have parts : [Token.name (singleQuoted t), .name (bracketed c)] ++ [.mark ')'] =
    names ++ [.mark ')'] := split
  obtain rfl := List.append_cancel_right parts
  have clearBody : Uncommented body := clearBehind.within ⟨['('], [')'], by simp⟩
  obtain ⟨b, rest, hb, rfl, tokens, clearRest⟩ := tokens.of_name clearBody
  obtain ⟨b', rest', hb', rfl, tokens, clearEnd⟩ := tokens.of_name clearRest
  rw [sameFunction] at called
  apply call?_quoted hb hb' (tokens.blank_of_nil clearEnd)
  rw [← called]
  simp

end SemanticLayer.Formula

namespace SemanticLayer.Conversion

open Formula
open Tabular (Column Table)

variable {table : Table} {text : List Char} {inner : List Token} {column : Column}

theorem head_of_copiedColumn? (h : Tokens inner (normalize text))
    (found : copiedColumn? table (String.ofList text) = some column) :
    inner.head? ≠ some (.mark '(') := by
  intro first
  obtain ⟨rest, rfl⟩ := List.head?_eq_some_iff.1 first
  obtain ⟨b, piece, tail, hb, shape, -, -, other | ⟨c, same, rfl⟩⟩ :=
    h.of_cons (isNormal_normalize text).uncommented
  · cases other
  cases same
  have noName : bracketName (b ++ '(' :: tail) = none := by
    rw [Option.eq_none_iff_forall_ne_some]
    rintro ⟨name, after⟩ named
    obtain ⟨inside, -, -, start, -⟩ := bracketName_eq_some_iff.1 named
    obtain ⟨-, other⟩ := hb.append_eq_cons rfl start
    cases other
  rw [List.singleton_append] at shape
  rw [copiedColumn?, String.toList_ofList, shape, noName, columnRef_group hb] at found
  cases found

theorem copiedColumn?_bracketed {c : List Char} {k k' : Nat} (h : Tokens inner (normalize text))
    (shape : enclose k' inner = enclose k [.name (bracketed c)])
    (found : copiedColumn? table (String.ofList text) = some column) :
    table.column? (String.ofList (unescaped ']' c)) = some column := by
  have same := enclose_inj shape (head_of_copiedColumn? h found) (by simp)
  subst same
  obtain ⟨b, rest, hb, read, tokens, clear⟩ := h.of_name (isNormal_normalize text).uncommented
  have noColumn : columnRef (normalize text) = none := by
    rw [read, bracketed, List.cons_append]
    exact columnRef_bracket hb _
  rw [copiedColumn?, String.toList_ofList] at found
  dsimp only at found
  split at found
  · rename_i name named
    obtain ⟨inside, -, -, whole, rfl⟩ := bracketName_eq_some_iff.1 named
    rw [read] at whole
    obtain ⟨rfl, whole⟩ := hb.append_eq_cons rfl whole
    have parts : c ++ ']' :: rest = inside ++ [']'] := by simpa [bracketed] using whole
    have blank := tokens.blank_of_nil clear
    rcases List.eq_nil_or_concat' rest with rfl | ⟨rest, d, rfl⟩
    · rwa [(List.append_inj' parts rfl).1]
    · have last : (c ++ ']' :: rest) ++ [d] = inside ++ [']'] := by simpa using parts
      obtain ⟨-, same⟩ := List.append_inj' last rfl
      cases same
      cases blank ']' (by simp)
  · rw [noColumn] at found
    cases found

theorem copiedColumn?_quoted {t c : List Char} {k k' : Nat} (h : Tokens inner (normalize text))
    (free : '[' ∉ t)
    (shape : enclose k' inner = enclose k [.name (singleQuoted t), .name (bracketed c)])
    (found : copiedColumn? table (String.ofList text) = some column) :
    table.column? (String.ofList (unescaped ']' c)) = some column := by
  have same := enclose_inj shape (head_of_copiedColumn? h found) (by simp)
  subst same
  obtain ⟨b, rest, hb, read, tokens, clear⟩ := h.of_name (isNormal_normalize text).uncommented
  obtain ⟨b', rest', hb', rfl, tokens, clear⟩ := tokens.of_name clear
  have whole : normalize text = b ++ (singleQuoted t ++ b' ++ bracketed c) ++ rest' := by
    rw [read]
    simp
  rw [copiedColumn?, String.toList_ofList] at found
  dsimp only at found
  split at found
  · rename_i name named
    obtain ⟨inside, -, -, start, -⟩ := bracketName_eq_some_iff.1 named
    rw [read] at start
    obtain ⟨-, other⟩ := hb.append_eq_cons rfl start
    cases other
  · obtain ⟨⟨owner, name⟩, named, chosen⟩ := Option.bind_eq_some_iff.1 found
    rw [whole] at named
    obtain ⟨-, rfl⟩ := columnRef_quoted free hb hb' (tokens.blank_of_nil clear) named
    dsimp only at chosen
    split at chosen
    · exact chosen
    · cases chosen

theorem exists_of_selfReference? {physical : String}
    (h : selfReference? table (String.ofList text) = some physical) :
    ∃ column, copiedColumn? table (String.ofList text) = some column ∧
      column.physicalName = physical := by
  obtain ⟨column, kept, rfl⟩ := Option.map_eq_some_iff.1 h
  exact ⟨column, Option.filter_eq_some_iff.1 kept |>.1, rfl⟩

/-- The normal form of a formula is written with the same names exactly when each of them is left
alone by it. Then the names that are looked up are the ones that are written: in an aggregation of
a column in a quoted table, and in a reference to a column of the same table. -/
theorem normalize_keeps_names {ts : List Token} {text : List Char} (written : Tokens ts text) :
    ((∃ k inner, ts = enclose k inner ∧ Tokens inner (normalize text)) ↔
      ∀ n, .name n ∈ ts → Clean n) ∧
    ((∀ n, .name n ∈ ts → Clean n) →
      (∀ k keyword t c (f : AggregateFunction) call, keyword.map Char.toLower = f.keyword.toList →
        ts = enclose k (aggregationTokens keyword t c) → singleAggregate text = some call →
          call = ⟨f, String.ofList (unescaped '\'' t), some (String.ofList (unescaped ']' c))⟩) ∧
      ∀ (table : Table) physical, selfReference? table (String.ofList text) = some physical →
        ∀ k c, (ts = enclose k [.name (bracketed c)] ∨
          ∃ t, '[' ∉ t ∧ ts = enclose k [.name (singleQuoted t), .name (bracketed c)]) →
            ∃ column, table.column? (String.ofList (unescaped ']' c)) = some column ∧
              column.physicalName = physical) := by
  refine ⟨exists_tokens_normalize_iff written, fun clean => ?_⟩
  obtain ⟨k', inner, rfl, tokens⟩ := (exists_tokens_normalize_iff written).2 clean
  constructor
  · intro k keyword t c f call named shape found
    exact singleAggregate_eq tokens shape named found
  · intro table physical resolved k c shape
    obtain ⟨column, found, same⟩ := exists_of_selfReference? resolved
    rcases shape with alone | ⟨t, free, qualified⟩
    · exact ⟨column, copiedColumn?_bracketed tokens alone found, same⟩
    · exact ⟨column, copiedColumn?_quoted tokens free qualified found, same⟩

/-- An aggregation in parentheses and with a comment. -/
def groupedSales : List Char := "(SUM('My Sales' [Net]) ) //net".toList

def groupedSalesTokens : List Token :=
  enclose 1 (aggregationTokens "SUM".toList "My Sales".toList "Net".toList)

theorem tokens_groupedSales : Tokens groupedSalesTokens groupedSales := by
  have plain {close : Char} {s : List Char} (free : close ∉ s) : Text.Paired close s := by
    simpa using Text.Paired.nil.append_of_notMem free
  have comment : Tokens [] " //net".toList := .blank rfl (.comment (Or.inl rfl) .nil)
  have close : Tokens [.mark ')'] ") //net".toList := .mark rfl rfl rfl comment
  have body : Tokens [.mark ')', .mark ')'] ") ) //net".toList := .mark rfl rfl rfl (.blank rfl close)
  have column : Tokens _ "[Net]) ) //net".toList :=
    @Tokens.name _ _ "Net".toList _ _ rfl (plain (by decide)) (by decide) body
  have table : Tokens _ "'My Sales' [Net]) ) //net".toList :=
    @Tokens.name _ _ "My Sales".toList _ _ rfl (plain (by decide)) (by decide) (.blank rfl column)
  exact .mark rfl rfl rfl (.mark rfl rfl rfl (.mark rfl rfl rfl (.mark rfl rfl rfl
    (.mark rfl rfl rfl table))))

theorem normalize_keeps_names_sales :
    (∃ k inner, groupedSalesTokens = enclose k inner ∧ Tokens inner (normalize groupedSales)) ∧
      singleAggregate groupedSales = some ⟨.sum, "My Sales", some "Net"⟩ := by
  obtain ⟨kept, names⟩ := normalize_keeps_names tokens_groupedSales
  have clean : ∀ n, .name n ∈ groupedSalesTokens → Clean n := by
    have all : groupedSalesTokens.all (fun
      | .name n => decide (Clean n)
      | .mark _ => true) = true := by decide +kernel
    exact fun n found => of_decide_eq_true (List.all_eq_true.1 all _ found)
  have some' : (singleAggregate groupedSales).isSome = true := by decide +kernel
  obtain ⟨call, found⟩ := Option.isSome_iff_exists.1 some'
  have named := (names clean).1 1 "SUM".toList "My Sales".toList "Net".toList .sum call rfl rfl found
  refine ⟨kept.2 clean, ?_⟩
  rw [found, named]
  decide +kernel

/-- With one more space the call is one of another column. -/
example : singleAggregate "SUM('My Sales'[Net  Amount])".toList =
    some ⟨.sum, "My Sales", some "Net Amount"⟩ := by
  decide +kernel

end SemanticLayer.Conversion
