import Mathlib.Data.List.DropRight
import SemanticLayer.PowerQuery.Rename
import SemanticLayer.Proofs.PowerQuery.Literal
import SemanticLayer.Proofs.Text.Blank

set_option autoImplicit false

/-!
The lists of renames of an expression are read back.

`Steps` says how an expression writes its rename steps: pairs of literals in braces, lists of pairs
in braces, and before each list the name of the function and a first argument without a brace.
-/
namespace SemanticLayer.PowerQuery

open Text (Blank isBlank)

/-- A literal with blanks around it. -/
def WrittenName (s : List Char) (name : String) : Prop :=
  ∃ before raw after, Blank before ∧ Spells escapes raw name.toList ∧ Blank after ∧
    s = before ++ '"' :: (raw ++ '"' :: after)

theorem WrittenName.of_plain {name : String} (quotes : '"' ∉ name.toList)
    (hashes : '#' ∉ name.toList) {before : List Char} (left : Blank before) :
    WrittenName (before ++ '"' :: (name.toList ++ ['"'])) name :=
  ⟨before, name.toList, [], left, .of_plain quotes hashes, Blank.nil, rfl⟩

def WrittenPair (s : List Char) (pair : String × String) : Prop :=
  ∃ former renamed, WrittenName former pair.1 ∧ WrittenName renamed pair.2 ∧
    s = '{' :: (former ++ ',' :: (renamed ++ ['}']))

inductive WrittenPairs : List Char → List (String × String) → Prop where
  | none {s : List Char} (blank : Blank s) : WrittenPairs s []
  | last {before s after : List Char} {pair : String × String} (left : Blank before)
      (written : WrittenPair s pair) (right : Blank after) :
      WrittenPairs (before ++ (s ++ after)) [pair]
  | next {before s after t : List Char} {pair : String × String}
      {pairs : List (String × String)} (left : Blank before) (written : WrittenPair s pair)
      (right : Blank after) (rest : WrittenPairs t pairs) :
      WrittenPairs (before ++ (s ++ (after ++ ',' :: t))) (pair :: pairs)

def renameFunction : List Char := "Table.RenameColumns".toList

/-- An expression and the pairs of its rename steps, one list for each step. -/
inductive Steps : List Char → List (List (String × String)) → Prop where
  | done {s : List Char} (free : ¬renameFunction <:+: s) : Steps s []
  | step {before argument s rest : List Char} {pairs : List (String × String)}
      {others : List (List (String × String))} (free : ¬renameFunction <:+: before)
      (named : '{' ∉ argument) (written : WrittenPairs s pairs) (later : Steps rest others) :
      Steps (before ++ (renameFunction ++ (argument ++ '{' :: (s ++ '}' :: rest))))
        (pairs :: others)

/-- The text before a closing brace starts with a text that changes the depth. -/
def Crosses (s rest : List Char) (depth depth' : Nat) : Prop :=
  splitBrace depth .outside (s ++ rest) =
    (splitBrace depth' .outside rest).map fun found => (s ++ found.1, found.2)

theorem Crosses.append {s t rest : List Char} {a b c : Nat} (first : Crosses s (t ++ rest) a b)
    (second : Crosses t rest b c) : Crosses (s ++ t) rest a c := by
  unfold Crosses at *
  rw [List.append_assoc, first, second, Option.map_map]
  simp only [Function.comp_def, List.append_assoc]

theorem crosses_open (rest : List Char) (depth : Nat) : Crosses ['{'] rest depth (depth + 1) :=
  rfl

theorem crosses_close (rest : List Char) (depth : Nat) : Crosses ['}'] rest (depth + 1) depth :=
  rfl

theorem crosses_char {c : Char} (plain : c ≠ '"' ∧ c ≠ '{' ∧ c ≠ '}') (rest : List Char)
    (depth : Nat) : Crosses [c] rest depth depth := by
  obtain ⟨quote, left, right⟩ := plain
  have outside : argumentStyle.step .outside c = .outside := by
    simp [Text.ArgumentStyle.step, Text.ArgumentStyle.enter, argumentStyle]
  simp [Crosses, splitBrace, outside, left, right]

theorem crosses_blank {s : List Char} (h : Blank s) (rest : List Char) (depth : Nat) :
    Crosses s rest depth depth := by
  induction s with
  | nil => simp [Crosses]
  | cons c s ih =>
    have visible {d : Char} (hd : isBlank d = false) : c ≠ d := fun same =>
      h.notMem hd (same ▸ List.mem_cons_self)
    exact (crosses_char ⟨visible rfl, visible rfl, visible rfl⟩ (s ++ rest) depth).append
      (ih fun d hd => h d (List.mem_cons_of_mem c hd))

theorem Spells.splitBrace {raw name : List Char} (h : Spells escapes raw name)
    (rest : List Char) (depth : Nat) :
    splitBrace depth (.inside '"') (raw ++ rest) =
      (splitBrace depth (.inside '"') rest).map fun found => (raw ++ found.1, found.2) := by
  have inside {c : Char} (other : c ≠ '"') (s : List Char) :
      PowerQuery.splitBrace depth (.inside '"') (c :: s) =
        (PowerQuery.splitBrace depth (.inside '"') s).map fun found =>
          (c :: found.1, found.2) := by
    simp [PowerQuery.splitBrace, Text.ArgumentStyle.step, other]
  have pair (s : List Char) :
      PowerQuery.splitBrace depth (.inside '"') ('"' :: '"' :: s) =
        (PowerQuery.splitBrace depth (.inside '"') s).map fun found =>
          ('"' :: '"' :: found.1, found.2) := by
    simp [PowerQuery.splitBrace, Text.ArgumentStyle.step, Option.map_map, Function.comp_def]
  have free {s : List Char} (hs : '"' ∉ s) (t : List Char) :
      PowerQuery.splitBrace depth (.inside '"') (s ++ t) =
        (PowerQuery.splitBrace depth (.inside '"') t).map fun found =>
          (s ++ found.1, found.2) := by
    induction s with
    | nil => simp
    | cons c s ih =>
      obtain ⟨other, hs⟩ := List.ne_and_not_mem_of_not_mem_cons hs
      rw [List.cons_append, inside (Ne.symm other), ih hs, Option.map_map]
      rfl
  induction h with
  | nil => simp
  | plain plain _ ih =>
    rw [List.cons_append, inside plain.ne_quote, ih, Option.map_map]
    rfl
  | @escape e raw _ mem _ ih =>
    rw [List.append_assoc]
    obtain quotes | none := quotes_of_mem mem
    · rw [quotes, List.cons_append, List.cons_append, List.nil_append, pair, ih, Option.map_map]
      rfl
    · rw [free none, ih, Option.map_map]
      simp only [Function.comp_def, List.append_assoc]

theorem splitBrace_leaving {s : List Char} (h : s.head? ≠ some '"') (depth : Nat) :
    splitBrace depth (.leaving '"') s = splitBrace depth .outside s := by
  cases s with
  | nil => rfl
  | cons c s =>
    have other : c ≠ '"' := fun same => h (congrArg some same)
    have same : argumentStyle.step (.leaving '"') c = argumentStyle.step .outside c := if_neg other
    rw [splitBrace.eq_def, splitBrace.eq_def depth .outside]
    simp only [same]

theorem crosses_literal {raw name rest : List Char} (h : Spells escapes raw name)
    (after : rest.head? ≠ some '"') (depth : Nat) :
    Crosses ('"' :: (raw ++ ['"'])) rest depth depth := by
  have opening (s : List Char) : splitBrace depth .outside ('"' :: s) =
      (splitBrace depth (.inside '"') s).map fun found => ('"' :: found.1, found.2) := rfl
  have closing (s : List Char) : splitBrace depth (.inside '"') ('"' :: s) =
      (splitBrace depth (.leaving '"') s).map fun found => ('"' :: found.1, found.2) := rfl
  unfold Crosses
  rw [List.cons_append, opening, List.append_assoc, h.splitBrace, List.singleton_append, closing,
    splitBrace_leaving after, Option.map_map, Option.map_map]
  simp [Function.comp_def]

theorem Blank.head_append {before s : List Char} (h : Blank before) {c : Char}
    (visible : isBlank c = false) (start : s.head? ≠ some c) : (before ++ s).head? ≠ some c := by
  cases before with
  | nil => exact start
  | cons d before =>
    intro same
    exact h.notMem visible (Option.some.inj same ▸ List.mem_cons_self)

theorem WrittenName.crosses {s rest : List Char} {name : String} (h : WrittenName s name)
    (after : rest.head? ≠ some '"') (depth : Nat) : Crosses s rest depth depth := by
  obtain ⟨before, raw, behind, left, spelt, right, rfl⟩ := h
  have next : (behind ++ rest).head? ≠ some '"' := Blank.head_append right rfl after
  have quoted := (crosses_literal spelt next depth).append (crosses_blank right rest depth)
  simpa using (crosses_blank left _ depth).append quoted

theorem WrittenPair.crosses {s : List Char} {pair : String × String} (h : WrittenPair s pair)
    (rest : List Char) (depth : Nat) : Crosses s rest depth depth := by
  obtain ⟨former, renamed, hf, hr, rfl⟩ := h
  have second : Crosses (renamed ++ ['}']) rest (depth + 1) depth :=
    (hr.crosses (by simp) (depth + 1)).append (crosses_close rest depth)
  have both : Crosses (former ++ ([','] ++ (renamed ++ ['}']))) rest (depth + 1) depth :=
    (hf.crosses (by simp) (depth + 1)).append ((crosses_char (by decide) _ _).append second)
  exact (crosses_open _ depth).append both

theorem WrittenPairs.crosses {s : List Char} {pairs : List (String × String)}
    (h : WrittenPairs s pairs) (rest : List Char) (depth : Nat) : Crosses s rest depth depth := by
  induction h with
  | none blank => exact crosses_blank blank rest depth
  | last left written right =>
    exact (crosses_blank left _ depth).append
      ((written.crosses _ depth).append (crosses_blank right rest depth))
  | next left written right _ ih =>
    exact (crosses_blank left _ depth).append ((written.crosses _ depth).append
      ((crosses_blank right _ depth).append ((crosses_char (by decide) _ depth).append ih)))

theorem WrittenPairs.splitBrace {s : List Char} {pairs : List (String × String)}
    (h : WrittenPairs s pairs) (rest : List Char) :
    splitBrace 0 .outside (s ++ '}' :: rest) = some (s, rest) := by
  rw [h.crosses ('}' :: rest) 0]
  simp [PowerQuery.splitBrace, Text.ArgumentStyle.step, Text.ArgumentStyle.enter, argumentStyle]

theorem dropMark_blank {before : List Char} (h : Blank before) (mark : Char)
    (visible : isBlank mark = false) (s : List Char) :
    dropMark mark (before ++ mark :: s) = some (Text.trimStart s) := by
  have start : Text.trimStart (mark :: s) = mark :: s :=
    List.dropWhile_cons_of_neg (by simp [visible])
  simp [dropMark, Text.trimStart_append h, start]

theorem WrittenName.read {s : List Char} {name : String} (h : WrittenName s name) {mark : Char}
    (apart : mark ≠ '"') (rest : List Char) :
    ∃ after, Blank after ∧ stringLiteral (Text.trimStart (s ++ mark :: rest)) =
      some (name.toList, after ++ mark :: rest) := by
  obtain ⟨before, raw, after, left, spelt, right, rfl⟩ := h
  have next : (after ++ mark :: rest).head? ≠ some '"' :=
    Blank.head_append right rfl fun same => apart (Option.some.inj same)
  have start : Text.trimStart ('"' :: (raw ++ '"' :: (after ++ mark :: rest))) =
      '"' :: (raw ++ '"' :: (after ++ mark :: rest)) := List.dropWhile_cons_of_neg (by decide)
  refine ⟨after, right, ?_⟩
  rw [List.append_assoc, Text.trimStart_append left, List.cons_append, List.append_assoc,
    List.cons_append, start, stringLiteral_spelled spelt next]

theorem WrittenPair.read {before s : List Char} {pair : String × String} (left : Blank before)
    (h : WrittenPair s pair) (rest : List Char) :
    renameEntry (before ++ (s ++ rest)) =
      some (pair, (dropMark ',' (Text.trimStart rest)).getD (Text.trimStart rest)) := by
  obtain ⟨former, renamed, hf, hr, rfl⟩ := h
  obtain ⟨b, hb, first⟩ := hf.read (show ',' ≠ '"' by decide) (renamed ++ '}' :: rest)
  obtain ⟨d, hd, second⟩ := hr.read (show '}' ≠ '"' by decide) rest
  have shape : '{' :: (former ++ ',' :: (renamed ++ ['}'])) ++ rest =
      '{' :: (former ++ ',' :: (renamed ++ '}' :: rest)) := by simp
  rw [shape]
  simp only [renameEntry, dropMark_blank left '{' rfl, first, dropMark_blank hb ',' rfl, second,
    dropMark_blank hd '}' rfl, Option.bind_eq_bind, Option.bind_some, String.ofList_toList]
  rfl

theorem trimStart_trimStart (s : List Char) :
    Text.trimStart (Text.trimStart s) = Text.trimStart s :=
  List.dropWhile_idempotent isBlank s

theorem renameEntry_trimStart (s : List Char) : renameEntry (Text.trimStart s) = renameEntry s := by
  simp only [renameEntry, dropMark, trimStart_trimStart]

theorem trimStart_blank {s : List Char} (h : Blank s) : Text.trimStart s = [] :=
  List.dropWhile_eq_nil_iff.2 h

theorem renameList_blank {s : List Char} (h : Text.trimStart s = []) : renameList s = some [] := by
  rw [renameList, h]
  rfl

theorem renameList_entry {s rest : List Char} {pair : String × String}
    (h : renameEntry s = some (pair, rest)) : renameList s = (renameList rest).map (pair :: ·) := by
  have visible : ¬(Text.trimStart s).isEmpty = true := fun empty => by
    rw [← renameEntry_trimStart, List.isEmpty_iff.1 empty] at h
    cases h
  rw [renameList, if_neg visible]
  split
  · rename_i found
    rw [h] at found
    cases found
    rfl
  · rename_i none
    rw [h] at none
    cases none

theorem renameList_trimStart (s : List Char) : renameList (Text.trimStart s) = renameList s := by
  cases he : renameEntry s with
  | some found => rw [renameList_entry he, renameList_entry ((renameEntry_trimStart s).trans he)]
  | none =>
    rw [renameList, renameList, trimStart_trimStart]
    split
    · rfl
    · split <;> split <;> simp_all [renameEntry_trimStart]

theorem WrittenPairs.read {s : List Char} {pairs : List (String × String)}
    (h : WrittenPairs s pairs) : renameList s = some pairs := by
  induction h with
  | none blank => exact renameList_blank (trimStart_blank blank)
  | @last _ _ after _ left written right =>
    rw [renameList_entry (written.read left after), trimStart_blank right]
    exact congrArg (Option.map _) (renameList_blank rfl)
  | @next _ _ after t _ _ left written right _ ih =>
    have comma : Text.trimStart (after ++ ',' :: t) = ',' :: t := by
      rw [Text.trimStart_append right]
      exact List.dropWhile_cons_of_neg (by decide)
    have dropped : dropMark ',' (',' :: t) = some (Text.trimStart t) :=
      dropMark_blank Blank.nil ',' rfl t
    rw [renameList_entry (written.read left _), comma, dropped, Option.getD_some,
      renameList_trimStart, ih]
    rfl

theorem renameLists_done {s : List Char} (free : ¬renameFunction <:+: s) :
    renameLists s = some [] := by
  rw [renameLists]
  split
  · rfl
  · rename_i found
    cases found.symm.trans (Text.splitFirst_eq_none free)

theorem renameLists_step {s before after body rest : List Char}
    {pairs : List (String × String)} {others : List (List (String × String))}
    (found : Text.splitFirst renameFunction s = some (before, after))
    (closed : splitBrace 0 .outside ((after.dropWhile (· ≠ '{')).drop 1) = some (body, rest))
    (listed : renameList body = some pairs) (later : renameLists rest = some others) :
    renameLists s = some (pairs :: others) := by
  rw [renameLists]
  split
  · rename_i none
    cases found.symm.trans none
  · rename_i same
    cases found.symm.trans same
    split
    · rename_i none
      cases closed.symm.trans none
    · rename_i same
      cases closed.symm.trans same
      rw [listed, later]
      rfl

theorem Steps.read {s : List Char} {calls : List (List (String × String))} (h : Steps s calls) :
    renameLists s = some calls := by
  induction h with
  | done free => exact renameLists_done free
  | @step before argument s rest pairs others free named written later ih =>
    have found : Text.splitFirst renameFunction
        (before ++ (renameFunction ++ (argument ++ '{' :: (s ++ '}' :: rest)))) =
          some (before, argument ++ '{' :: (s ++ '}' :: rest)) :=
      Text.splitFirst_append (by decide) free _
    have visible : ∀ c ∈ argument, decide (c ≠ '{') = true := fun c hc =>
      decide_eq_true fun same => named (same ▸ hc)
    have opened : ((argument ++ '{' :: (s ++ '}' :: rest)).dropWhile (· ≠ '{')).drop 1 =
        s ++ '}' :: rest := by
      rw [List.dropWhile_append_of_pos visible]
      rfl
    have closed := (congrArg (splitBrace 0 .outside) opened).trans (written.splitBrace rest)
    exact renameLists_step found closed written.read ih

end SemanticLayer.PowerQuery
