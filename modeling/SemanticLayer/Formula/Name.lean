import SemanticLayer.Text.Blank
import SemanticLayer.Text.Search

set_option autoImplicit false

/-!
Names as formulas write them: `[column]` with a closing bracket doubled inside, `'table'` with a
quote doubled inside, and the two put together.
-/
namespace SemanticLayer.Formula

def bracketName : List Char → Option (List Char × List Char)
  | '[' :: r =>
    (Text.splitClose ']' r).map fun (inside, rest) =>
      (Text.replaceAll [']', ']'] [']'] inside, rest)
  | _ => none

theorem bracketName_length {s name rest : List Char} (h : bracketName s = some (name, rest)) :
    rest.length + 1 < s.length := by
  unfold bracketName at h
  split at h
  · obtain ⟨⟨inside, after⟩, hi, he⟩ := Option.map_eq_some_iff.1 h
    cases he
    simp only [Text.splitClose_eq_append hi, List.length_cons, List.length_append]
    omega
  · simp at h

/-- The text between two quotes; a single quote alone does not enclose anything. -/
def betweenQuotes? : List Char → Option (List Char)
  | '\'' :: r => if r.getLast? = some '\'' then some r.dropLast else none
  | _ => none

/-- A table name without the blanks around it and the quotes that enclose it. -/
def unquoteTable (name : List Char) : List Char :=
  match betweenQuotes? (Text.trim name) with
  | some inner => Text.replaceAll ['\'', '\''] ['\''] inner
  | none => Text.trim name

def columnRef (text : List Char) : Option (List Char × List Char) :=
  let text := Text.trim text
  let table := unquoteTable (text.takeWhile (· ≠ '['))
  match bracketName (text.dropWhile (· ≠ '[')) with
  | some (column, []) =>
    if table.isEmpty || table.any (fun c => c = '[' || c = ']' || c = '(' || c = ')') then none
    else some (table, column)
  | _ => none

end SemanticLayer.Formula
