import SemanticLayer.PowerQuery.Literal
import SemanticLayer.Text.Blank

set_option autoImplicit false

/-!
Where a Power Query expression reads its rows from.

A native query wins over the query option of a database, which wins over the navigation to a table.
Only these shapes are looked for; the expression is not read as a whole.
-/
namespace SemanticLayer.PowerQuery

inductive Source where
  | query (sql : String)
  | table (schema : Option String) (item : String)
  deriving DecidableEq, Repr

/-- The arguments of the first call whose name contains a word. -/
def callArguments (name : String) (s : List Char) : Option (List (List Char)) := do
  let (_, after) ← Text.splitFirst name.toList s
  let found ← splitArguments (after.dropWhile (· ≠ '('))
  return found.items

def nativeQuery (s : List Char) : Option String := do
  let arguments ← callArguments "Value.NativeQuery" s
  let query ← arguments[1]?
  let (sql, _) ← stringLiteral (Text.trim query)
  return String.ofList sql

/-- What follows a word, an equals sign and the blanks around it, if a text starts with these. -/
def afterOption? (word : List Char) (s : List Char) : Option (List Char) :=
  if word.isPrefixOf s then
    match Text.trimStart (s.drop word.length) with
    | '=' :: r => some (Text.trimStart r)
    | _ => none
  else none

def firstMatch {α : Type} (read : List Char → Option α) : List Char → Option α
  | [] => read []
  | c :: r => (read (c :: r)).orElse fun _ => firstMatch read r

/-- The query in the options of a database, its third argument. -/
def databaseQuery (s : List Char) : Option String := do
  let arguments ← callArguments "Sql.Database" s
  let options ← arguments[2]?
  let value ← firstMatch (afterOption? "Query".toList) options
  let (sql, _) ← stringLiteral value
  return String.ofList sql

/-- The longest text before a quote, in which quotes stand in pairs only, and what follows the
quote. When no lone quote comes, the last pair is given up and its first quote closes. -/
def longestQuoted : List Char → Option (List Char × List Char)
  | [] => none
  | ['"'] => some ([], [])
  | [_] => none
  | c :: d :: r =>
    if c = '"' then
      if d = '"' then
        match longestQuoted r with
        | some (inside, rest) => some (c :: d :: inside, rest)
        | none => some ([], d :: r)
      else some ([], d :: r)
    else (longestQuoted (d :: r)).map fun (inside, rest) => (c :: inside, rest)

/-- The quoted value of an option at the start of a text, and what follows it. -/
def quotedOption? (word : List Char) (s : List Char) : Option (List Char × List Char) :=
  match afterOption? word s with
  | some ('"' :: r) => longestQuoted r
  | _ => none

/-- A character and the blanks after it. -/
def skipMark (mark : Char) : List Char → Option (List Char)
  | [] => none
  | c :: r => if c = mark then some (Text.trimStart r) else none

def unquote (s : List Char) : String := String.ofList (Text.replaceAll ['"', '"'] ['"'] s)

/-- A navigation step at the start of a text: a record with an item, and a schema before it. -/
def navigationStep (s : List Char) : Option Source := do
  let record ← (skipMark '{' s).bind (skipMark '[')
  let schema := (quotedOption? "Schema".toList record).bind fun (schema, rest) =>
    (skipMark ',' (Text.trimStart rest)).map fun rest => (schema, rest)
  match schema with
  | some (schema, rest) =>
    let (item, _) ← quotedOption? "Item".toList rest
    return .table (some (unquote schema)) (unquote item)
  | none =>
    let (item, _) ← quotedOption? "Item".toList record
    return .table none (unquote item)

def extract (expression : String) : Option Source :=
  let s := expression.toList
  (nativeQuery s).map .query
    |>.orElse fun _ => (databaseQuery s).map .query
    |>.orElse fun _ => firstMatch navigationStep s

end SemanticLayer.PowerQuery
