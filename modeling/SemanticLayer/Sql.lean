import SemanticLayer.Text.Search

set_option autoImplicit false

/-!
SQL: names and notes that a conversion writes into queries, and the parser that it has queries
checked by, of which nothing else is known.
-/
namespace SemanticLayer.Sql

/-- A name between double quotes, with a quote inside written twice. -/
def quote (name : String) : String :=
  "\"" ++ String.ofList (Text.replaceAll ['"'] ['"', '"'] name.toList) ++ "\""

/-- A text as it stands in a comment, whose end mark does not occur in it. -/
def commentText (text : List Char) : String :=
  String.ofList (Text.replaceAll ['*', '/'] ['*', ' ', '/'] text)

/-- A value followed by a comment that says what was meant. -/
def withComment (value : String) (text : List Char) : String :=
  value ++ " /* " ++ commentText text ++ " */"

inductive Dialect where
  | generic
  | transact
  deriving DecidableEq, Repr

/-- A parser of queries. -/
class Parser where
  /-- What is wrong with a text that is no SQL of a dialect. -/
  error? : Dialect → String → Option String

@[reducible] def Parser.lenient : Parser := ⟨fun _ _ => none⟩

/-- What is wrong with a text that is SQL of neither dialect, as the generic one has it. -/
def error? (parser : Parser) (text : String) : Option String :=
  (parser.error? .generic text).filter fun _ => (parser.error? .transact text).isSome

end SemanticLayer.Sql
