import SemanticLayer.Text.Blank

set_option autoImplicit false

namespace SemanticLayer.Identifier

def isWordChar (c : Char) : Bool := c.isAlphanum

/-- A text with one underscore for each run of characters with a property. -/
def underscoreRuns (p : Char → Bool) : List Char → List Char
  | [] => []
  | c :: r =>
    if p c then
      if r.head?.any p then underscoreRuns p r else '_' :: underscoreRuns p r
    else c :: underscoreRuns p r

def trimUnderscores (s : List Char) : List Char :=
  ((s.dropWhile (· == '_')).reverse.dropWhile (· == '_')).reverse

/-- Replaces what no identifier has by underscores, and leaves one of several underscores in a row
and none at the ends. A name of which nothing is left is called `unnamed`. -/
def sanitize (name : String) : String :=
  let replaced := underscoreRuns (fun c => !isWordChar c && c != '_') name.toList
  let collapsed := underscoreRuns (· == '_') replaced
  match trimUnderscores collapsed with
  | [] => "unnamed"
  | trimmed => String.ofList trimmed

/-- A base with a suffix, cut so that both fit into a length. A suffix that is longer than that is
kept whole. -/
def withSuffix (base suffix : String) (maxLength : Nat) : String :=
  String.ofList (base.toList.take (maxLength - suffix.length)) ++ suffix

inductive Kind where
  | catalog
  | connection
  | model
  | dataset
  | metric
  | metricCalc
  | dimension
  | hierarchy
  | levelAttribute
  | secondaryAttribute
  | relationship
  | perspective
  deriving DecidableEq, Repr

namespace Kind

def all : List Kind :=
  [.catalog, .connection, .model, .dataset, .metric, .metricCalc, .dimension, .hierarchy,
    .levelAttribute, .secondaryAttribute, .relationship, .perspective]

theorem mem_all (k : Kind) : k ∈ all := by
  cases k <;> decide

def text : Kind → String
  | catalog => "catalog"
  | connection => "connection"
  | model => "model"
  | dataset => "dataset"
  | metric => "metric"
  | metricCalc => "metric calc"
  | dimension => "dimension"
  | hierarchy => "hierarchy"
  | levelAttribute => "level attribute"
  | secondaryAttribute => "secondary attribute"
  | relationship => "relationship"
  | perspective => "perspective"

def ofText? (text : String) : Option Kind := all.find? fun k => k.text == text

theorem ofText?_text (k : Kind) : ofText? k.text = some k := by
  cases k <;> decide

end Kind

end SemanticLayer.Identifier
